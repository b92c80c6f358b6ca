import HclExport.Proofs.Hcl.Header
import HclExport.Proofs.Hcl.Tidy
import HclExport.Proofs.Json.Order

/-!
# What is written the same

The argument of `jsonencode` is written in the order of keys at every depth, so it does not show in
which order the members of an object stood. Items that differ in such arguments alone are written
the same.

## Main definitions

* `Value.Same` — values that are written the same as arguments of `jsonencode`.
* `Item.Same` — items that are written the same in every place.

## Main results

* `Value.same_object_sorted` — objects whose members are computed from members.
* `Value.same_ofJson_sorted` — **a value is written like its sorted form.**
* `Item.Same.append`, `Item.Same.block`, `Item.Same.json` — items of such parts.
-/

namespace HclExport

open Hcl (Item Value Writer)

namespace Hcl.Value

/-- Values that are written the same as arguments of `jsonencode`, in every column. -/
def Same (value other : Value) : Prop :=
  ∀ indent, value.entry indent = other.entry indent

theorem Same.refl (value : Value) : value.Same value :=
  fun _ => rfl

theorem Same.jsonText_eq {value other : Value} (h : value.Same other) (indent : Int) :
    value.jsonText indent = other.jsonText indent := by
  unfold jsonText
  rw [h indent]

/-- Objects whose members are computed one by one, from members and from their sorted form. -/
theorem same_object_sorted {f : String → Json → Value} {members : Members}
    (h : ∀ member ∈ members, (f member.1 member.2.sorted).Same (f member.1 member.2)) :
    (object (members.sorted.map fun member => (member.1, f member.1 member.2))).Same
      (object (members.map fun member => (member.1, f member.1 member.2))) := by
  intro indent
  have hentries : (sortOn Prod.fst (members.sorted.map fun member =>
        (member.1, (f member.1 member.2).entry (indent + 2)))) =
      sortOn Prod.fst (members.map fun member =>
        (member.1, (f member.1 member.2).entry (indent + 2))) := by
    rw [sortOn_map, Members.sortOn_sorted, sortOn_map, List.map_map]
    refine List.map_congr_left fun member hmember => ?_
    exact congrArg (Prod.mk member.1) (h member (mem_sortOn.1 hmember) (indent + 2))
  rw [entry, entry, memberEntries_eq_map, memberEntries_eq_map, List.map_map, List.map_map]
  exact congrArg (fun entries => (⟨enclosed _ _ indent (entries.map memberEntry), ""⟩ : Entry))
    hentries

/-- Objects that differ in their last member. -/
theorem Same.object_append {value other : Value} (h : value.Same other) (key : String)
    (members : List (String × Value)) :
    (object (members ++ [(key, value)])).Same (object (members ++ [(key, other)])) := by
  intro indent
  rw [entry, entry, memberEntries_eq_map, memberEntries_eq_map, List.map_append, List.map_append,
    List.map_singleton, List.map_singleton, h]

theorem ofMembers_eq_map (members : Members) :
    ofMembers members = members.map fun member => (member.1, ofJson member.2) := by
  induction members with
  | nil => rfl
  | cons member rest ih => rw [ofMembers, ih, List.map_cons]

mutual

/-- **A value is written like its sorted form.** -/
theorem same_ofJson_sorted (value : Json) : (ofJson value.sorted).Same (ofJson value) := by
  cases value with
  | arr items =>
    intro indent
    rw [Json.sorted_arr, ofJson, ofJson, entry, entry, itemEntries_ofItems_sorted]
  | obj members =>
    rw [Json.sorted_obj, ofJson, ofJson, ofMembers_eq_map, ofMembers_eq_map]
    exact same_object_sorted (f := fun _ => ofJson) (same_ofMembers_sorted members)
  | _ => exact Same.refl _

theorem itemEntries_ofItems_sorted (items : List Json) (indent : Int) :
    itemEntries indent (ofItems (items.map Json.sorted)) = itemEntries indent (ofItems items) := by
  cases items with
  | nil => rfl
  | cons item rest =>
    rw [List.map_cons, ofItems, ofItems, itemEntries, itemEntries, same_ofJson_sorted item,
      itemEntries_ofItems_sorted rest]

theorem same_ofMembers_sorted (members : List (String × Json)) :
    ∀ member ∈ members, (ofJson member.2.sorted).Same (ofJson member.2) := by
  cases members with
  | nil => simp
  | cons member rest =>
    exact List.forall_mem_cons.2 ⟨same_ofJson_sorted member.2, same_ofMembers_sorted rest⟩

end

end Hcl.Value

namespace Hcl.Item

/-- Items that are written the same in every place. -/
def Same (items others : List Item) : Prop :=
  ∀ w : Writer, writeAll w items = writeAll w others

namespace Same

variable {items others more further : List Item}

theorem refl (items : List Item) : Same items items :=
  fun _ => rfl

theorem of_eq (h : items = others) : Same items others := by
  rw [h]
  exact refl others

theorem append (h : Same items others) (hmore : Same more further) :
    Same (items ++ more) (others ++ further) := by
  intro w
  rw [writeAll_append, writeAll_append, h w, hmore]

theorem cons (item : Item) (h : Same items others) : Same (item :: items) (item :: others) :=
  fun w => h (write w item)

theorem block (header opener closer : String) (h : Same items others) :
    Same [.block header opener closer items] [.block header opener closer others] := by
  intro w
  simp only [writeAll, write, h (w.enter header opener closer)]

theorem json (key : String) {value other : Value} (h : value.Same other) :
    Same [.json key value] [.json key other] := by
  intro w
  simp only [writeAll, write, Writer.assignJson, h.jsonText_eq]

theorem renderAll_eq (h : Same items others) : renderAll items = renderAll others :=
  congrArg Writer.render (h {})

end Same

end Hcl.Item

end HclExport
