import HclExport.Json.Basic
import HclExport.Proofs.Sorting
import Mathlib.Data.List.Nodup

/-!
# The order of members

A value in which the members of every object stand in the order of their names. Values that differ
in the order of members alone have one such form, and what is read of a value by the names of its
members is read of that form.

## Main definitions

* `Json.Reordered` — values that differ in the order of members alone.
* `Json.sorted`, `Members.sorted` — a value, and members, in the order of names at any depth.

## Main results

* `Json.Reordered.sorted_eq` — **values that differ in the order of members have one sorted form.**
* `Members.get?_sorted` — the members of the sorted form.
-/

namespace HclExport

namespace Json

/-- Values that differ at most in the order in which members under distinct names stand in objects,
at any depth. -/
inductive Reordered : Json → Json → Prop
  | refl (value : Json) : Reordered value value
  | trans {a b c : Json} (first : Reordered a b) (second : Reordered b c) : Reordered a c
  /-- The members of an object stand in another order. -/
  | members {p q : List (String × Json)} (hkeys : (p.map Prod.fst).Nodup) (h : p.Perm q) :
    Reordered (.obj p) (.obj q)
  /-- An item of an array differs. -/
  | item (before after : List Json) {a b : Json} (h : Reordered a b) :
    Reordered (.arr (before ++ a :: after)) (.arr (before ++ b :: after))
  /-- A member of an object differs. -/
  | member (before after : List (String × Json)) (key : String) {a b : Json} (h : Reordered a b) :
    Reordered (.obj (before ++ (key, a) :: after)) (.obj (before ++ (key, b) :: after))

mutual

/-- The value with the members of every object in the order of their names. -/
def sorted : Json → Json
  | .arr items => .arr (sortedItems items)
  | .obj members => .obj (sortOn Prod.fst (sortedMembers members))
  | .null => .null
  | .bool b => .bool b
  | .num n => .num n
  | .str s => .str s

/-- Items with the members inside in the order of their names. -/
def sortedItems : List Json → List Json
  | [] => []
  | item :: rest => sorted item :: sortedItems rest

/-- Members with the members inside in the order of their names. -/
def sortedMembers : List (String × Json) → List (String × Json)
  | [] => []
  | (key, value) :: rest => (key, sorted value) :: sortedMembers rest

end

end Json

/-- Members that differ at most in the order of members, at any depth. -/
def Members.Reordered (a b : Members) : Prop :=
  Json.Reordered (.obj a) (.obj b)

/-- Members in the order of their names, at any depth. -/
def Members.sorted (members : Members) : Members :=
  sortOn Prod.fst (Json.sortedMembers members)

/-! ### The sorted form -/

namespace Json

theorem sortedItems_eq_map (items : List Json) : sortedItems items = items.map sorted := by
  induction items with
  | nil => rfl
  | cons item rest ih => rw [sortedItems, ih, List.map_cons]

theorem sortedMembers_eq_map (members : List (String × Json)) :
    sortedMembers members = members.map fun member => (member.1, member.2.sorted) := by
  induction members with
  | nil => rfl
  | cons member rest ih => rw [sortedMembers, ih, List.map_cons]

@[simp] theorem sorted_null : sorted .null = .null := rfl

@[simp] theorem sorted_bool (b : Bool) : sorted (.bool b) = .bool b := rfl

@[simp] theorem sorted_num (n : Number) : sorted (.num n) = .num n := rfl

@[simp] theorem sorted_str (s : String) : sorted (.str s) = .str s := rfl

@[simp] theorem sorted_arr (items : List Json) : sorted (.arr items) = .arr (items.map sorted) := by
  rw [sorted, sortedItems_eq_map]

@[simp] theorem sorted_obj (members : Members) : sorted (.obj members) = .obj members.sorted := rfl

end Json

/-- The members of the sorted form, each in its sorted form. -/
theorem Members.sorted_eq_map (members : Members) :
    members.sorted = (sortOn Prod.fst members).map fun member => (member.1, member.2.sorted) := by
  rw [Members.sorted, Json.sortedMembers_eq_map, sortOn_map]

/-- **Values that differ in the order of members have one sorted form.** -/
theorem Json.Reordered.sorted_eq {a b : Json} (h : Reordered a b) : a.sorted = b.sorted := by
  induction h with
  | refl value => rfl
  | trans _ _ ihfirst ihsecond => exact ihfirst.trans ihsecond
  | @members p q hkeys h =>
    have hsorted : sortOn Prod.fst p = sortOn Prod.fst q :=
      sortOn_eq_of_perm h fun _ hx _ hy => List.inj_on_of_nodup_map hkeys hx hy
    rw [sorted_obj, sorted_obj, Members.sorted_eq_map, Members.sorted_eq_map, hsorted]
  | item before after _ ih => simp [ih]
  | member before after key _ ih =>
    simp [Members.sorted, sortedMembers_eq_map, ih]

theorem Members.Reordered.sorted_eq {a b : Members} (h : Members.Reordered a b) :
    a.sorted = b.sorted :=
  Json.obj.inj (Json.Reordered.sorted_eq h)

/-! ### What is read of the sorted form -/

namespace Members

theorem get?_eq_head? (members : Members) (key : String) :
    members.get? key = ((members.filter fun member => member.1 = key).head?).map Prod.snd := by
  induction members with
  | nil => rfl
  | cons member rest ih =>
    rw [get?_cons, List.filter_cons, ih]
    by_cases hkey : key = member.1
    · simp [hkey]
    · simp [hkey, Ne.symm hkey]

theorem get?_map (f : Json → Json) (members : Members) (key : String) :
    get? (members.map fun member => (member.1, f member.2)) key = (members.get? key).map f := by
  induction members with
  | nil => rfl
  | cons member rest ih =>
    rw [List.map_cons, get?_cons, get?_cons, ih]
    split
    · rfl
    · rfl

variable (members : Members) (key : String)

/-- What stands under a name does not depend on the order of names. -/
theorem get?_sortOn : get? (sortOn Prod.fst members) key = members.get? key := by
  rw [get?_eq_head?, filter_sortOn, ← get?_eq_head?]

/-- The members of the sorted form. -/
@[simp] theorem get?_sorted : members.sorted.get? key = (members.get? key).map Json.sorted := by
  rw [sorted_eq_map, get?_map, get?_sortOn]

@[simp] theorem get_sorted : members.sorted.get key = (members.get key).sorted := by
  unfold get
  rw [get?_sorted]
  cases members.get? key <;> rfl

@[simp] theorem isEmpty_sorted : members.sorted.isEmpty = members.isEmpty := by
  rw [sorted_eq_map, List.isEmpty_map, (sortOn_perm Prod.fst members).isEmpty_eq]

theorem mem_sorted {member : String × Json} :
    member ∈ members.sorted ↔ ∃ other ∈ members, (other.1, other.2.sorted) = member := by
  rw [sorted_eq_map, List.mem_map]
  simp only [mem_sortOn]

/-- Members that are selected by name. -/
theorem filter_sorted (p : String → Bool) :
    members.sorted.filter (fun member => p member.1) =
      Members.sorted (members.filter fun member => p member.1) := by
  rw [sorted_eq_map, List.filter_map, sorted_eq_map, sortOn_filter]
  rfl

/-- Members in a row. -/
theorem sortOn_sorted_append (more : Members) :
    sortOn Prod.fst (members.sorted ++ more.sorted) = Members.sorted (members ++ more) := by
  have hrow : sortOn Prod.fst (sortOn Prod.fst members ++ sortOn Prod.fst more) =
      sortOn Prod.fst (members ++ more) := by
    refine sortOn_eq_of_filter fun k => ?_
    rw [List.filter_append, filter_sortOn, filter_sortOn, List.filter_append]
  rw [sorted_eq_map, sorted_eq_map, ← List.map_append, sortOn_map, sorted_eq_map, ← hrow]

/-- What is written in the order of names is written of the sorted form. -/
theorem sortOn_sorted :
    sortOn Prod.fst members.sorted =
      (sortOn Prod.fst members).map fun member => (member.1, member.2.sorted) := by
  rw [sorted_eq_map, sortOn_map]
  exact congrArg _ (sortOn_sortOn members)

end Members

namespace Json

variable (value : Json)

@[simp] theorem text?_sorted : value.sorted.text? = value.text? := by
  cases value <;> simp [text?]

@[simp] theorem bool?_sorted : value.sorted.bool? = value.bool? := by
  cases value <;> simp [bool?]

@[simp] theorem number?_sorted : value.sorted.number? = value.number? := by
  cases value <;> simp [number?]

@[simp] theorem items?_sorted : value.sorted.items? = value.items?.map (List.map sorted) := by
  cases value <;> simp [items?]

@[simp] theorem members?_sorted : value.sorted.members? = value.members?.map Members.sorted := by
  cases value <;> simp [members?]

/-- The objects among items. -/
@[simp] theorem filterMap_members?_sorted (items : List Json) :
    (items.map sorted).filterMap members? = (items.filterMap members?).map Members.sorted := by
  rw [List.filterMap_map, List.map_filterMap]
  exact List.filterMap_congr fun item _ => members?_sorted item

end Json

namespace Members

variable (members : Members) (key : String)

@[simp] theorem text_sorted : members.sorted.text key = members.text key := by
  simp [text]

@[simp] theorem flag?_sorted : members.sorted.flag? key = members.flag? key := by
  simp [flag?]

@[simp] theorem number?_sorted : members.sorted.number? key = members.number? key := by
  simp [number?]

@[simp] theorem inner_sorted : members.sorted.inner key = (members.inner key).sorted := by
  unfold inner
  rw [get_sorted, Json.members?_sorted]
  cases (members.get key).members? <;> rfl

end Members

end HclExport
