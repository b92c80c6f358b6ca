import HclExport.Proofs.Document.Path
import Mathlib.Data.List.Perm.Basic

/-!
# Flows with their elements in another order

The elements of the diagram of a flow stand in two lists. A flow in which these are put into another
order, and nothing else is changed, holds the same elements.

## Main definitions

* `Members.mapMember`, `Json.mapObject`, `Json.mapItems` — a change of one member, of an object and
  of an array.
* `Members.arranged`, `Members.Rearranged` — a flow with its elements in another order.

## Main results

* `Members.get?_mapMember_self`, `Members.get?_mapMember_of_ne` — what stands under a name.
* `Members.Rearranged.objects_perm` — the elements of both lists.
-/

namespace HclExport

/-! ### Changes at one place -/

/-- Change a value if it is an object. -/
def Json.mapObject (f : Members → Members) : Json → Json
  | .obj members => .obj (f members)
  | value => value

/-- Change a value if it is an array. -/
def Json.mapItems (f : List Json → List Json) : Json → Json
  | .arr items => .arr (f items)
  | value => value

/-- The items of an array that is put into another order. -/
theorem Json.mapItems_perm {f : List Json → List Json} (hf : ∀ items, (f items).Perm items)
    (value : Json) : (value.items?.getD []).Perm ((value.mapItems f).items?.getD []) := by
  cases value with
  | arr items => exact (hf items).symm
  | _ => exact .refl _

namespace Members

/-- Change what stands under a name. -/
def mapMember (key : String) (f : Json → Json) (members : Members) : Members :=
  members.map fun member => if member.1 = key then (member.1, f member.2) else member

section MapMember

variable {key : String} {f : Json → Json} (members : Members)

theorem get?_mapMember_self : (members.mapMember key f).get? key = (members.get? key).map f := by
  induction members with
  | nil => rfl
  | cons member rest ih =>
    unfold mapMember at ih ⊢
    rw [List.map_cons, get?_cons]
    split
    next hkey => rw [get?_cons, if_pos hkey.symm, if_pos hkey.symm, Option.map_some]
    next hkey => rw [get?_cons, if_neg (Ne.symm hkey), if_neg (Ne.symm hkey), ih]

theorem get?_mapMember_of_ne {other : String} (h : other ≠ key) :
    (members.mapMember key f).get? other = members.get? other := by
  induction members with
  | nil => rfl
  | cons member rest ih =>
    unfold mapMember at ih ⊢
    rw [List.map_cons, get?_cons, ih]
    split
    next hkey =>
      have hne : other ≠ member.1 := fun heq => h (heq.trans hkey)
      rw [if_neg hne, get?_cons, if_neg hne]
    next => rw [get?_cons]

/-- What stands under a name, if nothing is left like that. -/
theorem get_mapMember_self (hnull : f .null = .null) :
    (members.mapMember key f).get key = f (members.get key) := by
  unfold get
  rw [get?_mapMember_self]
  cases members.get? key with
  | none => exact hnull.symm
  | some value => rfl

theorem get_mapMember_of_ne {other : String} (h : other ≠ key) :
    (members.mapMember key f).get other = members.get other := by
  unfold get
  rw [get?_mapMember_of_ne members h]

theorem inner_mapMember_self {g : Members → Members} (hnil : g [] = []) :
    (members.mapMember key (Json.mapObject g)).inner key = g (members.inner key) := by
  unfold inner
  rw [get_mapMember_self members rfl]
  cases members.get key with
  | obj found => rfl
  | _ => exact hnil.symm

end MapMember

/-! ### Flows -/

/-- The lists of a diagram in another order. -/
def arrangeElements (f g : List Json → List Json) (elements : Members) : Members :=
  (elements.mapMember "nodes" (Json.mapItems f)).mapMember "edges" (Json.mapItems g)

/-- A diagram with its elements in another order. -/
def arrangeDiagram (f g : List Json → List Json) (diagram : Members) : Members :=
  diagram.mapMember "elements" (Json.mapObject (arrangeElements f g))

/-- A flow with its elements in another order. -/
def arranged (f g : List Json → List Json) (document : Members) : Members :=
  document.mapMember "graphData" (Json.mapObject (arrangeDiagram f g))

/-- A flow that differs from another one in the order of its nodes and of its edges at most. -/
inductive Rearranged (document : Members) : Members → Prop
  | intro {f g : List Json → List Json} (hnodes : ∀ items, (f items).Perm items)
    (hedges : ∀ items, (g items).Perm items) : Rearranged document (document.arranged f g)

/-! ### The same elements -/

section Elements

variable {f g : List Json → List Json} (elements : Members)

theorem get_nodes_arrangeElements :
    (arrangeElements f g elements).get "nodes" = (elements.get "nodes").mapItems f := by
  unfold arrangeElements
  rw [get_mapMember_of_ne _ (by decide), get_mapMember_self _ rfl]

theorem get_edges_arrangeElements :
    (arrangeElements f g elements).get "edges" = (elements.get "edges").mapItems g := by
  unfold arrangeElements
  rw [get_mapMember_self _ rfl, get_mapMember_of_ne _ (by decide)]

theorem elements_arranged (document : Members) :
    ((document.arranged f g).inner "graphData").inner "elements" =
      arrangeElements f g ((document.inner "graphData").inner "elements") := by
  unfold arranged
  rw [inner_mapMember_self _ rfl, arrangeDiagram, inner_mapMember_self _ rfl]

theorem objects_eq_filterMap (members : Members) (key : String) :
    members.objects key = ((members.get key).items?.getD []).filterMap Json.members? := by
  unfold objects
  cases members.get key <;> rfl

end Elements

namespace Rearranged

variable {document other : Members}

/-- The items of both lists. -/
theorem items_perm (h : document.Rearranged other) {key : String}
    (hkey : key ∈ ["nodes", "edges"]) :
    (((((document.inner "graphData").inner "elements").get key).items?).getD []).Perm
      (((((other.inner "graphData").inner "elements").get key).items?).getD []) := by
  obtain ⟨hnodes, hedges⟩ := h
  rw [elements_arranged]
  rcases List.mem_pair.1 hkey with rfl | rfl
  · rw [get_nodes_arrangeElements]
    exact Json.mapItems_perm hnodes _
  · rw [get_edges_arrangeElements]
    exact Json.mapItems_perm hedges _

/-- The elements of both lists. -/
theorem objects_perm (h : document.Rearranged other) {key : String}
    (hkey : key ∈ ["nodes", "edges"]) :
    (((document.inner "graphData").inner "elements").objects key).Perm
      (((other.inner "graphData").inner "elements").objects key) := by
  rw [objects_eq_filterMap, objects_eq_filterMap]
  exact (h.items_perm hkey).filterMap _

/-- What stands elsewhere in the flow. -/
theorem get?_eq (h : document.Rearranged other) {key : String} (hkey : key ≠ "graphData") :
    document.get? key = other.get? key := by
  obtain ⟨-, -⟩ := h
  exact (get?_mapMember_of_ne document hkey).symm

end Rearranged

end Members

end HclExport
