import HclExport.Document.Path
import Mathlib.Data.List.Basic

/-!
# Following a path

The values at the end of a path by recursion on its segments, and what a segment finds in
the members of an object. A member that is no object is left like one without members.

## Main definitions

* `Segment.reach` — the values at the end of some segments.
* `Members.objects` — the objects in the array that is a member.
* `givenTexts` — a text, unless it is empty.

## Main results

* `Segment.follow_eq_flatMap` — layer by layer or value by value.
* `extractTexts_eq` — the texts at a path, by recursion on its segments.
* `Segment.reach_member`, `Segment.reach_items` — one segment with others behind it.
* `Segment.givenTexts_reach_member` — the last segment.
-/

namespace HclExport

/-- A text, unless it is empty. -/
def givenTexts (s : String) : List String :=
  if s = "" then [] else [s]

@[simp] theorem givenTexts_empty : givenTexts "" = [] := rfl

/-- The objects in the array under a name; none when there is no array. -/
def Members.objects (members : Members) (key : String) : List Members :=
  match members.get key with
  | .arr items => items.filterMap Json.members?
  | _ => []

@[simp] theorem Members.objects_nil (key : String) : Members.objects [] key = [] := rfl

@[simp] theorem Members.inner_nil (key : String) : Members.inner [] key = [] := rfl

theorem Members.inner_of_get {members found : Members} {key : String}
    (h : members.get key = .obj found) : members.inner key = found := by
  rw [Members.inner, h]
  rfl

@[simp] theorem Members.text_nil (key : String) : Members.text [] key = "" := rfl

namespace Segment

/-- The values at the end of some segments. -/
def reach : List Segment → Json → List Json
  | [], value => [value]
  | segment :: rest, value => (segment.enter value).flatMap (reach rest)

/-- Layer by layer, each value leads to the same values as by itself; where a layer is empty nothing
is lost by leaving off. -/
theorem follow_eq_flatMap (segments : List Segment) (values : List Json) :
    follow segments values = values.flatMap (reach segments) := by
  induction segments generalizing values with
  | nil => simp [follow, reach]
  | cons segment rest ih =>
    have hlayer : values.flatMap (reach (segment :: rest)) =
        (step values segment).flatMap (reach rest) := by
      rw [step, List.flatMap_assoc]
      rfl
    rw [follow, hlayer]
    split
    next hnone => rw [hnone, List.flatMap_nil]
    next => exact ih _

theorem enter_of_members?_eq_none (segment : Segment) {value : Json}
    (h : value.members? = none) : segment.enter value = [] := by
  cases value with
  | obj members => cases h
  | _ => cases segment <;> rfl

theorem enter_obj_nil (segment : Segment) : segment.enter (.obj []) = [] := by
  cases segment <;> rfl

theorem reach_cons_of_members?_eq_none (segment : Segment) (rest : List Segment) {value : Json}
    (h : value.members? = none) : reach (segment :: rest) value = [] := by
  rw [reach, enter_of_members?_eq_none segment h, List.flatMap_nil]

/-- Where more segments follow, a value that is no object is left like an empty one. -/
theorem reach_cons_getD (segment : Segment) (rest : List Segment) (value : Json) :
    reach (segment :: rest) value = reach (segment :: rest) (.obj (value.members?.getD [])) := by
  cases h : value.members? with
  | none =>
    rw [reach_cons_of_members?_eq_none segment rest h, Option.getD_none, reach, enter_obj_nil,
      List.flatMap_nil]
  | some members =>
    cases value with
    | obj found =>
      obtain rfl : found = members := Option.some.inj h
      rfl
    | _ => cases h

theorem reach_member (key : String) (segment : Segment) (rest : List Segment)
    (members : Members) :
    reach (.member key :: segment :: rest) (.obj members) =
      reach (segment :: rest) (.obj (members.inner key)) := by
  unfold Members.inner
  rw [← reach_cons_getD, reach]
  cases h : Members.get members key with
  | null =>
    -- a member that is not there leads nowhere, and nothing is entered below it
    rw [reach_cons_of_members?_eq_none segment rest rfl]
    simp [enter, h]
  | _ => simp [enter, h]

theorem reach_items (key : String) (segment : Segment) (rest : List Segment)
    (members : Members) :
    reach (.items key :: segment :: rest) (.obj members) =
      (members.objects key).flatMap fun inside => reach (segment :: rest) (.obj inside) := by
  unfold Members.objects
  rw [reach]
  cases h : Members.get members key with
  | arr items =>
    simp only [enter, h]
    -- the members play no part any more, and would stand in the way of the induction
    clear h
    induction items with
    | nil => rfl
    | cons item items ih =>
      rw [List.flatMap_cons, ih, List.filterMap_cons]
      -- an item that is no object is passed over, by the segment behind it if not before
      cases hm : item.members? with
      | none => rw [reach_cons_of_members?_eq_none segment rest hm, List.nil_append]
      | some inside => rw [reach_cons_getD, hm, Option.getD_some, List.flatMap_cons]
  | _ => simp [enter, h]

theorem givenTexts_reach_member (key : String) (members : Members) :
    (reach [.member key] (.obj members)).filterMap givenText? = givenTexts (members.text key) := by
  unfold Members.text
  cases h : Members.get members key with
  | str s =>
    by_cases hs : s = ""
    · simp [reach, enter, h, givenText?, Json.text?, givenTexts, hs]
    · simp [reach, enter, h, givenText?, Json.text?, givenTexts, hs]
  | _ => simp [reach, enter, h, givenText?, Json.text?]

end Segment

/-- The texts at a path, by recursion on its segments. -/
theorem extractTexts_eq (document : Json) (path : String) :
    extractTexts document path =
      (Segment.reach ((splitPath path).map Segment.ofText) document).filterMap givenText? := by
  unfold extractTexts textsAt
  rw [Segment.follow_eq_flatMap, List.flatMap_singleton]

end HclExport
