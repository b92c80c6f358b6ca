import HclExport.Json.Display
import HclExport.Json.Reader
import HclExport.Proofs.Document.Path

/-!
# What a document tells

The texts that a value gives to whoever reads it: the texts and names in it, its items put into
words, and what the values tell that are written in its texts.

## Main definitions

* `Json.Tells` — a text is told by a value.
* `Told` — whatever a value tells has a property.

## Main results

* `Told.get`, `Told.text`, `Told.inner` — what is told by the members of a document.
-/

namespace HclExport

/-- A text is told by a value. -/
inductive Json.Tells : Json → String → Prop
  | text (s : String) : Tells (.str s) s
  /-- An item that is no text is put into words. -/
  | word {items : List Json} {item : Json} (h : item ∈ items) : Tells (.arr items) item.display
  | item {items : List Json} {item : Json} {s : String} (h : item ∈ items) (hitem : Tells item s) :
    Tells (.arr items) s
  | name {members : Members} {member : String × Json} (h : member ∈ members) :
    Tells (.obj members) member.1
  | value {members : Members} {member : String × Json} {s : String} (h : member ∈ members)
    (hvalue : Tells member.2 s) : Tells (.obj members) s
  /-- A text may hold the JSON text of a value. -/
  | embedded {raw s : String} {value : Json} (h : Json.read raw = .ok value)
    (hvalue : Tells value s) : Tells (.str raw) s

/-- Whatever a value tells has a property. -/
def Told (T : String → Prop) (value : Json) : Prop :=
  ∀ s, value.Tells s → T s

namespace Told

variable {T : String → Prop} {members : Members} {items : List Json}

theorem null : Told T .null := by
  intro s h
  cases h

theorem num (n : Number) : Told T (.num n) := by
  intro s h
  cases h

/-- Members whose names and values are told. -/
theorem of_mem (h : ∀ member ∈ members, T member.1 ∧ Told T member.2) : Told T (.obj members) := by
  intro s hs
  cases hs with
  | name hmember => exact (h _ hmember).1
  | value hmember hvalue => exact (h _ hmember).2 s hvalue

theorem nil : Told T (.obj []) :=
  of_mem (by simp)

theorem str {s : String} (h : Told T (.str s)) : T s :=
  h s (.text s)

theorem item (h : Told T (.arr items)) {item : Json} (hitem : item ∈ items) : Told T item :=
  fun s hs => h s (.item hitem hs)

theorem word (h : Told T (.arr items)) {item : Json} (hitem : item ∈ items) : T item.display :=
  h _ (.word hitem)

theorem name (h : Told T (.obj members)) {member : String × Json} (hmember : member ∈ members) :
    T member.1 :=
  h _ (.name hmember)

theorem value (h : Told T (.obj members)) {member : String × Json} (hmember : member ∈ members) :
    Told T member.2 :=
  fun s hs => h s (.value hmember hs)

theorem embedded {raw : String} (h : Told T (.str raw)) {value : Json}
    (hread : Json.read raw = .ok value) : Told T value :=
  fun s hs => h s (.embedded hread hs)

/-- Fewer members tell less. -/
theorem subset (h : Told T (.obj members)) {others : Members} (hsubset : others ⊆ members) :
    Told T (.obj others) :=
  of_mem fun _ hmember => ⟨h.name (hsubset hmember), h.value (hsubset hmember)⟩

/-! ### Members of documents -/

theorem get (h : Told T (.obj members)) (key : String) : Told T (members.get key) := by
  unfold Members.get Members.get?
  cases hfound : members.lookup key with
  | none => exact null
  | some found =>
    obtain ⟨before, after, rfl, -⟩ := List.lookup_eq_some_iff.1 hfound
    exact h.value (List.mem_append_right before List.mem_cons_self)

theorem ofMembers? {value : Json} (h : Told T value) : Told T (.obj (value.members?.getD [])) := by
  cases value with
  | obj members => exact h
  | _ => exact nil

theorem inner (h : Told T (.obj members)) (key : String) : Told T (.obj (members.inner key)) :=
  (h.get key).ofMembers?

/-- A text that is not there is empty. -/
theorem text (h : Told T (.obj members)) (key : String) :
    members.text key = "" ∨ T (members.text key) := by
  have hget := h.get key
  unfold Members.text
  cases hvalue : members.get key with
  | str s =>
    rw [hvalue] at hget
    exact Or.inr hget.str
  | _ => exact Or.inl rfl

/-- A text that is there is one of the values. -/
theorem str_text (h : Told T (.obj members)) {key : String} (hgiven : members.text key ≠ "") :
    Told T (.str (members.text key)) := by
  have hget := h.get key
  unfold Members.text at hgiven ⊢
  cases hvalue : members.get key with
  | str s =>
    rw [hvalue] at hget
    exact hget
  | _ =>
    rw [hvalue] at hgiven
    exact absurd rfl hgiven

theorem text_of_ne (h : Told T (.obj members)) {key : String} (hgiven : members.text key ≠ "") :
    T (members.text key) :=
  (h.text key).resolve_left hgiven

/-- The objects in a list. -/
theorem filterMap_members? (h : Told T (.arr items)) :
    ∀ found ∈ items.filterMap Json.members?, Told T (.obj found) := by
  intro found hfound
  obtain ⟨item, hitem, hmembers⟩ := List.mem_filterMap.1 hfound
  have hitem := (h.item hitem).ofMembers?
  rw [hmembers] at hitem
  exact hitem

theorem items? {value : Json} (h : Told T value) : Told T (.arr (value.items?.getD [])) := by
  cases value with
  | arr items => exact h
  | _ =>
    intro s hs
    cases hs with
    | word hitem => cases hitem
    | item hitem _ => cases hitem

end Told

end HclExport
