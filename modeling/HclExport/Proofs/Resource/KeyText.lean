import HclExport.Graph.Basic
import HclExport.Resource.Address

/-!
# Keys and addresses determine what they name

A resource type holds neither a colon nor a dot, so that the first of them ends the type
whatever stands in the id or the name behind it.

## Main results

* `Ref.key_injective` — the key of an identity determines it.
* `attributeAddress_inj` — the address of an attribute determines the resource.
-/

namespace HclExport

/-- Texts with a separator in them are equal if they are cut alike, or if one front goes on where
the other one ends. -/
theorem append_cons_eq_iff {α : Type} {c : α} {a b p q : List α} :
    a ++ c :: p = b ++ c :: q ↔
      (a = b ∧ p = q) ∨ (∃ m, b = a ++ c :: m ∧ p = m ++ c :: q) ∨
        ∃ m, a = b ++ c :: m ∧ q = m ++ c :: p := by
  constructor
  · intro h
    -- one of the fronts starts with the other, and what is left of it starts with the separator
    rcases List.append_eq_append_iff.1 h with ⟨m, rfl, hm⟩ | ⟨m, rfl, hm⟩
    · cases m with
      | nil => exact Or.inl ⟨by simp, List.tail_eq_of_cons_eq hm⟩
      | cons d m =>
        obtain ⟨rfl, rfl⟩ := List.cons_eq_cons.1 hm
        exact Or.inr (Or.inl ⟨m, rfl, rfl⟩)
    · cases m with
      | nil => exact Or.inl ⟨by simp, (List.tail_eq_of_cons_eq hm).symm⟩
      | cons d m =>
        obtain ⟨rfl, rfl⟩ := List.cons_eq_cons.1 hm
        exact Or.inr (Or.inr ⟨m, rfl, rfl⟩)
  · rintro (⟨rfl, rfl⟩ | ⟨m, rfl, rfl⟩ | ⟨m, rfl, rfl⟩)
    · rfl
    · simp
    · simp

/-- Where no front holds the separator, none goes on behind the other. -/
theorem append_cons_inj {α : Type} {c : α} {a b p q : List α} (ha : c ∉ a) (hb : c ∉ b)
    (h : a ++ c :: p = b ++ c :: q) : a = b ∧ p = q := by
  rcases append_cons_eq_iff.1 h with h | ⟨m, rfl, -⟩ | ⟨m, rfl, -⟩
  · exact h
  · exact absurd (by simp) hb
  · exact absurd (by simp) ha

theorem Kind.colon_not_mem_type (kind : Kind) : ':' ∉ kind.type.toList := by
  cases kind <;> decide

theorem Kind.dot_not_mem_type (kind : Kind) : '.' ∉ kind.type.toList := by
  cases kind <;> decide

theorem Kind.type_injective {kind other : Kind} (h : kind.type = other.type) : kind = other := by
  have := Kind.ofType?_type kind
  rw [h, Kind.ofType?_type] at this
  exact (Option.some.inj this).symm

/-- An id may hold colons itself: the first one ends the type. -/
theorem Ref.key_injective {a b : Ref} (h : a.key = b.key) : a = b := by
  have hl := congrArg String.toList h
  simp only [Ref.key, String.toList_append, List.append_assoc] at hl
  obtain ⟨htype, hid⟩ :=
    append_cons_inj (Kind.colon_not_mem_type a.kind) (Kind.colon_not_mem_type b.kind) hl
  obtain ⟨kind, id⟩ := a
  obtain ⟨other, id'⟩ := b
  obtain rfl : kind = other := Kind.type_injective (String.toList_inj.1 htype)
  obtain rfl : id = id' := String.toList_inj.1 hid
  rfl

/-- Whatever the names are, the address of an attribute determines kind and name. -/
theorem attributeAddress_inj {kind other : Kind} {name other' key : String}
    (h : attributeAddress kind.type name key = attributeAddress other.type other' key) :
    kind = other ∧ name = other' := by
  have hl := congrArg String.toList h
  simp only [attributeAddress, address, String.toList_append, List.append_assoc] at hl
  obtain ⟨htype, hrest⟩ :=
    append_cons_inj (Kind.dot_not_mem_type kind) (Kind.dot_not_mem_type other) hl
  have hname : name.toList = other'.toList := List.append_cancel_right hrest
  exact ⟨Kind.type_injective (String.toList_inj.1 htype), String.toList_inj.1 hname⟩

end HclExport
