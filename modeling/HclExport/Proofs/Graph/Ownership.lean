import HclExport.Graph.Ownership
import Mathlib.Data.List.Basic

/-!
# What ownership records hold

Recording an owner adds nothing but the ids that are given, whether records are merged or
not.

## Main definitions

* `Ownership.Lists` — some record lists a resource under an owner.

## Main results

* `Ownership.lists_add` — what is listed after an owner was recorded.
* `Ownership.lists_of_parent?` — an owner that is found is listed.
-/

namespace HclExport

theorem mem_addNewIds {known ids : List String} {id : String} :
    id ∈ addNewIds known ids ↔ id ∈ known ∨ id ∈ ids := by
  -- whatever is known so far, since every id that is added is known to those behind it
  unfold addNewIds
  induction ids generalizing known with
  | nil => simp
  | cons new rest ih =>
    rw [List.foldl_cons, ih]
    by_cases h : known.contains new = true
    · rw [if_pos h]
      have hnew : new ∈ known := List.contains_iff_mem.1 h
      constructor
      · rintro (hid | hid)
        · exact Or.inl hid
        · exact Or.inr (List.mem_cons_of_mem _ hid)
      · rintro (hid | hid)
        · exact Or.inl hid
        · rcases List.mem_cons.1 hid with rfl | hid
          · exact Or.inl hnew
          · exact Or.inr hid
    · rw [if_neg h]
      simp [or_assoc]

namespace Ownership

/-- Some record lists a resource under an owner. -/
def Lists (o : Ownership) (owner child : Ref) : Prop :=
  ∃ record ∈ o.records,
    record.parent = owner ∧ record.childKind = child.kind ∧ child.id ∈ record.childIds

theorem exists_of_mem_merge {owner : Ref} {kind : Kind} {ids : List String}
    {records : List OwnershipRecord} {record : OwnershipRecord} {id : String}
    (hrecord : record ∈ OwnershipRecord.merge owner kind ids records)
    (hid : id ∈ record.childIds) :
    (∃ old ∈ records, old.parent = record.parent ∧ old.childKind = record.childKind ∧
        id ∈ old.childIds) ∨
      record.parent = owner ∧ record.childKind = kind ∧ id ∈ ids := by
  induction records with
  | nil =>
    obtain rfl := List.mem_singleton.1 hrecord
    rcases mem_addNewIds.1 hid with hid | hid
    · cases hid
    · exact Or.inr ⟨rfl, rfl, hid⟩
  | cons first rest ih =>
    rw [OwnershipRecord.merge] at hrecord
    by_cases habout : first.isAbout owner kind = true
    · -- this record takes the ids, and those behind it stay as they are
      rw [if_pos habout] at hrecord
      rcases List.mem_cons.1 hrecord with rfl | hrecord
      · rcases mem_addNewIds.1 hid with hid | hid
        · exact Or.inl ⟨first, List.mem_cons_self, rfl, rfl, hid⟩
        · simp only [OwnershipRecord.isAbout, Bool.and_eq_true, decide_eq_true_eq] at habout
          exact Or.inr ⟨habout.1, habout.2, hid⟩
      · exact Or.inl ⟨record, List.mem_cons_of_mem _ hrecord, rfl, rfl, hid⟩
    · rw [if_neg habout] at hrecord
      rcases List.mem_cons.1 hrecord with rfl | hrecord
      · exact Or.inl ⟨record, List.mem_cons_self, rfl, rfl, hid⟩
      · rcases ih hrecord with ⟨old, hold, hsame⟩ | hnew
        · exact Or.inl ⟨old, List.mem_cons_of_mem _ hold, hsame⟩
        · exact Or.inr hnew

/-- What is listed after an owner was recorded was listed before, or is what was recorded. -/
theorem lists_add {o : Ownership} {parent owner child : Ref} {kind : Kind} {ids : List String}
    (h : (o.add parent kind ids).Lists owner child) :
    o.Lists owner child ∨ owner = parent ∧ child.kind = kind ∧ child.id ∈ ids := by
  obtain ⟨record, hrecord, rfl, hkind, hid⟩ := h
  unfold add at hrecord
  split at hrecord
  · rcases exists_of_mem_merge hrecord hid with ⟨old, hold, hparent, hchild, hid⟩ | hnew
    · exact Or.inl ⟨old, hold, hparent, hchild.trans hkind, hid⟩
    · exact Or.inr ⟨hnew.1, hkind.symm.trans hnew.2.1, hnew.2.2⟩
  · rcases List.mem_append.1 hrecord with hrecord | hrecord
    · exact Or.inl ⟨record, hrecord, rfl, hkind, hid⟩
    · obtain rfl := List.mem_singleton.1 hrecord
      exact Or.inr ⟨rfl, hkind.symm, hid⟩

/-- An owner that is found is listed. -/
theorem lists_of_parent? {o : Ownership} {child : Ref} {record : OwnershipRecord}
    (h : o.parent? child = some record) : o.Lists record.parent child := by
  have hfound := List.find?_some h
  simp only [Bool.and_eq_true, decide_eq_true_eq, List.contains_iff_mem] at hfound
  exact ⟨record, List.mem_of_find?_eq_some h, rfl, hfound.1, hfound.2⟩

end Ownership

end HclExport
