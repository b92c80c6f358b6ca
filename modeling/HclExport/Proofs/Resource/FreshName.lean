import HclExport.Resource.NameRegistry
import Mathlib.Data.List.Perm.Subperm
import Mathlib.Data.List.Nodup

/-!
# Names are handed out once

Among the variants of a name that the registry looks at there is one more than it has
handed out names, and no two variants are equal; so one of them is free.

## Main results

* `variant_injective` — a name and its variants by number.
* `next_not_mem_issued` — the next name for a request was not handed out before.
-/

namespace HclExport
namespace NameRegistry

/-- Variants of a name with different numbers differ. -/
theorem variant_injective (name : String) : Function.Injective (variant name) := by
  intro m n h
  have hs : toString m = toString n := (String.append_right_inj (name ++ "_")).1 h
  have hd : Nat.toDigits 10 m = Nat.toDigits 10 n := by
    rw [← Nat.toList_repr, ← Nat.toList_repr]
    exact congrArg String.toList hs
  -- reading the digits gives the number back
  have hr := congrArg (fun digits => Nat.ofDigitChars 10 digits 0) hd
  simpa using hr

/-- If the search ends at a variant that was handed out, it passed over nothing but such. -/
theorem variant_mem_of_firstFree_mem (issued : List String) (name : String) :
    ∀ tries number, variant name (firstFree issued name tries number) ∈ issued →
      ∀ k ≤ tries, variant name (number + k) ∈ issued := by
  intro tries
  induction tries with
  | zero =>
    intro number h k hk
    obtain rfl : k = 0 := by omega
    exact h
  | succ tries ih =>
    intro number h k hk
    rw [firstFree] at h
    by_cases hmem : issued.contains (variant name number) = true
    · rw [if_pos hmem] at h
      cases k with
      | zero => exact List.contains_iff_mem.1 hmem
      | succ k =>
        have := ih (number + 1) h k (by omega)
        rwa [show number + (k + 1) = number + 1 + k by omega]
    · rw [if_neg hmem] at h
      exact absurd (List.contains_iff_mem.2 h) hmem

/-- Among one more variants than names were handed out, one is free. -/
theorem variant_firstFree_not_mem (issued : List String) (name : String) (number : Nat) :
    variant name (firstFree issued name issued.length number) ∉ issued := by
  intro h
  have hall := variant_mem_of_firstFree_mem issued name issued.length number h
  -- the variants looked at are distinct and all handed out, but there are too many of them
  let looked := (List.range (issued.length + 1)).map fun k => variant name (number + k)
  have hnodup : looked.Nodup := by
    refine List.Nodup.map ?_ List.nodup_range
    intro a b hab
    have := variant_injective name hab
    omega
  have hsub : looked ⊆ issued := by
    intro v hv
    obtain ⟨k, hk, rfl⟩ := List.mem_map.1 hv
    rw [List.mem_range] at hk
    exact hall k (by omega)
  have hle := (List.subperm_of_subset hnodup hsub).length_le
  simp only [looked, List.length_map, List.length_range] at hle
  omega

/-- The next name for a request was not handed out before. -/
theorem next_not_mem_issued (registry : NameRegistry) (name : String) :
    registry.next name ∉ registry.issued := by
  unfold next
  by_cases h : registry.issued.contains name = true
  · rw [if_pos h]
    exact variant_firstFree_not_mem _ _ _
  · rw [if_neg h]
    exact fun hmem => h (List.contains_iff_mem.2 hmem)

@[simp] theorem issued_request (registry : NameRegistry) (name : String) :
    (registry.request name).2.issued = registry.next name :: registry.issued := rfl

end NameRegistry
end HclExport
