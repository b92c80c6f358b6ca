import HclExport.Sorting
import Mathlib.Data.List.Forall2

/-!
# What a stable sort depends on

Elements of one key stand in a sorted list as they stood before, and that is all that the list
depends on: how elements of different keys stood does not matter.

## Main results

* `filter_sortOn` — the elements of one key.
* `sortOn_eq_of_filter` — **lists with the same elements of each key are sorted alike.**
* `sortOn_filter`, `sortOn_sortOn` — sorting what was selected or sorted before.
* `forall₂_sortOn` — lists whose elements are related one by one stay so.
-/

namespace HclExport

variable {α β : Type _}

/-! ### The elements of one key -/

section Filter

variable {key : α → String}

theorem filter_insertSorted (k : String) (x : α) (xs : List α) :
    (insertSorted (fun a b => textLe (key a) (key b)) x xs).filter (fun y => key y = k) =
      (x :: xs).filter fun y => key y = k := by
  induction xs with
  | nil => rfl
  | cons y ys ih =>
    rw [insertSorted]
    split
    next => rfl
    next hle =>
      -- what is passed over comes first in the order, so it has another key
      have hkeys : key x ≠ key y := by
        intro heq
        have hrefl : key x ≤ key y := heq ▸ String.le_refl (key x)
        exact hle (decide_eq_true hrefl)
      rw [List.filter_cons, ih, List.filter_cons, List.filter_cons, List.filter_cons]
      by_cases hx : key x = k
      · have hy : key y ≠ k := fun hy => hkeys (hx.trans hy.symm)
        simp [hx, hy]
      · simp [hx]

/-- The elements of one key stand as they stood. -/
theorem filter_sortOn (k : String) (xs : List α) :
    (sortOn key xs).filter (fun y => key y = k) = xs.filter fun y => key y = k := by
  rw [sortOn_eq_sortBy]
  induction xs with
  | nil => rfl
  | cons x xs ih => rw [sortBy_cons, filter_insertSorted, List.filter_cons, List.filter_cons, ih]

/-- Lists in order with the same elements of each key are the same. -/
theorem eq_of_filter {xs ys : List α} (hxs : xs.Pairwise fun a b => key a ≤ key b)
    (hys : ys.Pairwise fun a b => key a ≤ key b)
    (h : ∀ k, xs.filter (fun y => key y = k) = ys.filter fun y => key y = k) : xs = ys := by
  induction xs generalizing ys with
  | nil =>
    cases ys with
    | nil => rfl
    | cons y ys =>
      have hnone := h (key y)
      simp at hnone
  | cons x xs ih =>
    cases ys with
    | nil =>
      have hnone := h (key x)
      simp at hnone
    | cons y ys =>
      obtain ⟨hx, hxs'⟩ := List.pairwise_cons.1 hxs
      obtain ⟨hy, hys'⟩ := List.pairwise_cons.1 hys
      -- each list has the first key of the other, and none before its own first key
      have hle : key x ≤ key y := by
        have hmem : y ∈ (x :: xs).filter fun z => key z = key y := by
          rw [h]
          simp
        rcases List.mem_cons.1 (List.mem_filter.1 hmem).1 with rfl | hmem
        · exact String.le_refl _
        · exact hx y hmem
      have hge : key y ≤ key x := by
        have hmem : x ∈ (y :: ys).filter fun z => key z = key x := by
          rw [← h]
          simp
        rcases List.mem_cons.1 (List.mem_filter.1 hmem).1 with rfl | hmem
        · exact String.le_refl _
        · exact hy x hmem
      have hkeys : key x = key y := String.le_antisymm hle hge
      have hfirst := h (key x)
      simp only [List.filter_cons, hkeys, decide_true, if_true, List.cons.injEq] at hfirst
      obtain ⟨rfl, -⟩ := hfirst
      congr 1
      refine ih hxs' hys' fun k => ?_
      have hk := h k
      rw [List.filter_cons, List.filter_cons] at hk
      split at hk
      · exact (List.cons.inj hk).2
      · exact hk

theorem sortOn_pairwise (key : α → String) (xs : List α) :
    (sortOn key xs).Pairwise fun a b => key a ≤ key b :=
  (sortOn_stable key xs).imp fun h => h.1

/-- **Lists with the same elements of each key are sorted alike.** -/
theorem sortOn_eq_of_filter {xs ys : List α}
    (h : ∀ k, xs.filter (fun y => key y = k) = ys.filter fun y => key y = k) :
    sortOn key xs = sortOn key ys := by
  refine eq_of_filter (sortOn_pairwise key xs) (sortOn_pairwise key ys) fun k => ?_
  rw [filter_sortOn, filter_sortOn, h]

/-- What is selected of a sorted list. -/
theorem sortOn_filter (p : α → Bool) (xs : List α) :
    sortOn key (xs.filter p) = (sortOn key xs).filter p := by
  refine eq_of_filter (sortOn_pairwise key _) ((sortOn_pairwise key xs).filter _) fun k => ?_
  rw [filter_sortOn, List.filter_filter, List.filter_filter]
  have hcomm : ∀ zs : List α, (zs.filter fun y => decide (key y = k) && p y) =
      (zs.filter fun y => key y = k).filter p := by
    intro zs
    rw [List.filter_filter]
    simp only [Bool.and_comm]
  rw [hcomm, hcomm, filter_sortOn]

/-- Sorting a sorted list. -/
theorem sortOn_sortOn (xs : List α) : sortOn key (sortOn key xs) = sortOn key xs :=
  sortOn_eq_of_filter fun k => filter_sortOn k xs

end Filter

/-! ### Related lists -/

section Related

variable {key : α → String} {key' : β → String} {R : α → β → Prop}

theorem forall₂_insertSorted (hkey : ∀ a b, R a b → key a = key' b) {x : α} {y : β} (h : R x y)
    {xs : List α} {ys : List β} (hall : List.Forall₂ R xs ys) :
    List.Forall₂ R (insertSorted (fun a b => textLe (key a) (key b)) x xs)
      (insertSorted (fun a b => textLe (key' a) (key' b)) y ys) := by
  induction hall with
  | nil => exact .cons h .nil
  | @cons a b as bs hab hrest ih =>
    rw [insertSorted, insertSorted, hkey x y h, hkey a b hab]
    split
    · exact .cons h (.cons hab hrest)
    · exact .cons hab ih

/-- Lists whose elements are related one by one, and then have the same keys, stay so. -/
theorem forall₂_sortOn (hkey : ∀ a b, R a b → key a = key' b) {xs : List α} {ys : List β}
    (h : List.Forall₂ R xs ys) : List.Forall₂ R (sortOn key xs) (sortOn key' ys) := by
  rw [sortOn_eq_sortBy, sortOn_eq_sortBy]
  induction h with
  | nil => exact .nil
  | cons hxy _ ih => exact forall₂_insertSorted hkey hxy ih

theorem map_eq_of_forall₂ {γ : Type _} {f : α → γ} {g : β → γ} (hf : ∀ a b, R a b → f a = g b)
    {xs : List α} {ys : List β} (h : List.Forall₂ R xs ys) : xs.map f = ys.map g := by
  induction h with
  | nil => rfl
  | cons hab _ ih => rw [List.map_cons, List.map_cons, hf _ _ hab, ih]

end Related

end HclExport
