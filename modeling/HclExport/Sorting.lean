/-!
# Stable sorting

A stable sort by structural recursion, so that sorted output can be computed in
proofs: every element is put before the first one that it does not exceed.

## Main definitions

* `insertSorted` — put one element into its place.
* `sortBy`, `sortOn` — stable sorts by an order and by a text key.

## Main results

* `sortBy_perm` — sorting permutes the list.
* `sortBy_pairwise` — the result is in order, for a total and transitive order.
* `sortBy_eq_of_perm`, `sortOn_eq_of_perm` — when it does not matter how the elements stood.
* `sortBy_stable`, `sortOn_stable` — equal elements stand as they stood.
* `sortOn_map`, `sortOn_congr` — what the keys are computed from.
-/

namespace HclExport

variable {α β : Type _}

/-- Put an element before the first one that it does not exceed. -/
def insertSorted (le : α → α → Bool) (x : α) : List α → List α
  | [] => [x]
  | y :: ys => if le x y then x :: y :: ys else y :: insertSorted le x ys

@[simp] theorem insertSorted_nil (le : α → α → Bool) (x : α) : insertSorted le x [] = [x] := rfl

/-- The list in order, equal elements as they stood. -/
def sortBy (le : α → α → Bool) : List α → List α
  | [] => []
  | x :: xs => insertSorted le x (sortBy le xs)

@[simp] theorem sortBy_nil (le : α → α → Bool) : sortBy le ([] : List α) = [] := rfl

@[simp] theorem sortBy_cons (le : α → α → Bool) (x : α) (xs : List α) :
    sortBy le (x :: xs) = insertSorted le x (sortBy le xs) := rfl

/-- Whether a text comes before another or is the same, by code points. -/
def textLe (a b : String) : Bool :=
  decide (a ≤ b)

/-- The list in the order of a text computed from each element. -/
def sortOn (key : α → String) (xs : List α) : List α :=
  (sortBy (fun a b => textLe a.1 b.1) (xs.map fun x => (key x, x))).map Prod.snd

/-! ### Laws -/

theorem insertSorted_perm (le : α → α → Bool) (x : α) (xs : List α) :
    (insertSorted le x xs).Perm (x :: xs) := by
  induction xs with
  | nil => exact List.Perm.refl _
  | cons y ys ih =>
    by_cases h : le x y = true
    · simp [insertSorted, h]
    · simpa [insertSorted, h] using (ih.cons y).trans (List.Perm.swap x y ys)

/-- Sorting permutes the list. -/
theorem sortBy_perm (le : α → α → Bool) (xs : List α) : (sortBy le xs).Perm xs := by
  induction xs with
  | nil => exact List.Perm.refl _
  | cons x xs ih => exact (insertSorted_perm le x _).trans (ih.cons x)

theorem mem_sortBy {le : α → α → Bool} {xs : List α} {x : α} : x ∈ sortBy le xs ↔ x ∈ xs :=
  (sortBy_perm le xs).mem_iff

/-- Sorting by a key permutes the list. -/
theorem sortOn_perm (key : α → String) (xs : List α) : (sortOn key xs).Perm xs := by
  have h := (sortBy_perm (fun a b => textLe a.1 b.1) (xs.map fun x => (key x, x))).map Prod.snd
  rwa [List.map_map, show (Prod.snd ∘ fun x => (key x, x)) = id from rfl, List.map_id] at h

@[simp] theorem length_sortBy (le : α → α → Bool) (xs : List α) :
    (sortBy le xs).length = xs.length :=
  (sortBy_perm le xs).length_eq

theorem insertSorted_pairwise {le : α → α → Bool}
    (trans : ∀ a b c, le a b = true → le b c = true → le a c = true)
    (total : ∀ a b, (le a b || le b a) = true) (x : α) {xs : List α}
    (h : xs.Pairwise fun a b => le a b = true) :
    (insertSorted le x xs).Pairwise fun a b => le a b = true := by
  induction xs with
  | nil => simp [insertSorted]
  | cons y ys ih =>
    obtain ⟨hy, hys⟩ := List.pairwise_cons.1 h
    by_cases hxy : le x y = true
    · simp only [insertSorted, hxy, if_true]
      refine List.pairwise_cons.2 ⟨fun z hz => ?_, h⟩
      rcases List.mem_cons.1 hz with rfl | hz
      · exact hxy
      · exact trans _ _ _ hxy (hy z hz)
    · have hyx : le y x = true := by simpa [hxy] using total x y
      simp only [insertSorted, hxy]
      refine List.pairwise_cons.2 ⟨fun z hz => ?_, ih hys⟩
      rcases List.mem_cons.1 ((insertSorted_perm le x ys).mem_iff.1 hz) with rfl | hz
      · exact hyx
      · exact hy z hz

/-- The result is in order. -/
theorem sortBy_pairwise {le : α → α → Bool}
    (trans : ∀ a b c, le a b = true → le b c = true → le a c = true)
    (total : ∀ a b, (le a b || le b a) = true) (xs : List α) :
    (sortBy le xs).Pairwise fun a b => le a b = true := by
  induction xs with
  | nil => exact List.Pairwise.nil
  | cons x xs ih => exact insertSorted_pairwise trans total x ih

/-- Where no two different elements are equal in the order, the order in which they stood does
not matter. -/
theorem sortBy_eq_of_perm {le : α → α → Bool}
    (trans : ∀ a b c, le a b = true → le b c = true → le a c = true)
    (total : ∀ a b, (le a b || le b a) = true) {xs ys : List α} (h : xs.Perm ys)
    (antisymm : ∀ a ∈ xs, ∀ b ∈ xs, le a b = true → le b a = true → a = b) :
    sortBy le xs = sortBy le ys := by
  have hperm : (sortBy le xs).Perm (sortBy le ys) :=
    (sortBy_perm le xs).trans (h.trans (sortBy_perm le ys).symm)
  refine List.Perm.eq_of_pairwise ?_ (sortBy_pairwise trans total xs)
    (sortBy_pairwise trans total ys) hperm
  intro a b ha hb
  exact antisymm a (mem_sortBy.1 ha) b (h.mem_iff.2 (mem_sortBy.1 hb))

/-! ### Order of texts -/

theorem textLe_trans {a b c : String} (hab : textLe a b = true) (hbc : textLe b c = true) :
    textLe a c = true :=
  decide_eq_true (String.le_trans (of_decide_eq_true hab) (of_decide_eq_true hbc))

theorem textLe_total (a b : String) : (textLe a b || textLe b a) = true := by
  rcases String.le_total a b with h | h
  · simp [textLe, h]
  · simp [textLe, h]

theorem textLe_antisymm {a b : String} (hab : textLe a b = true) (hba : textLe b a = true) : a = b :=
  String.le_antisymm (of_decide_eq_true hab) (of_decide_eq_true hba)

/-- Where the key tells elements apart, the order in which they stood does not matter. -/
theorem sortOn_eq_of_perm {key : α → String} {xs ys : List α} (h : xs.Perm ys)
    (hkey : ∀ a ∈ xs, ∀ b ∈ xs, key a = key b → a = b) : sortOn key xs = sortOn key ys := by
  refine congrArg (List.map Prod.snd) (sortBy_eq_of_perm ?_ ?_ (h.map fun x => (key x, x)) ?_)
  · exact fun _ _ _ => textLe_trans
  · exact fun _ _ => textLe_total _ _
  · intro a ha b hb hab hba
    obtain ⟨x, hx, rfl⟩ := List.mem_map.1 ha
    obtain ⟨y, hy, rfl⟩ := List.mem_map.1 hb
    rw [hkey x hx y hy (textLe_antisymm hab hba)]

/-! ### Stability -/

/-- Inserting keeps a list in order in which equal elements stand as they stood. -/
theorem insertSorted_stable {le : α → α → Bool}
    (trans : ∀ a b c, le a b = true → le b c = true → le a c = true)
    (total : ∀ a b, (le a b || le b a) = true) (x : α) {xs ys : List α}
    (hmem : ∀ y ∈ ys, y ∈ xs)
    (h : ys.Pairwise fun a b => le a b = true ∧ (le b a = true → [a, b].Sublist xs)) :
    (insertSorted le x ys).Pairwise fun a b =>
      le a b = true ∧ (le b a = true → [a, b].Sublist (x :: xs)) := by
  have hbefore : ∀ z ∈ xs, [x, z].Sublist (x :: xs) := by
    intro z hz
    exact (List.singleton_sublist.2 hz).cons_cons x
  induction ys with
  | nil => exact List.pairwise_singleton _ x
  | cons y ys ih =>
    have hweak : (y :: ys).Pairwise fun a b =>
        le a b = true ∧ (le b a = true → [a, b].Sublist (x :: xs)) := by
      refine h.imp ?_
      intro a b hab
      exact ⟨hab.1, fun hba => (hab.2 hba).cons x⟩
    by_cases hxy : le x y = true
    · rw [insertSorted, if_pos hxy]
      refine List.pairwise_cons.2 ⟨?_, hweak⟩
      intro z hz
      refine ⟨?_, fun _ => hbefore z (hmem z hz)⟩
      rcases List.mem_cons.1 hz with rfl | hz
      · exact hxy
      · exact trans _ _ _ hxy ((List.pairwise_cons.1 h).1 z hz).1
    · have hyx : le y x = true := by simpa [hxy] using total x y
      obtain ⟨hy, hys⟩ := List.pairwise_cons.1 hweak
      rw [insertSorted, if_neg hxy]
      refine List.pairwise_cons.2 ⟨?_, ih (fun z hz => hmem z (List.mem_cons_of_mem y hz))
        (List.pairwise_cons.1 h).2⟩
      intro z hz
      rcases List.mem_cons.1 ((insertSorted_perm le x ys).mem_iff.1 hz) with rfl | hz
      · -- what is passed over does not equal the new element
        exact ⟨hyx, fun hle => absurd hle hxy⟩
      · exact hy z hz

/-- The result is in order, and equal elements stand as they stood. -/
theorem sortBy_stable {le : α → α → Bool}
    (trans : ∀ a b c, le a b = true → le b c = true → le a c = true)
    (total : ∀ a b, (le a b || le b a) = true) (xs : List α) :
    (sortBy le xs).Pairwise fun a b =>
      le a b = true ∧ (le b a = true → [a, b].Sublist xs) := by
  induction xs with
  | nil => exact List.Pairwise.nil
  | cons x xs ih =>
    exact insertSorted_stable trans total x (fun y hy => mem_sortBy.1 hy) ih

theorem insertSorted_map {le : α → α → Bool} {le' : β → β → Bool} {f : α → β}
    (h : ∀ a b, le' (f a) (f b) = le a b) (x : α) (xs : List α) :
    insertSorted le' (f x) (xs.map f) = (insertSorted le x xs).map f := by
  induction xs with
  | nil => rfl
  | cons y ys ih =>
    rw [List.map_cons, insertSorted, h, insertSorted]
    split
    · rfl
    · rw [ih, List.map_cons]

/-- Where images compare as the elements do, it does not matter which are sorted. -/
theorem sortBy_map {le : α → α → Bool} {le' : β → β → Bool} {f : α → β}
    (h : ∀ a b, le' (f a) (f b) = le a b) (xs : List α) :
    sortBy le' (xs.map f) = (sortBy le xs).map f := by
  induction xs with
  | nil => rfl
  | cons x xs ih => rw [List.map_cons, sortBy_cons, ih, insertSorted_map h, sortBy_cons]

/-- Sorting by a key compares the keys of the elements. -/
theorem sortOn_eq_sortBy (key : α → String) (xs : List α) :
    sortOn key xs = sortBy (fun a b => textLe (key a) (key b)) xs := by
  have hkeyed : sortBy (fun a b => textLe a.1 b.1) (xs.map fun x => (key x, x)) =
      (sortBy (fun a b => textLe (key a) (key b)) xs).map fun x => (key x, x) :=
    sortBy_map (fun _ _ => rfl) xs
  rw [sortOn, hkeyed, List.map_map]
  exact List.map_id _

theorem mem_sortOn {key : α → String} {xs : List α} {x : α} : x ∈ sortOn key xs ↔ x ∈ xs :=
  (sortOn_perm key xs).mem_iff

/-- The result is in the order of the keys, and elements of one key stand as they stood. -/
theorem sortOn_stable (key : α → String) (xs : List α) :
    (sortOn key xs).Pairwise fun a b =>
      key a ≤ key b ∧ (key a = key b → [a, b].Sublist xs) := by
  have htrans : ∀ a b c, textLe (key a) (key b) = true → textLe (key b) (key c) = true →
      textLe (key a) (key c) = true := fun _ _ _ => textLe_trans
  have htotal : ∀ a b, (textLe (key a) (key b) || textLe (key b) (key a)) = true :=
    fun _ _ => textLe_total _ _
  have hsorted := sortBy_stable htrans htotal xs
  rw [sortOn_eq_sortBy]
  refine hsorted.imp ?_
  intro a b hab
  refine ⟨of_decide_eq_true hab.1, fun heq => hab.2 ?_⟩
  rw [heq]
  exact decide_eq_true (String.le_refl _)

/-- Sorting by a key that is computed from an image. -/
theorem sortOn_map (key : β → String) (f : α → β) (xs : List α) :
    sortOn key (xs.map f) = (sortOn (fun x => key (f x)) xs).map f := by
  rw [sortOn_eq_sortBy, sortOn_eq_sortBy]
  exact sortBy_map (fun _ _ => rfl) xs

/-- Only the keys of the elements matter. -/
theorem sortOn_congr {key key' : α → String} {xs : List α} (h : ∀ x ∈ xs, key x = key' x) :
    sortOn key xs = sortOn key' xs := by
  have hkeyed : (xs.map fun x => (key x, x)) = xs.map fun x => (key' x, x) := by
    refine List.map_congr_left ?_
    intro x hx
    rw [h x hx]
  rw [sortOn, hkeyed, sortOn]

end HclExport
