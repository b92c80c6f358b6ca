import HclExport.Proofs.Hcl.Quoted
import HclExport.Resource.Address

/-!
# How often a text is marked

Unfinished places are found by a mark, and the marks of a text are counted wherever they stand. No
two marks overlap, so the marks of a text that is put together are those of its parts, as long as
none is made up of the end of one part and the beginning of the next. Neither quoting nor what
stands behind a text in a remark adds a mark to it or takes one away.

## Main definitions

* `countMarks` — how many marks start in a text.
* `HasTodos` — a text brings a number of marks with it, whatever follows.
* `IsUnmarked`, `EndsMark` — texts in which no mark starts, and none that was begun goes on.

## Main results

* `countTodos_eq_countMarks` — what is counted.
* `HasTodos.append`, `HasTodos.join` — texts that are put together.
* `hasTodos_quote` — a quoted literal has the marks of its text.
* `HasTodos.behind` — so has a text in front of one that ends every mark.
-/

namespace HclExport

/-! ### Counting the places where a mark starts -/

/-- The mark behind its first character. -/
def markTail : List Char := " TODO:".toList

theorem toList_todoMark : todoMark.toList = '#' :: markTail := by
  decide

/-- How many marks start in a text. -/
def countMarks : List Char → Nat
  | [] => 0
  | c :: rest => (if c = '#' ∧ markTail <+: rest then 1 else 0) + countMarks rest

@[simp] theorem countMarks_nil : countMarks [] = 0 := rfl

theorem countMarks_cons (c : Char) (rest : List Char) :
    countMarks (c :: rest) = (if c = '#' ∧ markTail <+: rest then 1 else 0) + countMarks rest := rfl

/-- A mark starts with its sign only. -/
theorem countMarks_cons_of_ne {c : Char} (h : c ≠ '#') (rest : List Char) :
    countMarks (c :: rest) = countMarks rest := by
  rw [countMarks_cons, if_neg (fun hstart => h hstart.1), Nat.zero_add]

theorem countMarks_append_of_notMem {cs : List Char} (h : '#' ∉ cs) (more : List Char) :
    countMarks (cs ++ more) = countMarks more := by
  induction cs with
  | nil => rfl
  | cons c rest ih =>
    rw [List.mem_cons, not_or] at h
    rw [List.cons_append, countMarks_cons_of_ne (Ne.symm h.1), ih h.2]

/-- A search that passes over what it found misses nothing, for no mark starts within another. -/
theorem countOccurrences_eq (skip : Nat) (cs : List Char) :
    countOccurrences todoMark.toList skip cs = countMarks (cs.drop skip) := by
  induction cs generalizing skip with
  | nil => simp [countOccurrences]
  | cons c rest ih =>
    cases skip with
    | succ skip => exact ih skip
    | zero =>
      have hstart : todoMark.toList.isPrefixOf (c :: rest) = true ↔
          c = '#' ∧ markTail <+: rest := by
        rw [List.isPrefixOf_iff_prefix, toList_todoMark, List.cons_prefix_cons, eq_comm]
      rw [countOccurrences, List.drop_zero, countMarks_cons]
      by_cases hmark : c = '#' ∧ markTail <+: rest
      · obtain ⟨more, rfl⟩ := hmark.2
        have hlength : todoMark.toList.length - 1 = markTail.length := by decide
        rw [if_pos (hstart.2 hmark), if_pos hmark, ih, hlength, List.drop_left,
          countMarks_append_of_notMem (by decide)]
      · rw [if_neg (fun h => hmark (hstart.1 h)), if_neg hmark, ih, List.drop_zero, Nat.zero_add]

/-- What is counted in a text are the places where a mark starts. -/
theorem countTodos_eq_countMarks (s : String) : countTodos s = countMarks s.toList := by
  rw [countTodos, countOccurrences_eq, List.drop_zero]

/-! ### Texts that bring marks with them -/

/-- A text brings a number of marks with it, whatever follows. -/
def HasTodos (s : String) (n : Nat) : Prop :=
  ∀ more, countMarks (s.toList ++ more) = n + countMarks more

namespace HasTodos

variable {s t : String} {n m : Nat}

theorem countTodos_eq (h : HasTodos s n) : countTodos s = n := by
  rw [countTodos_eq_countMarks, ← List.append_nil s.toList, h, countMarks_nil, Nat.add_zero]

theorem append (hs : HasTodos s n) (ht : HasTodos t m) : HasTodos (s ++ t) (n + m) := by
  intro more
  rw [String.toList_append, List.append_assoc, hs, ht, Nat.add_assoc]

theorem empty : HasTodos "" 0 := by
  intro more
  rw [Nat.zero_add]
  rfl

/-- A text without the sign of the mark has no marks. -/
theorem of_notMem (h : '#' ∉ s.toList) : HasTodos s 0 := by
  intro more
  rw [countMarks_append_of_notMem h, Nat.zero_add]

/-- Texts in a row. -/
theorem join {α : Type} {text : α → String} {count : α → Nat} {xs : List α}
    (h : ∀ x ∈ xs, HasTodos (text x) (count x)) :
    HasTodos (String.join (xs.map text)) (xs.map count).sum := by
  intro more
  rw [String.toList_join, List.flatMap_map]
  induction xs with
  | nil => simp
  | cons x rest ih =>
    obtain ⟨hx, hrest⟩ := List.forall_mem_cons.1 h
    rw [List.flatMap_cons, List.append_assoc, hx, ih hrest, List.map_cons, List.sum_cons,
      Nat.add_assoc]

end HasTodos

/-! ### Remarks -/

/-- No mark starts in a text, whatever follows. -/
def IsUnmarked (s : String) : Prop :=
  ∀ part ∈ s.toList.tails, part = [] ∨ ¬ todoMark.toList <+: part ∧ ¬ part <+: todoMark.toList

instance (s : String) : Decidable (IsUnmarked s) :=
  inferInstanceAs (Decidable (∀ part ∈ s.toList.tails,
    part = [] ∨ ¬ todoMark.toList <+: part ∧ ¬ part <+: todoMark.toList))

/-- Of two texts that differ, neither is the beginning of a text that starts with the other. -/
theorem not_prefix_append {cs part : List Char} (h : ¬ cs <+: part) (h' : ¬ part <+: cs)
    (more : List Char) : ¬ cs <+: part ++ more := by
  intro hprefix
  rcases List.prefix_or_prefix_of_prefix hprefix (List.prefix_append part more) with hcs | hpart
  · exact h hcs
  · exact h' hpart

theorem IsUnmarked.hasTodos {s : String} (h : IsUnmarked s) : HasTodos s 0 := by
  intro more
  unfold IsUnmarked at h
  generalize s.toList = cs at h
  rw [Nat.zero_add]
  induction cs with
  | nil => rfl
  | cons c rest ih =>
    rw [List.tails_cons, List.forall_mem_cons] at h
    obtain ⟨hfirst, hrest⟩ := h
    obtain ⟨hshort, hlong⟩ := hfirst.resolve_left (List.cons_ne_nil _ _)
    have hnone : ¬ (c = '#' ∧ markTail <+: rest ++ more) := by
      rintro ⟨rfl, hmark⟩
      refine not_prefix_append hshort hlong more ?_
      rw [toList_todoMark, List.cons_append, List.cons_prefix_cons]
      exact ⟨rfl, hmark⟩
    rw [List.cons_append, countMarks_cons, if_neg hnone, Nat.zero_add, ih hrest]

/-- A mark that was begun does not go on in a text, whatever follows. -/
def EndsMark (s : String) : Prop :=
  ∀ part ∈ markTail.tails, part = [] ∨ ¬ part <+: s.toList ∧ ¬ s.toList <+: part

instance (s : String) : Decidable (EndsMark s) :=
  inferInstanceAs (Decidable (∀ part ∈ markTail.tails,
    part = [] ∨ ¬ part <+: s.toList ∧ ¬ s.toList <+: part))

theorem EndsMark.append {s : String} (h : EndsMark s) (t : String) : EndsMark (s ++ t) := by
  intro part hpart
  refine (h part hpart).imp_right fun hdiffer => ?_
  rw [String.toList_append]
  exact ⟨not_prefix_append hdiffer.1 hdiffer.2 t.toList, fun hlong =>
    hdiffer.2 ((List.prefix_append _ _).trans hlong)⟩

/-- What is left of a mark that goes on behind a text starts in the text as a whole, if it ends in
front of what ends every mark. -/
theorem prefix_of_endsMark {t : String} (ht : EndsMark t) {part cs more : List Char}
    (hpart : part <:+ markTail) (h : part <+: cs ++ (t.toList ++ more)) : part <+: cs := by
  induction cs generalizing part with
  | nil =>
    rcases ht part ((List.mem_tails _ _).2 hpart) with rfl | ⟨hshort, hlong⟩
    · exact List.nil_prefix
    · exact absurd h (not_prefix_append hshort hlong more)
  | cons c rest ih =>
    cases part with
    | nil => exact List.nil_prefix
    | cons x part =>
      rw [List.cons_append, List.cons_prefix_cons] at h
      rw [List.cons_prefix_cons]
      exact ⟨h.1, ih ((List.suffix_cons x part).trans hpart) h.2⟩

/-- A text keeps its marks in front of one that ends every mark. -/
theorem HasTodos.behind {t : String} {n : Nat} (h : HasTodos t n) (ht : EndsMark t) (s : String) :
    HasTodos (s ++ t) (countTodos s + n) := by
  intro more
  rw [countTodos_eq_countMarks, String.toList_append, List.append_assoc]
  generalize s.toList = cs
  induction cs with
  | nil => rw [List.nil_append, countMarks_nil, Nat.zero_add, h]
  | cons c rest ih =>
    have hmark : markTail <+: rest ++ (t.toList ++ more) ↔ markTail <+: rest :=
      ⟨prefix_of_endsMark ht (List.suffix_refl _), fun hrest =>
        hrest.trans (List.prefix_append _ _)⟩
    simp only [List.cons_append, countMarks_cons, hmark, ih]
    omega

/-! ### Quoted literals -/

section Quoted

open Hcl (escape quote)

/-- Characters that stand for themselves in a literal and start nothing else. -/
def IsVerbatim (cs : List Char) : Prop :=
  ∀ c ∈ cs, escapeChar c = [c] ∧ c ∉ Hcl.openers ∧ c ≠ '\\' ∧ c ≠ '"'

instance (cs : List Char) : Decidable (IsVerbatim cs) :=
  decidable_of_iff
    (cs.all fun c => escapeChar c = [c] ∧ c ∉ Hcl.openers ∧ c ≠ '\\' ∧ c ≠ '"')
    List.all_iff_forall_prop

/-- What stands in the place of a character starts with it or with a backslash. -/
theorem exists_escape_cons (c : Char) (rest : List Char) :
    ∃ first more, escape (c :: rest) = first :: more ∧ (first = c ∨ first = '\\') := by
  rw [Hcl.escape_cons]
  split
  · exact ⟨c, _, rfl, Or.inl rfl⟩
  · rcases Hcl.escapeChar_cases c with ⟨hc, -⟩ | ⟨e, -, hc, -⟩ | ⟨hc, -⟩
    · rw [hc]
      exact ⟨c, _, rfl, Or.inl rfl⟩
    · rw [hc]
      exact ⟨'\\', _, rfl, Or.inr rfl⟩
    · rw [hc]
      exact ⟨'\\', _, rfl, Or.inr rfl⟩

/-- A plain character in front of a literal is written as it is. -/
theorem escape_cons_of_plain {c : Char} (hchar : escapeChar c = [c]) (hopener : c ∉ Hcl.openers)
    (rest : List Char) : escape (c :: rest) = c :: escape rest := by
  have hopens : Hcl.opensTemplate c rest ≠ true := fun h =>
    hopener (Hcl.opensTemplate_iff.1 h).1
  rw [Hcl.escape_cons, if_neg hopens, hchar]
  rfl

/-- A literal starts with a plain word if its text does. -/
theorem prefix_escape_iff {part : List Char} (hpart : IsVerbatim part) (cs more : List Char) :
    part <+: escape cs ++ '"' :: more ↔ part <+: cs := by
  induction part generalizing cs with
  | nil => simp
  | cons x part ih =>
    obtain ⟨⟨hchar, hopener, hslash, hquote⟩, hrest⟩ := List.forall_mem_cons.1 hpart
    cases cs with
    | nil => simp [List.cons_prefix_cons, hquote]
    | cons c rest =>
      by_cases hx : x = c
      · subst hx
        rw [escape_cons_of_plain hchar hopener, List.cons_append, List.cons_prefix_cons,
          List.cons_prefix_cons, ih hrest]
      · obtain ⟨first, tail, hescape, hfirst⟩ := exists_escape_cons c rest
        have hne : x ≠ first := by
          rcases hfirst with rfl | rfl
          · exact hx
          · exact hslash
        rw [hescape, List.cons_append, List.cons_prefix_cons, List.cons_prefix_cons]
        simp [hx, hne]

/-- The sign of the mark does not come from another character. -/
theorem sign_notMem_escape {c : Char} (h : c ≠ '#') (rest : List Char) :
    '#' ∉ if Hcl.opensTemplate c rest = true then [c, c] else escapeChar c := by
  have hletters : '#' ∉ Hcl.escapeLetters := by decide
  split
  · simp [h.symm]
  · rcases Hcl.escapeChar_cases c with ⟨hc, -⟩ | ⟨e, he, hc, -⟩ | ⟨hc, -⟩
    · simp [hc, h.symm]
    · have hne : '#' ≠ e := fun hsign => hletters (hsign ▸ he)
      simp [hc, hne]
    · have hdigits : '#' ∉ hexDigits 4 c.toNat := fun hmem => by
        have hword := isWordChar_of_mem_hexDigits hmem
        revert hword
        decide
      simp [hc, hdigits]

theorem countMarks_escape (cs more : List Char) :
    countMarks (escape cs ++ '"' :: more) = countMarks cs + countMarks more := by
  induction cs with
  | nil => rw [Hcl.escape_nil, List.nil_append, countMarks_cons_of_ne (by decide), countMarks_nil,
      Nat.zero_add]
  | cons c rest ih =>
    by_cases hc : c = '#'
    · subst hc
      have hmark : markTail <+: escape rest ++ '"' :: more ↔ markTail <+: rest :=
        prefix_escape_iff (by decide) rest more
      rw [escape_cons_of_plain (by decide) (by decide), List.cons_append]
      simp only [countMarks_cons, hmark, ih, Nat.add_assoc]
    · rw [Hcl.escape_cons, List.append_assoc,
        countMarks_append_of_notMem (sign_notMem_escape hc rest), ih, countMarks_cons_of_ne hc]

/-- **A quoted literal has the marks of its text**, since no character of the mark is written in
another way. -/
theorem hasTodos_quote (s : String) : HasTodos (quote s) (countTodos s) := by
  intro more
  rw [Hcl.toList_quote, List.cons_append, List.cons_append, countMarks_cons_of_ne (by decide),
    List.append_assoc, countTodos_eq_countMarks]
  exact countMarks_escape s.toList more

end Quoted

end HclExport
