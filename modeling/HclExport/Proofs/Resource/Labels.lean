import HclExport.Json.Reader
import HclExport.Proofs.Resource.KeyText
import HclExport.Proofs.Text.Word
import Mathlib.Logic.Relation

/-!
# Labels that share a name

A character that is not legal is written out in a name: its code between two hyphens. Digits and
hyphens are legal themselves, so a label can spell such an escape, and then it has the name of the
label with the character in its place. That is all that makes two names the same: every name belongs
to exactly one label that spells no escape.

## Main definitions

* `written` — the characters of a label in a name.
* `SpellsEscape` — a label holds what a character that is not legal would be written as.
* `WritesOut` — one character of a label is replaced by its escape.

## Main results

* `eq_of_written_eq` — labels that spell no escape are told apart.
* `exists_written_eq` — every legal text is what such a label is written as.
* `sanitize_eq_iff` — **when two labels have one name.**
-/

namespace HclExport

/-! ### Codes of characters -/

/-- The digits between the hyphens of an escape. -/
def codeDigits (c : Char) : List Char :=
  capitalHexDigits 4 c.toNat

/-- The number that digits in base sixteen stand for. -/
def hexNumber (digits : List Char) : Nat :=
  digits.foldl (fun n c => 16 * n + (JsonReader.hexValue c).getD 0) 0

theorem hexValue_capitalDigit {d : Nat} (h : d < 16) :
    JsonReader.hexValue (Nat.digitChar d).toUpper = some d := by
  interval_cases d <;> decide

theorem hexNumber_toDigits (n : Nat) : hexNumber ((Nat.toDigits 16 n).map Char.toUpper) = n := by
  induction n using Nat.strongRecOn with
  | ind n ih =>
    by_cases hn : n < 16
    · rw [Nat.toDigits_of_lt_base hn]
      simp [hexNumber, hexValue_capitalDigit hn]
    · have hfront := ih (n / 16) (by omega)
      unfold hexNumber at hfront ⊢
      rw [Nat.toDigits_of_base_le (by omega) (by omega), List.map_append, List.foldl_append, hfront]
      simp [hexValue_capitalDigit (Nat.mod_lt n (by omega : 16 > 0))]
      omega

/-- Zeros in front do not count. -/
theorem hexNumber_zeros_append (k : Nat) (digits : List Char) :
    hexNumber (List.replicate k '0' ++ digits) = hexNumber digits := by
  induction k with
  | zero => rfl
  | succ k ih => exact ih

theorem hexNumber_capitalHexDigits (width n : Nat) : hexNumber (capitalHexDigits width n) = n := by
  have hzero : Char.toUpper '0' = '0' := by decide
  unfold capitalHexDigits hexDigits
  rw [List.map_append, List.map_replicate, hzero, hexNumber_zeros_append, hexNumber_toDigits]

theorem codeDigits_injective : Function.Injective codeDigits := by
  intro c d h
  have hcode := congrArg hexNumber h
  unfold codeDigits at hcode
  rw [hexNumber_capitalHexDigits, hexNumber_capitalHexDigits] at hcode
  rw [← Char.ofNat_toNat c, hcode, Char.ofNat_toNat]

theorem hyphen_not_mem_codeDigits (c : Char) : '-' ∉ codeDigits c := by
  have hdigit : ∀ d < 16, (Nat.digitChar d).toUpper ≠ '-' := by decide
  intro h
  obtain ⟨digit, hmem, hupper⟩ := List.mem_map.1 h
  obtain ⟨d, hd, rfl⟩ := exists_digitChar_of_mem_hexDigits hmem
  exact hdigit d hd hupper

theorem isLegal_of_mem_codeDigits {c x : Char} (h : x ∈ codeDigits c) : isLegal x = true :=
  isLegal_of_mem_capitalHexDigits h

theorem isLegal_hyphen : isLegal '-' = true := by decide

/-! ### Labels in names -/

/-- The characters of a label in a name. -/
def written (label : List Char) : List Char :=
  label.flatMap escapeLabelChar

@[simp] theorem written_nil : written [] = [] := rfl

theorem written_append (label more : List Char) :
    written (label ++ more) = written label ++ written more :=
  List.flatMap_append

theorem written_cons_of_isLegal {c : Char} (h : isLegal c = true) (rest : List Char) :
    written (c :: rest) = c :: written rest := by
  simp [written, escapeLabelChar, h]

theorem written_cons_of_not_isLegal {c : Char} (h : isLegal c = false) (rest : List Char) :
    written (c :: rest) = '-' :: (codeDigits c ++ '-' :: written rest) := by
  simp [written, escapeLabelChar, codeDigits, h]

/-- A text of legal characters is written as it is. -/
theorem written_eq_self {text : List Char} (h : ∀ c ∈ text, isLegal c = true) :
    written text = text := by
  induction text with
  | nil => rfl
  | cons c rest ih =>
    obtain ⟨hc, hrest⟩ := List.forall_mem_cons.1 h
    rw [written_cons_of_isLegal hc, ih hrest]

theorem isLegal_of_mem_written {label : List Char} {c : Char} (h : c ∈ written label) :
    isLegal c = true := by
  refine isLegalText_escapeLabel (String.ofList label) c ?_
  rw [escapeLabel, String.toList_ofList, String.toList_ofList]
  exact h

/-- Labels have one name if they are written alike. -/
theorem sanitize_eq_iff_written {s t : String} :
    sanitize s = sanitize t ↔ written s.toList = written t.toList := by
  unfold sanitize escapeLabel
  rw [String.append_right_inj, String.ofList_inj]
  rfl

/-! ### Escapes that are spelled -/

/-- A label spells an escape: behind a hyphen stands the code of a character that is not legal, and
behind the code a hyphen, or a character that is written with a hyphen first. -/
def SpellsEscape (label : List Char) : Prop :=
  ∃ front c stop rest, isLegal c = false ∧ (stop = '-' ∨ isLegal stop = false) ∧
    label = front ++ '-' :: (codeDigits c ++ stop :: rest)

theorem not_spellsEscape_nil : ¬SpellsEscape [] := by
  rintro ⟨front, c, stop, rest, -, -, h⟩
  simp at h

theorem SpellsEscape.cons {label : List Char} (h : SpellsEscape label) (c : Char) :
    SpellsEscape (c :: label) := by
  obtain ⟨front, d, stop, rest, hd, hstop, rfl⟩ := h
  exact ⟨c :: front, d, stop, rest, hd, hstop, rfl⟩

/-- An escape that a label spells stands at its start or behind its first character. -/
theorem spellsEscape_cons {c : Char} {label : List Char} (h : SpellsEscape (c :: label)) :
    SpellsEscape label ∨ (c = '-' ∧ ∃ d stop rest, isLegal d = false ∧
      (stop = '-' ∨ isLegal stop = false) ∧ label = codeDigits d ++ stop :: rest) := by
  obtain ⟨front, d, stop, rest, hd, hstop, heq⟩ := h
  cases front with
  | nil =>
    obtain ⟨rfl, rfl⟩ := List.cons_eq_cons.1 heq
    exact Or.inr ⟨rfl, d, stop, rest, hd, hstop, rfl⟩
  | cons first front =>
    obtain ⟨-, rfl⟩ := List.cons_eq_cons.1 heq
    exact Or.inl ⟨front, d, stop, rest, hd, hstop, rfl⟩

/-- A stretch without a hyphen that a label is written with stands in the label itself; the hyphen
behind it does so too, or comes from the character there. -/
theorem exists_of_written_eq {word : List Char} (hword : '-' ∉ word) {label tail : List Char}
    (h : written label = word ++ '-' :: tail) :
    ∃ stop rest, (stop = '-' ∨ isLegal stop = false) ∧ label = word ++ stop :: rest := by
  induction word generalizing label with
  | nil =>
    cases label with
    | nil => simp at h
    | cons c rest =>
      refine ⟨c, rest, ?_, rfl⟩
      cases hc : isLegal c with
      | true =>
        rw [written_cons_of_isLegal hc] at h
        exact Or.inl (List.head_eq_of_cons_eq h)
      | false => exact Or.inr rfl
  | cons first word ih =>
    rw [List.mem_cons, not_or] at hword
    cases label with
    | nil => simp at h
    | cons c rest =>
      cases hc : isLegal c with
      | true =>
        rw [written_cons_of_isLegal hc] at h
        obtain ⟨rfl, hrest⟩ := List.cons_eq_cons.1 h
        obtain ⟨stop, more, hstop, rfl⟩ := ih hword.2 hrest
        exact ⟨stop, more, hstop, rfl⟩
      | false =>
        -- the word would start with the hyphen of an escape
        rw [written_cons_of_not_isLegal hc] at h
        exact absurd (List.head_eq_of_cons_eq h) hword.1

/-- Where a legal character is written as one that is not, it starts an escape that is spelled. -/
theorem spellsEscape_of_written_eq {c d : Char} (hc : isLegal c = true) (hd : isLegal d = false)
    {rest more : List Char} (h : written (c :: rest) = written (d :: more)) :
    SpellsEscape (c :: rest) := by
  rw [written_cons_of_isLegal hc, written_cons_of_not_isLegal hd] at h
  obtain ⟨rfl, hrest⟩ := List.cons_eq_cons.1 h
  obtain ⟨stop, behind, hstop, rfl⟩ := exists_of_written_eq (hyphen_not_mem_codeDigits d) hrest
  exact ⟨[], d, stop, behind, hd, hstop, rfl⟩

/-- Labels that spell no escape are told apart by what they are written as. -/
theorem eq_of_written_eq {label other : List Char} (hlabel : ¬SpellsEscape label)
    (hother : ¬SpellsEscape other) (h : written label = written other) : label = other := by
  induction label generalizing other with
  | nil =>
    cases other with
    | nil => rfl
    | cons d more => cases hd : isLegal d <;> simp [written, escapeLabelChar, hd] at h
  | cons c rest ih =>
    cases other with
    | nil => cases hc : isLegal c <;> simp [written, escapeLabelChar, hc] at h
    | cons d more =>
      have ih := ih (fun hs => hlabel (hs.cons c)) (fun hs => hother (hs.cons d))
      cases hc : isLegal c with
      | true =>
        cases hd : isLegal d with
        | true =>
          rw [written_cons_of_isLegal hc, written_cons_of_isLegal hd] at h
          obtain ⟨rfl, hrest⟩ := List.cons_eq_cons.1 h
          rw [ih hrest]
        | false => exact absurd (spellsEscape_of_written_eq hc hd h) hlabel
      | false =>
        cases hd : isLegal d with
        | true => exact absurd (spellsEscape_of_written_eq hd hc h.symm) hother
        | false =>
          -- two escapes: the code ends at the next hyphen
          rw [written_cons_of_not_isLegal hc, written_cons_of_not_isLegal hd] at h
          obtain ⟨hcode, hrest⟩ := append_cons_inj (hyphen_not_mem_codeDigits c)
            (hyphen_not_mem_codeDigits d) (List.tail_eq_of_cons_eq h)
          rw [codeDigits_injective hcode, ih hrest]

/-- Every text of legal characters is what some label is written as that spells no escape: the one
with a character in place of each escape, read from the left. -/
theorem exists_written_eq (name : List Char) (h : ∀ c ∈ name, isLegal c = true) :
    ∃ label, written label = name ∧ ¬SpellsEscape label := by
  induction hlength : name.length using Nat.strongRecOn generalizing name with
  | ind n ih =>
    cases name with
    | nil => exact ⟨[], rfl, not_spellsEscape_nil⟩
    | cons x tail =>
      obtain ⟨hx, htail⟩ := List.forall_mem_cons.1 h
      by_cases hstart : x = '-' ∧ ∃ c rest, isLegal c = false ∧ tail = codeDigits c ++ '-' :: rest
      · obtain ⟨rfl, c, rest, hc, rfl⟩ := hstart
        have hshorter : rest.length < n := by
          simp at hlength
          omega
        obtain ⟨label, rfl, hplain⟩ :=
          ih rest.length hshorter rest (fun y hy => htail y (by simp [hy])) rfl
        refine ⟨c :: label, written_cons_of_not_isLegal hc label, fun hspells => ?_⟩
        rcases spellsEscape_cons hspells with hrest | ⟨rfl, -⟩
        · exact hplain hrest
        · rw [isLegal_hyphen] at hc
          cases hc
      · have hshorter : tail.length < n := by
          simp at hlength
          omega
        obtain ⟨label, rfl, hplain⟩ := ih tail.length hshorter tail htail rfl
        refine ⟨x :: label, written_cons_of_isLegal hx label, fun hspells => ?_⟩
        rcases spellsEscape_cons hspells with hrest | ⟨rfl, c, stop, rest, hc, hstop, rfl⟩
        · exact hplain hrest
        · -- what is written would start with an escape after all
          refine hstart ⟨rfl, c, ?_⟩
          rw [written_append, written_eq_self fun _ => isLegal_of_mem_codeDigits]
          rcases hstop with rfl | hstop
          · exact ⟨_, hc, by rw [written_cons_of_isLegal isLegal_hyphen]⟩
          · exact ⟨_, hc, by rw [written_cons_of_not_isLegal hstop]⟩

/-! ### Writing characters out -/

/-- One character of a label that is not legal is replaced by its escape. -/
def WritesOut (label other : List Char) : Prop :=
  ∃ front c rest, isLegal c = false ∧ label = front ++ c :: rest ∧
    other = front ++ (escapeLabelChar c ++ rest)

theorem WritesOut.cons {label other : List Char} (h : WritesOut label other) (c : Char) :
    WritesOut (c :: label) (c :: other) := by
  obtain ⟨front, d, rest, hd, rfl, rfl⟩ := h
  exact ⟨c :: front, d, rest, hd, rfl, rfl⟩

theorem WritesOut.written_eq {label other : List Char} (h : WritesOut label other) :
    written label = written other := by
  obtain ⟨front, c, rest, -, rfl, rfl⟩ := h
  -- an escape is legal, so that it is written as it is
  have hescape : written (escapeLabelChar c) = written [c] := by
    have hsame : escapeLabelChar c = written [c] := by simp [written]
    rw [hsame]
    exact written_eq_self fun _ => isLegal_of_mem_written
  have hsplit : front ++ c :: rest = front ++ ([c] ++ rest) := rfl
  rw [hsplit, written_append, written_append, written_append, written_append, hescape]

/-- Written out one by one, the characters of a label lead to what it is written as. -/
theorem reflTransGen_writesOut_written (label : List Char) :
    Relation.ReflTransGen WritesOut label (written label) := by
  induction label with
  | nil => exact .refl
  | cons c rest ih =>
    have hrest : Relation.ReflTransGen WritesOut (c :: rest) (c :: written rest) :=
      ih.lift (c :: ·) fun _ _ h => h.cons c
    cases hc : isLegal c with
    | true =>
      rw [written_cons_of_isLegal hc]
      exact hrest
    | false => exact hrest.tail ⟨[], c, written rest, hc, rfl, rfl⟩

theorem written_eq_of_reflTransGen {label other : List Char}
    (h : Relation.ReflTransGen WritesOut label other) : written label = written other := by
  induction h with
  | refl => rfl
  | tail _ hstep ih => rw [ih, hstep.written_eq]

/-- Labels are written alike if characters of both can be written out so that they become the
same. -/
theorem written_eq_iff_join {label other : List Char} :
    written label = written other ↔
      Relation.Join (Relation.ReflTransGen WritesOut) label other := by
  constructor
  · intro h
    refine ⟨written label, reflTransGen_writesOut_written label, ?_⟩
    rw [h]
    exact reflTransGen_writesOut_written other
  · rintro ⟨common, hlabel, hother⟩
    rw [written_eq_of_reflTransGen hlabel, written_eq_of_reflTransGen hother]

/-! ### Names of labels -/

/-- **When two labels have one name.** They are the same, or one of them spells an escape and they
become the same when characters are written out. Every name belongs to exactly one label that spells
no escape. -/
theorem sanitize_eq_iff (s t : String) :
    (sanitize s = sanitize t ↔ s = t ∨ ((SpellsEscape s.toList ∨ SpellsEscape t.toList) ∧
      Relation.Join (Relation.ReflTransGen WritesOut) s.toList t.toList)) ∧
    ∃! plain : String, ¬SpellsEscape plain.toList ∧ sanitize plain = sanitize s := by
  constructor
  · rw [sanitize_eq_iff_written, ← written_eq_iff_join]
    constructor
    · intro h
      by_cases hspells : SpellsEscape s.toList ∨ SpellsEscape t.toList
      · exact Or.inr ⟨hspells, h⟩
      · rw [not_or] at hspells
        exact Or.inl (String.toList_inj.1 (eq_of_written_eq hspells.1 hspells.2 h))
    · rintro (rfl | ⟨-, h⟩)
      · rfl
      · exact h
  · obtain ⟨label, hwritten, hplain⟩ :=
      exists_written_eq (written s.toList) fun _ => isLegal_of_mem_written
    refine ⟨String.ofList label, ⟨?_, ?_⟩, ?_⟩
    · rwa [String.toList_ofList]
    · rw [sanitize_eq_iff_written, String.toList_ofList, hwritten]
    · rintro other ⟨hother, hname⟩
      rw [sanitize_eq_iff_written, ← hwritten] at hname
      rw [← String.toList_inj, String.toList_ofList, eq_of_written_eq hother hplain hname]

/-- A blank has the name of the label that spells its escape. -/
theorem sanitize_blank : " " ≠ "-0020-" ∧ sanitize " " = sanitize "-0020-" := by decide

end HclExport
