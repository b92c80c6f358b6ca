import HclExport.Hcl.Value
import HclExport.Resource.Address
import HclExport.Resource.Name
import Mathlib.Data.Bool.AllAny
import Mathlib.Data.Nat.Digits.Lemmas

/-!
# Words

Numbers, names and addresses are written without a blank, a quote or a bracket: with letters,
digits and a few signs.

## Main definitions

* `isWordChar`, `IsWord` — the characters of words, and texts made of them.
* `IsLegalText` — texts made of the characters that a name may hold.
* `numberChars` — the characters of numbers.

## Main results

* `mem_numberChars_numberText`, `isWord_numberText` — what numbers are written with; they are words.
* `isLegalText_escapeLabel` — labels are escaped to legal characters.
* `isWord_attributeAddress` — so are addresses.
-/

namespace HclExport

/-- The characters of words. -/
def isWordChar (c : Char) : Bool :=
  c.isAlphanum || c == '_' || c == '-' || c == '+' || c == '.'

/-- A text made of letters, digits and a few signs. -/
def IsWord (s : String) : Prop :=
  ∀ c ∈ s.toList, isWordChar c = true

instance (s : String) : Decidable (IsWord s) :=
  decidable_of_iff (s.toList.all isWordChar = true) List.all_eq_true

theorem isWord_ofList {cs : List Char} :
    IsWord (String.ofList cs) ↔ ∀ c ∈ cs, isWordChar c = true := by
  rw [IsWord, String.toList_ofList]

theorem IsWord.append {s t : String} (hs : IsWord s) (ht : IsWord t) : IsWord (s ++ t) := by
  intro c hc
  rw [String.toList_append, List.mem_append] at hc
  exact hc.elim (hs c) (ht c)

/-! ### Legal texts -/

/-- A text made of characters that a name may hold. -/
def IsLegalText (s : String) : Prop :=
  ∀ c ∈ s.toList, isLegal c = true

instance (s : String) : Decidable (IsLegalText s) :=
  decidable_of_iff (s.toList.all isLegal = true) List.all_eq_true

theorem isWordChar_of_isLegal {c : Char} (h : isLegal c = true) : isWordChar c = true := by
  simp only [isLegal, Bool.or_eq_true] at h
  simp only [isWordChar, Bool.or_eq_true]
  exact Or.inl (Or.inl h)

theorem IsLegalText.isWord {s : String} (h : IsLegalText s) : IsWord s :=
  fun c hc => isWordChar_of_isLegal (h c hc)

theorem IsLegalText.append {s t : String} (hs : IsLegalText s) (ht : IsLegalText t) :
    IsLegalText (s ++ t) := by
  intro c hc
  rw [String.toList_append, List.mem_append] at hc
  exact hc.elim (hs c) (ht c)

theorem IsLegalText.intercalate {separator : String} {parts : List String}
    (hseparator : IsLegalText separator) (h : ∀ part ∈ parts, IsLegalText part) :
    IsLegalText (separator.intercalate parts) := by
  induction parts with
  | nil =>
    rw [String.intercalate_nil]
    decide
  | cons first rest ih =>
    obtain ⟨hfirst, hrest⟩ := List.forall_mem_cons.1 h
    cases rest with
    | nil =>
      rw [String.intercalate_singleton]
      exact hfirst
    | cons second rest =>
      rw [String.intercalate_cons_cons]
      exact (hfirst.append hseparator).append (ih hrest)

/-! ### Digits -/

/-- Every digit of a number is that of a number below the base. -/
theorem exists_digitChar_of_mem_toDigits {base n : Nat} (hbase : 1 < base) {c : Char}
    (h : c ∈ Nat.toDigits base n) : ∃ d < base, c = Nat.digitChar d := by
  induction n using Nat.strongRecOn with
  | ind n ih =>
    by_cases hn : n < base
    · rw [Nat.toDigits_of_lt_base hn] at h
      exact ⟨n, hn, List.mem_singleton.1 h⟩
    · rw [Nat.toDigits_of_base_le hbase (by omega)] at h
      rcases List.mem_append.1 h with h | h
      · exact ih (n / base) (Nat.div_lt_self (by omega) hbase) h
      · exact ⟨n % base, Nat.mod_lt n (by omega), List.mem_singleton.1 h⟩

theorem exists_digitChar_of_mem_hexDigits {width n : Nat} {c : Char} (h : c ∈ hexDigits width n) :
    ∃ d < 16, c = Nat.digitChar d := by
  rcases List.mem_append.1 h with h | h
  · exact ⟨0, by omega, (List.mem_replicate.1 h).2⟩
  · exact exists_digitChar_of_mem_toDigits (by omega) h

/-- A digit in base sixteen is legal in names, and so is its capital form. -/
theorem isLegal_digitChar {d : Nat} (h : d < 16) :
    isLegal (Nat.digitChar d) = true ∧ isLegal (Nat.digitChar d).toUpper = true := by
  interval_cases d <;> decide

theorem isLegal_of_mem_toDigits {n : Nat} {c : Char} (h : c ∈ Nat.toDigits 10 n) :
    isLegal c = true := by
  obtain ⟨d, hd, rfl⟩ := exists_digitChar_of_mem_toDigits (by omega) h
  exact (isLegal_digitChar (by omega)).1

theorem isLegal_of_mem_capitalHexDigits {width n : Nat} {c : Char}
    (h : c ∈ capitalHexDigits width n) : isLegal c = true := by
  obtain ⟨digit, hdigit, rfl⟩ := List.mem_map.1 h
  obtain ⟨d, hd, rfl⟩ := exists_digitChar_of_mem_hexDigits hdigit
  exact (isLegal_digitChar hd).2

theorem isLegalText_toString_nat (n : Nat) : IsLegalText (toString n) := by
  intro c hc
  have hdigits : c ∈ Nat.toDigits 10 n := by
    rwa [← Nat.toList_repr]
  exact isLegal_of_mem_toDigits hdigits

theorem isWordChar_of_mem_hexDigits {width n : Nat} {c : Char} (h : c ∈ hexDigits width n) :
    isWordChar c = true := by
  obtain ⟨d, hd, rfl⟩ := exists_digitChar_of_mem_hexDigits h
  exact isWordChar_of_isLegal (isLegal_digitChar hd).1

/-! ### Numbers -/

/-- The characters of numbers: digits, signs and points, the letter before an exponent, and the
letters of `inf` and `nan`. -/
def numberChars : List Char :=
  ['0', '1', '2', '3', '4', '5', '6', '7', '8', '9', '+', '-', '.', 'e', 'i', 'n', 'f', 'a']

theorem isWordChar_of_mem_numberChars : ∀ c ∈ numberChars, isWordChar c = true :=
  List.all_eq_true.1 (by decide)

theorem mem_numberChars_of_mem_toDigits {n : Nat} {c : Char} (h : c ∈ Nat.toDigits 10 n) :
    c ∈ numberChars := by
  have hdigit : ∀ d < 10, Nat.digitChar d ∈ numberChars := by decide
  obtain ⟨d, hd, rfl⟩ := exists_digitChar_of_mem_toDigits (by omega) h
  exact hdigit d hd

theorem mem_numberChars_toString_nat (n : Nat) : ∀ c ∈ (toString n).toList, c ∈ numberChars := by
  intro c hc
  have hdigits : c ∈ Nat.toDigits 10 n := by
    rwa [← Nat.toList_repr]
  exact mem_numberChars_of_mem_toDigits hdigits

theorem mem_numberChars_toString_int (i : Int) : ∀ c ∈ (toString i).toList, c ∈ numberChars := by
  cases i with
  | ofNat n => exact mem_numberChars_toString_nat n
  | negSucc n =>
    have htext : (toString (Int.negSucc n)).toList = '-' :: (toString (n + 1)).toList := by
      show ("-" ++ toString (n + 1)).toList = _
      rw [String.toList_append]
      rfl
    rw [htext]
    exact List.forall_mem_cons.2 ⟨by decide, mem_numberChars_toString_nat (n + 1)⟩

theorem isWord_toString_int (i : Int) : IsWord (toString i) :=
  fun c hc => isWordChar_of_mem_numberChars c (mem_numberChars_toString_int i c hc)

theorem mem_numberChars_decimal (significand : Nat) (exponent : Int) :
    ∀ c ∈ (Shortest.decimal significand exponent).1, c ∈ numberChars := by
  intro c hc
  unfold Shortest.decimal at hc
  have hmem := (List.dropWhile_suffix _).subset (List.mem_reverse.1 hc)
  exact mem_numberChars_of_mem_toDigits (List.mem_reverse.1 hmem)

namespace RealLayout

theorem mem_numberChars_zeros (n : Nat) : ∀ c ∈ List.replicate n '0', c ∈ numberChars := by
  intro c hc
  rw [(List.mem_replicate.1 hc).2]
  decide

variable {digits : List Char} (hdigits : ∀ c ∈ digits, c ∈ numberChars)

include hdigits

theorem mem_numberChars_take (n : Nat) : ∀ c ∈ digits.take n, c ∈ numberChars :=
  fun c hc => hdigits c (List.mem_of_mem_take hc)

theorem mem_numberChars_drop (n : Nat) : ∀ c ∈ digits.drop n, c ∈ numberChars :=
  fun c hc => hdigits c (List.mem_of_mem_drop hc)

theorem mem_numberChars_positional (point : Int) :
    ∀ c ∈ positional digits point, c ∈ numberChars := by
  unfold positional
  dsimp only
  split
  · simp only [List.forall_mem_append, List.forall_mem_cons]
    exact ⟨⟨by decide, by decide, mem_numberChars_zeros _⟩, hdigits⟩
  split
  · simp only [List.forall_mem_append, List.forall_mem_cons]
    exact ⟨⟨hdigits, mem_numberChars_zeros _⟩, by decide, by decide, by simp⟩
  · simp only [List.forall_mem_append, List.forall_mem_cons]
    exact ⟨mem_numberChars_take hdigits _, by decide, mem_numberChars_drop hdigits _⟩

theorem mem_numberChars_fraction :
    ∀ c ∈ (match digits.drop 1 with
      | [] => []
      | more => '.' :: more : List Char), c ∈ numberChars := by
  split
  · simp
  · exact List.forall_mem_cons.2 ⟨by decide, mem_numberChars_drop hdigits 1⟩

theorem mem_numberChars_scientific (layout : RealLayout) (exponent : Int) :
    ∀ c ∈ layout.scientific digits exponent, c ∈ numberChars := by
  have hsign : (if exponent < 0 then '-' else '+') ∈ numberChars := by
    split <;> decide
  unfold scientific
  refine List.forall_mem_append.2 ⟨List.forall_mem_append.2
    ⟨List.forall_mem_append.2 ⟨mem_numberChars_take hdigits 1,
    mem_numberChars_fraction hdigits⟩, ?_⟩,
    fun c hc => mem_numberChars_of_mem_toDigits hc⟩
  exact List.forall_mem_cons.2 ⟨by decide, List.forall_mem_cons.2
    ⟨hsign, mem_numberChars_zeros _⟩⟩

/-- Digits stay what they are in any layout; only zeros and signs are added. -/
theorem mem_numberChars_write (layout : RealLayout) (point : Int) :
    ∀ c ∈ layout.write digits point, c ∈ numberChars := by
  unfold write
  dsimp only
  split
  · exact mem_numberChars_positional hdigits point
  · exact mem_numberChars_scientific hdigits layout _

end RealLayout

theorem Binary64.mem_numberChars_text (x : Binary64) : ∀ c ∈ x.text.toList, c ∈ numberChars := by
  unfold text
  split
  · exact List.all_iff_forall_prop.1 (by decide)
  · split <;> exact List.all_iff_forall_prop.1 (by decide)
  · split <;> exact List.all_iff_forall_prop.1 (by decide)
  · rw [String.toList_ofList]
    refine List.forall_mem_append.2 ⟨?_, ?_⟩
    · split
      · exact List.forall_mem_singleton.2 (by decide)
      · simp
    · exact RealLayout.mem_numberChars_write (mem_numberChars_decimal _ _) _ _

theorem Hcl.mem_numberChars_numberText (n : Number) :
    ∀ c ∈ (Hcl.numberText n).toList, c ∈ numberChars := by
  unfold numberText
  split
  · exact mem_numberChars_toString_int _
  next x =>
    split
    · cases x.cut with
      | none => exact x.mem_numberChars_text
      | some i => exact mem_numberChars_toString_int i
    · exact x.mem_numberChars_text

theorem Number.isWord_text (n : Number) : IsWord n.text := by
  intro c hc
  refine isWordChar_of_mem_numberChars c ?_
  cases n with
  | int i => exact mem_numberChars_toString_int i c hc
  | real x => exact x.mem_numberChars_text c hc

theorem Number.isWord_jsonText (n : Number) : IsWord n.jsonText := by
  unfold jsonText
  split
  · decide
  · split <;> decide
  · exact Number.isWord_text _

theorem Hcl.isWord_numberText (n : Number) : IsWord (Hcl.numberText n) :=
  fun c hc => isWordChar_of_mem_numberChars c (mem_numberChars_numberText n c hc)

theorem Hcl.isWord_boolText (b : Bool) : IsWord (Hcl.boolText b) := by
  cases b <;> decide

/-! ### Names -/

theorem isLegalText_escapeLabel (label : String) : IsLegalText (escapeLabel label) := by
  intro c hc
  rw [escapeLabel, String.toList_ofList] at hc
  obtain ⟨original, -, hc⟩ := List.mem_flatMap.1 hc
  unfold escapeLabelChar at hc
  split at hc
  next hlegal =>
    rw [List.mem_singleton.1 hc]
    exact hlegal
  next =>
    rw [List.mem_append, List.mem_cons, List.mem_singleton] at hc
    rcases hc with (rfl | hc) | rfl
    · decide
    · exact isLegal_of_mem_capitalHexDigits hc
    · decide

theorem isWord_stripHead {name : String} (h : IsWord name) : IsWord (stripHead name) := by
  unfold stripHead
  dsimp only
  split
  · exact isWord_ofList.2 fun c hc => h c (List.mem_of_mem_drop hc)
  · exact h

/-! ### Addresses -/

theorem Kind.isWord_type (kind : Kind) : IsWord kind.type := by
  cases kind <;> decide

theorem isWord_attributeAddress {type name key : String} (htype : IsWord type) (hname : IsWord name)
    (hkey : IsWord key) : IsWord (attributeAddress type name key) :=
  (((htype.append (by decide)).append hname).append (by decide)).append hkey

end HclExport
