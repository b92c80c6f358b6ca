import HclExport.Hcl.Quoted
import HclExport.Json.Reader
import HclExport.Proofs.Hcl.Lexical

/-!
# Quoted literals are read back

Two layers of escapes are put on a text, those of JSON and the doubled signs before braces. A reader
that goes through the body from the left and undoes whichever it meets has the text again, however
the signs of the text run into each other.

## Main definitions

* `isControl` — control characters.
* `isClosed` — texts that can stand between quotes.
* `jsonEscape?`, `firstSign`, `decode` — the text that a body stands for.

## Main results

* `decode_escape` — **the body of a literal is read back.**
* `getLast?_of_escape_eq` — no template opens in a body.
* `closed_append_inj` — where a literal ends does not depend on what follows.
* `quote_roundTrip` — what is true of every literal.
-/

namespace HclExport
namespace Hcl

/-! ### Bodies -/

/-- Control characters: those below the space, the delete character and the thirty-two behind it. -/
def isControl (c : Char) : Bool :=
  c.toNat < 32 || (127 ≤ c.toNat && c.toNat < 160)

/-- Whether a text can stand between quotes: a quote in it is escaped, and no backslash is left at
its end for the quote that follows. -/
def isClosed : List Char → Bool
  | [] => true
  | ['\\'] => false
  | '\\' :: _ :: rest => isClosed rest
  | c :: rest => c != '"' && isClosed rest

/-- The code unit that four digits in base sixteen stand for. -/
def codeUnit? : List Char → Option Nat
  | a :: b :: c :: d :: _ => do
    return (((← JsonReader.hexValue a) * 16 + (← JsonReader.hexValue b)) * 16 +
      (← JsonReader.hexValue c)) * 16 + (← JsonReader.hexValue d)
  | _ => none

/-- The character that code units stand for, and how long their escapes are behind the first `u`.
Two halves of a pair are joined; half a pair stands for no character. -/
def codeEscape? (cs : List Char) : Option (Char × Nat) := do
  let high ← codeUnit? cs
  if high < 0xD800 || 0xDFFF < high then return (Char.ofNat high, 4)
  else match cs.drop 4 with
    | '\\' :: 'u' :: more =>
      let low ← codeUnit? more
      if high < 0xDC00 && 0xDC00 ≤ low && low ≤ 0xDFFF then
        return (Char.ofNat (0x10000 + (high - 0xD800) * 0x400 + (low - 0xDC00)), 10)
      else none
    | _ => none

/-- The character that an escape of JSON stands for, and how long it is behind the backslash. -/
def jsonEscape? : List Char → Option (Char × Nat)
  | [] => none
  | e :: rest =>
    if e = 'u' then (codeEscape? rest).map fun found => (found.1, found.2 + 1)
    else (JsonReader.simpleEscape e).map fun c => (c, 1)

/-- The signs that open templates before a brace. -/
def openers : List Char :=
  ['$', '%']

/-- What a character of a body stands for together with some of those behind it, and how many these
are: a doubled sign before a brace, an escape of JSON, and anything else for itself. -/
def firstSign (c : Char) (rest : List Char) : List Char × Nat :=
  if c ∈ openers ∧ [c, '\x7b'] <+: rest then ([c, '\x7b'], 2)
  else if c = '\\' then
    match jsonEscape? rest with
    | some (char, length) => ([char], length)
    | none => ([c], 0)
  else ([c], 0)

/-- The text that a body stands for, from where some characters are passed over. -/
def decodeFrom : Nat → List Char → List Char
  | _, [] => []
  | 0, c :: rest => (firstSign c rest).1 ++ decodeFrom (firstSign c rest).2 rest
  | skipped + 1, _ :: rest => decodeFrom skipped rest

/-- The text that the body of a literal stands for, read from the left. -/
def decode (body : List Char) : List Char :=
  decodeFrom 0 body

theorem decodeFrom_eq_decode (skipped : Nat) (body : List Char) :
    decodeFrom skipped body = decode (body.drop skipped) := by
  induction skipped generalizing body with
  | zero => rfl
  | succ skipped ih =>
    cases body with
    | nil => rfl
    | cons c rest => exact ih rest

@[simp] theorem decode_nil : decode [] = [] := rfl

theorem decode_cons (c : Char) (rest : List Char) :
    decode (c :: rest) = (firstSign c rest).1 ++ decode (rest.drop (firstSign c rest).2) := by
  rw [← decodeFrom_eq_decode]
  rfl

/-! ### One character -/

/-- The letters and signs of the escapes that have no digits. -/
def escapeLetters : List Char :=
  ['"', '\\', 'b', 'f', 'n', 'r', 't']

/-- A character is written as itself, with a letter behind a backslash, or with its code. -/
theorem escapeChar_cases (c : Char) :
    (escapeChar c = [c] ∧ 32 ≤ c.toNat ∧ c ≠ '"' ∧ c ≠ '\\') ∨
    (∃ e ∈ escapeLetters, escapeChar c = ['\\', e] ∧ JsonReader.simpleEscape e = some c) ∨
    (escapeChar c = '\\' :: 'u' :: hexDigits 4 c.toNat ∧ c.toNat < 32) := by
  unfold escapeChar
  split
  next hsign =>
    simp only [Bool.or_eq_true, decide_eq_true_eq] at hsign
    refine Or.inr (Or.inl ⟨c, ?_, rfl, ?_⟩)
    all_goals rcases hsign with rfl | rfl <;> decide
  next hsign =>
    simp only [Bool.or_eq_true, decide_eq_true_eq, not_or] at hsign
    split
    next hspace => exact Or.inl ⟨rfl, hspace, hsign⟩
    next hspace =>
      refine Or.inr ?_
      have hcode {n : Nat} (hn : n < 32) (h : c.toNat = n) : c = Char.ofNat n := by
        rw [← h, Char.ofNat_toNat]
      split
      next h => exact Or.inl ⟨'n', by decide, rfl, by rw [h]; decide⟩
      split
      next h => exact Or.inl ⟨'r', by decide, rfl, by rw [h]; decide⟩
      split
      next h => exact Or.inl ⟨'t', by decide, rfl, by rw [h]; decide⟩
      split
      next h => exact Or.inl ⟨'b', by decide, rfl, by rw [hcode (by omega) h]; decide⟩
      split
      next h => exact Or.inl ⟨'f', by decide, rfl, by rw [hcode (by omega) h]; decide⟩
      exact Or.inr ⟨rfl, by omega⟩

theorem toNat_of_isWordChar {c : Char} (h : isWordChar c = true) :
    32 ≤ c.toNat ∧ c.toNat < 127 := by
  -- the ranges of letters and digits
  have hranges : ((((((decide (65 ≤ c.val ∧ c.val ≤ 90) || (97 ≤ c.val && c.val ≤ 122)) ||
    (48 ≤ c.val && c.val ≤ 57)) || c == '_') || c == '-') || c == '+') || c == '.') = true := h
  simp only [Bool.or_eq_true, Bool.and_eq_true, decide_eq_true_eq, beq_iff_eq,
    UInt32.le_iff_toNat_le] at hranges
  change ((((((65 ≤ c.toNat ∧ c.toNat ≤ 90) ∨ (97 ≤ c.toNat ∧ c.toNat ≤ 122)) ∨
    (48 ≤ c.toNat ∧ c.toNat ≤ 57)) ∨ c = '_') ∨ c = '-') ∨ c = '+') ∨ c = '.' at hranges
  rcases hranges with (((((h | h) | h) | rfl) | rfl) | rfl) | rfl
  · omega
  · omega
  · omega
  all_goals decide

/-- What stands in the place of a character is the character or a visible sign. -/
theorem mem_escapeChar {c x : Char} (h : x ∈ escapeChar c) :
    (x = c ∧ 32 ≤ c.toNat) ∨ (32 ≤ x.toNat ∧ x.toNat < 127) := by
  rcases escapeChar_cases c with ⟨hc, hspace, -⟩ | ⟨e, he, hc, -⟩ | ⟨hc, -⟩
  · rw [hc] at h
    exact Or.inl ⟨List.mem_singleton.1 h, hspace⟩
  · have hvisible : ∀ e ∈ escapeLetters, 32 ≤ e.toNat ∧ e.toNat < 127 :=
      List.all_iff_forall_prop.1 (by decide)
    rw [hc] at h
    refine Or.inr ?_
    rcases List.mem_cons.1 h with rfl | h
    · decide
    · rw [List.mem_singleton.1 h]
      exact hvisible e he
  · rw [hc] at h
    refine Or.inr ?_
    rcases List.mem_cons.1 h with rfl | h
    · decide
    rcases List.mem_cons.1 h with rfl | h
    · decide
    · exact toNat_of_isWordChar (isWordChar_of_mem_hexDigits h)

/-- The signs of templates. -/
def templateSigns : List Char :=
  '\x7b' :: openers

/-- A sign of templates stands in the place of itself alone. -/
theorem escapeChar_of_mem {c x : Char} (hx : x ∈ templateSigns) (h : x ∈ escapeChar c) :
    c = x ∧ escapeChar c = [x] := by
  rcases escapeChar_cases c with ⟨hc, -⟩ | ⟨e, he, hc, -⟩ | ⟨hc, -⟩
  · rw [hc] at h ⊢
    obtain rfl := List.mem_singleton.1 h
    exact ⟨rfl, rfl⟩
  · have hnone : ∀ e ∈ escapeLetters, e ∉ templateSigns := List.all_iff_forall_prop.1 (by decide)
    rw [hc] at h
    rcases List.mem_cons.1 h with rfl | h
    · exact absurd hx (by decide)
    · rw [List.mem_singleton.1 h] at hx
      exact absurd hx (hnone e he)
  · have hnone : ∀ x ∈ templateSigns, x ≠ '\\' ∧ x ≠ 'u' ∧ isWordChar x = false :=
      List.all_iff_forall_prop.1 (by decide)
    obtain ⟨hbackslash, hletter, hword⟩ := hnone x hx
    rw [hc] at h
    have hdigit := List.mem_of_ne_of_mem hletter (List.mem_of_ne_of_mem hbackslash h)
    rw [isWordChar_of_mem_hexDigits hdigit] at hword
    cases hword

/-! ### The ends of literals -/

@[simp] theorem isClosed_escaped (c : Char) (rest : List Char) :
    isClosed ('\\' :: c :: rest) = isClosed rest := rfl

theorem isClosed_cons {c : Char} (h : c ≠ '\\') (rest : List Char) :
    isClosed (c :: rest) = (c != '"' && isClosed rest) := by
  conv_lhs => unfold isClosed
  split <;> simp_all

theorem isClosed_word_append {word : List Char} (h : ∀ c ∈ word, isWordChar c = true)
    (rest : List Char) : isClosed (word ++ rest) = isClosed rest := by
  induction word with
  | nil => rfl
  | cons c word ih =>
    obtain ⟨hc, hword⟩ := List.forall_mem_cons.1 h
    have hplain := isPlain_of_isWordChar hc
    simp only [isPlain, Bool.and_eq_true, bne_iff_ne] at hplain
    rw [List.cons_append, isClosed_cons hplain.1.2, ih hword]
    simp [hplain.1.1]

theorem isClosed_escapeChar_append (c : Char) (rest : List Char) :
    isClosed (escapeChar c ++ rest) = isClosed rest := by
  rcases escapeChar_cases c with ⟨hc, -, hquote, hbackslash⟩ | ⟨e, -, hc, -⟩ | ⟨hc, -⟩
  · rw [hc, List.singleton_append, isClosed_cons hbackslash]
    simp [hquote]
  · rw [hc]
    rfl
  · rw [hc]
    exact isClosed_word_append (fun c hc => isWordChar_of_mem_hexDigits hc) rest

theorem opensTemplate_iff {c : Char} {rest : List Char} :
    opensTemplate c rest = true ↔ c ∈ openers ∧ rest.head? = some '\x7b' := by
  simp [opensTemplate, openers]

/-- The body of a literal can stand between quotes. -/
theorem isClosed_escape (cs : List Char) : isClosed (escape cs) = true := by
  induction cs with
  | nil => rfl
  | cons c rest ih =>
    rw [escape_cons]
    split
    next hopens =>
      have hplain : ∀ sign ∈ openers, isClosed ([sign, sign] ++ escape rest) = true := by
        simp [openers, isClosed, ih]
      exact hplain c (opensTemplate_iff.1 hopens).1
    next => rw [isClosed_escapeChar_append, ih]

/-- Where a literal ends does not depend on what follows. -/
theorem closed_append_inj {body other rest more : List Char} (hbody : isClosed body = true)
    (hother : isClosed other = true) (h : body ++ '"' :: rest = other ++ '"' :: more) :
    body = other ∧ rest = more := by
  induction body using isClosed.induct generalizing other with
  | case1 =>
    cases other with
    | nil => exact ⟨rfl, (List.cons.inj h).2⟩
    | cons c other =>
      obtain ⟨rfl, -⟩ := List.cons.inj h
      rw [isClosed_cons (by decide)] at hother
      cases hother
  | case2 => cases hbody
  | case3 c body ih =>
    obtain _ | ⟨d, _ | ⟨e, other⟩⟩ := other
    · cases (List.cons.inj h).1
    · simp only [List.cons_append, List.cons.injEq] at h
      rw [← h.1] at hother
      cases hother
    · simp only [List.cons_append, List.cons.injEq] at h
      obtain ⟨rfl, rfl, h⟩ := h
      rw [isClosed_escaped] at hbody hother
      obtain ⟨rfl, rfl⟩ := ih hbody hother h
      exact ⟨rfl, rfl⟩
  | case4 c body hlast hpair ih =>
    have hbackslash : c ≠ '\\' := by
      rintro rfl
      cases body with
      | nil => exact hlast rfl rfl
      | cons d body => exact hpair d body rfl rfl
    simp only [isClosed_cons hbackslash, Bool.and_eq_true, bne_iff_ne] at hbody
    cases other with
    | nil => exact absurd (List.cons.inj h).1 hbody.1
    | cons d other =>
      simp only [List.cons_append, List.cons.injEq] at h
      obtain ⟨rfl, h⟩ := h
      simp only [isClosed_cons hbackslash, Bool.and_eq_true] at hother
      obtain ⟨rfl, rfl⟩ := ih hbody.2 hother.2 h
      exact ⟨rfl, rfl⟩

/-! ### Templates -/

/-- A body that starts with a sign of templates is that of a text that starts with the sign, and
the sign is doubled exactly if it would open a template. -/
theorem escape_eq_cons {cs tail : List Char} {x : Char} (hx : x ∈ templateSigns)
    (h : escape cs = x :: tail) :
    ∃ rest, cs = x :: rest ∧
      tail = (if opensTemplate x rest then [x] else []) ++ escape rest := by
  cases cs with
  | nil => cases h
  | cons c rest =>
    rw [escape_cons] at h
    by_cases hopens : opensTemplate c rest = true
    · rw [if_pos hopens] at h
      obtain ⟨rfl, rfl⟩ := List.cons.inj h
      exact ⟨rest, rfl, by rw [if_pos hopens]; rfl⟩
    · rw [if_neg hopens] at h
      have hmem : x ∈ escapeChar c := by
        rcases escapeChar_cases c with ⟨hc, -⟩ | ⟨e, -, hc, -⟩ | ⟨hc, -⟩
        all_goals
          rw [hc] at h ⊢
          rw [(List.cons.inj h).1]
          exact List.mem_cons_self
      obtain ⟨rfl, hc⟩ := escapeChar_of_mem hx hmem
      rw [hc] at h
      exact ⟨rest, rfl, by rw [if_neg hopens]; exact (List.cons.inj h).2.symm⟩

/-- No body starts with a sign that opens a template. -/
theorem escape_ne_opener {sign : Char} (hsign : sign ∈ openers) (cs tail : List Char) :
    escape cs ≠ sign :: '\x7b' :: tail := by
  intro h
  obtain ⟨rest, rfl, htail⟩ := escape_eq_cons (List.mem_cons_of_mem _ hsign) h
  split at htail
  next =>
    have hne : '\x7b' ∉ openers := by decide
    exact hne ((List.cons.inj htail).1 ▸ hsign)
  next hopens =>
    -- the brace is one of the text, so that the sign would have been doubled
    obtain ⟨more, rfl, -⟩ := escape_eq_cons List.mem_cons_self htail.symm
    exact hopens (opensTemplate_iff.2 ⟨hsign, rfl⟩)

/-- Every sign before a brace has its double before it, so that no template opens in a body. -/
theorem getLast?_of_escape_eq {sign : Char} (hsign : sign ∈ openers) {cs : List Char}
    {before after : List Char} (h : escape cs = before ++ sign :: '\x7b' :: after) :
    before.getLast? = some sign := by
  have hbrace : sign ≠ '\x7b' := by
    rintro rfl
    exact absurd hsign (by decide)
  induction cs generalizing before with
  | nil => simp at h
  | cons c rest ih =>
    rw [escape_cons] at h
    rcases List.append_eq_append_iff.1 h with ⟨middle, hbefore, hrest⟩ | ⟨middle, hblock, htail⟩
    · -- the sign stands behind what is written for the first character
      rw [hbefore, List.getLast?_append, ih hrest, Option.some_or]
    · obtain _ | ⟨x, middle⟩ := middle
      · exact absurd htail.symm (escape_ne_opener hsign rest after)
      simp only [List.cons_append, List.cons.injEq] at htail
      obtain ⟨rfl, htail⟩ := htail
      split at hblock
      next =>
        -- of the two signs only the second can have the brace behind it
        obtain _ | ⟨y, _ | ⟨z, before⟩⟩ := before
        · simp only [List.nil_append, List.cons.injEq] at hblock
          rw [← hblock.2] at htail
          exact absurd (hblock.1.symm.trans (List.cons.inj htail).1.symm) hbrace
        · simp only [List.cons_append, List.nil_append, List.cons.injEq] at hblock
          rw [← hblock.1, hblock.2.1]
          rfl
        · simp at hblock
      next hopens =>
        have hmem : sign ∈ escapeChar c := by simp [hblock]
        obtain ⟨rfl, hc⟩ := escapeChar_of_mem (List.mem_cons_of_mem _ hsign) hmem
        rw [hc] at hblock
        have hmiddle : middle = [] := by
          have hlength := congrArg List.length hblock
          simp only [List.length_append, List.length_cons, List.length_nil] at hlength
          exact List.eq_nil_of_length_eq_zero (by omega)
        -- the brace would be one of the text
        rw [hmiddle, List.nil_append] at htail
        obtain ⟨more, rfl, -⟩ := escape_eq_cons List.mem_cons_self htail.symm
        exact absurd (opensTemplate_iff.2 ⟨hsign, rfl⟩) hopens

/-! ### Reading a body -/

theorem hexValue_digitChar {d : Nat} (h : d < 16) :
    JsonReader.hexValue (Nat.digitChar d) = some d := by
  revert d
  decide

theorem hexDigits_of_lt {n : Nat} (h : n < 32) :
    hexDigits 4 n = ['0', '0', Nat.digitChar (n / 16), Nat.digitChar (n % 16)] := by
  revert n
  decide

/-- What the escape of a character stands for. -/
theorem jsonEscape?_of_escapeChar {c : Char} {behind : List Char}
    (h : escapeChar c = '\\' :: behind) (rest : List Char) :
    jsonEscape? (behind ++ rest) = some (c, behind.length) := by
  rcases escapeChar_cases c with ⟨hc, -, -, hbackslash⟩ | ⟨e, he, hc, hletter⟩ | ⟨hc, hcode⟩
  · rw [hc] at h
    exact absurd (List.cons.inj h).1 hbackslash
  · have hne : ∀ e ∈ escapeLetters, e ≠ 'u' := List.all_iff_forall_prop.1 (by decide)
    rw [hc] at h
    obtain ⟨-, rfl⟩ := List.cons.inj h
    rw [List.singleton_append, jsonEscape?, if_neg (hne e he), hletter]
    rfl
  · rw [hc] at h
    obtain ⟨-, rfl⟩ := List.cons.inj h
    have hzero : JsonReader.hexValue '0' = some 0 := rfl
    have hunit : codeUnit? (hexDigits 4 c.toNat ++ rest) = some c.toNat := by
      have hhigh := hexValue_digitChar (show c.toNat / 16 < 16 by omega)
      have hlow := hexValue_digitChar (Nat.mod_lt c.toNat (show 0 < 16 by omega))
      rw [hexDigits_of_lt hcode]
      simp only [List.cons_append, codeUnit?, hzero, hhigh, hlow, bind, pure, Option.bind_some]
      congr 1
      omega
    have hcase : (decide (c.toNat < 0xD800) || decide (0xDFFF < c.toNat)) = true := by
      simp only [Bool.or_eq_true, decide_eq_true_eq]
      omega
    rw [List.cons_append, jsonEscape?, if_pos rfl, codeEscape?, hunit, Option.bind_eq_bind,
      Option.bind_some, if_pos hcase, Char.ofNat_toNat, hexDigits_of_lt hcode]
    rfl

theorem decode_of_plain {c : Char} {rest : List Char} (hbackslash : c ≠ '\\')
    (h : c ∈ openers → ¬[c, '\x7b'] <+: rest) : decode (c :: rest) = c :: decode rest := by
  have hsign : firstSign c rest = ([c], 0) := by
    rw [firstSign, if_neg, if_neg hbackslash]
    rintro ⟨hopener, hbrace⟩
    exact h hopener hbrace
  rw [decode_cons, hsign]
  rfl

/-- What is written for a character stands for it, unless it runs into its double behind it. -/
theorem decode_escapeChar_append {c : Char} {rest : List Char}
    (h : c ∈ openers → ¬[c, '\x7b'] <+: rest) :
    decode (escapeChar c ++ rest) = c :: decode rest := by
  have hescaped {behind : List Char} (hc : escapeChar c = '\\' :: behind) :
      decode (escapeChar c ++ rest) = c :: decode rest := by
    have hnone : '\\' ∉ openers := by decide
    have hsign : firstSign '\\' (behind ++ rest) = ([c], behind.length) := by
      rw [firstSign, if_neg fun hopens => hnone hopens.1, if_pos rfl,
        jsonEscape?_of_escapeChar hc]
    rw [hc, List.cons_append, decode_cons, hsign, List.drop_left]
    rfl
  rcases escapeChar_cases c with ⟨hc, -, -, hbackslash⟩ | ⟨e, -, hc, -⟩ | ⟨hc, -⟩
  · rw [hc]
    exact decode_of_plain hbackslash h
  · exact hescaped hc
  · exact hescaped hc

/-- **The body of a literal is read back.** -/
theorem decode_escape (cs : List Char) : decode (escape cs) = cs := by
  induction cs with
  | nil => rfl
  | cons c rest ih =>
    rw [escape_cons]
    by_cases hopens : opensTemplate c rest = true
    · -- the brace behind the doubled sign is read with it
      obtain ⟨hopener, hbrace⟩ := opensTemplate_iff.1 hopens
      obtain ⟨more, rfl⟩ := List.head?_eq_some_iff.1 hbrace
      have hmore : escape ('\x7b' :: more) = '\x7b' :: escape more := rfl
      have hsign : firstSign c (c :: '\x7b' :: escape more) = ([c, '\x7b'], 2) := by
        rw [firstSign, if_pos ⟨hopener, List.prefix_append [c, '\x7b'] _⟩]
      rw [hmore, decode_of_plain (by decide) fun h => absurd h (by decide)] at ih
      rw [if_pos hopens, hmore, List.cons_append, List.singleton_append, decode_cons, hsign]
      exact congrArg (c :: ·) ih
    · rw [if_neg hopens, decode_escapeChar_append, ih]
      rintro hopener ⟨tail, htail⟩
      exact escape_ne_opener hopener rest tail htail.symm

/-- Different texts have different literals. -/
theorem quote_injective : Function.Injective quote := by
  intro s t h
  have hlists := congrArg String.toList h
  rw [toList_quote, toList_quote] at hlists
  have hbodies := List.append_cancel_right (List.cons.inj hlists).2
  have htexts := congrArg decode hbodies
  rw [decode_escape, decode_escape] at htexts
  exact String.toList_inj.1 htexts

/-- What control characters a body holds. -/
theorem isControl_of_mem_escape {cs : List Char} {c : Char} (h : c ∈ escape cs)
    (hcontrol : isControl c = true) : 127 ≤ c.toNat ∧ c ∈ cs := by
  simp only [isControl, Bool.or_eq_true, Bool.and_eq_true, decide_eq_true_eq] at hcontrol
  induction cs with
  | nil => cases h
  | cons d rest ih =>
    rw [escape_cons, List.mem_append] at h
    rcases h with h | h
    · split at h
      next hopens =>
        have hvisible : ∀ sign ∈ openers, 32 ≤ sign.toNat ∧ sign.toNat < 127 :=
          List.all_iff_forall_prop.1 (by decide)
        have hsign := hvisible d (opensTemplate_iff.1 hopens).1
        have hd : c = d := by simpa using h
        subst hd
        omega
      next =>
        rcases mem_escapeChar h with ⟨rfl, hspace⟩ | hvisible
        · exact ⟨by omega, List.mem_cons_self⟩
        · omega
    · obtain ⟨hcode, hmem⟩ := ih h
      exact ⟨hcode, List.mem_cons_of_mem d hmem⟩

/-! ### Literals -/

/-- **What is true of every literal.** It is a body between quotes. The body holds no control
character below the space, and of the others only those of the text; the quotes in it are escaped,
no template opens in it, and from left to right it is read as the text. So different texts have
different literals. -/
theorem quote_roundTrip :
    (∀ s : String, ∃ body, (quote s).toList = '"' :: body ++ ['"'] ∧
      (∀ c ∈ body, isControl c = true → 127 ≤ c.toNat ∧ c ∈ s.toList) ∧
      isClosed body = true ∧
      (∀ sign ∈ ['$', '%'], ∀ before after, body = before ++ sign :: '\x7b' :: after →
        before.getLast? = some sign) ∧
      decode body = s.toList) ∧
    Function.Injective quote := by
  refine ⟨?_, quote_injective⟩
  intro s
  refine ⟨escape s.toList, toList_quote s, ?_, isClosed_escape _, ?_, decode_escape _⟩
  · intro c hc hcontrol
    exact isControl_of_mem_escape hc hcontrol
  · intro sign hsign before after h
    exact getLast?_of_escape_eq hsign h

/-- The delete character is a control character, and it is not escaped. -/
theorem quote_delete :
    ¬∃ body, (quote "\x7f").toList = '"' :: body ++ ['"'] ∧ ∀ c ∈ body, isControl c = false := by
  rintro ⟨body, hbody, hcontrol⟩
  have hdelete : (quote "\x7f").toList = '"' :: ['\x7f'] ++ ['"'] := by
    rw [toList_quote]
    rfl
  rw [hdelete] at hbody
  obtain rfl := List.append_cancel_right (List.cons.inj hbody).2
  exact absurd (hcontrol '\x7f' List.mem_cons_self) (by decide)

/-- Signs that run into braces and into escapes, and escapes that stand in the text. -/
example : decode (escape "$$\x7b\\$\x7b%\\u0041\n".toList) = "$$\x7b\\$\x7b%\\u0041\n".toList := by
  decide

end Hcl
end HclExport
