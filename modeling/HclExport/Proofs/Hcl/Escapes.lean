import HclExport.Proofs.Hcl.Quoted

/-!
# The escapes of quoted literals

A literal is written with the escapes of JSON and read with those of the configuration language. The
two sets are nearly the same: a backspace and a form feed have letters in JSON only, and they are
all that goes wrong.

## Main definitions

* `escapeMeaning?` — the escapes that a reader of literals knows, and what they stand for.
* `backslashEscapes` — the escapes of a body.
* `readLiteral?` — the text that a reader of literals makes of a body.

## Main results

* `readLiteral?_escape` — **a body is read, as its text, unless one of the two characters is in the
  text.**
* `quote_escapes` — what escapes are in a literal that are not known, and which literals are read.
-/

namespace HclExport
namespace Hcl

/-! ### The reader of literals -/

/-- The character with a given code, which is written with a number of digits in base sixteen; a
code of no character stands for the replacement character. -/
def codePoint? (width : Nat) (digits : List Char) : Option Char := do
  guard (digits.length = width)
  let values ← digits.mapM JsonReader.hexValue
  let code := Nat.ofDigits 16 values.reverse
  return if code.isValidChar then Char.ofNat code else '\uFFFD'

/-- What an escape stands for, given by what is behind its backslash. There are no others. -/
def escapeMeaning? : List Char → Option Char
  | ['n'] => some '\n'
  | ['r'] => some '\r'
  | ['t'] => some '\t'
  | ['"'] => some '"'
  | ['\\'] => some '\\'
  | 'u' :: digits => codePoint? 4 digits
  | 'U' :: digits => codePoint? 8 digits
  | _ => none

/-- How many characters belong to an escape behind its backslash. -/
def escapeLength : List Char → Nat
  | 'u' :: _ => 5
  | 'U' :: _ => 9
  | _ => 1

/-- The escape whose backslash stands before a text. -/
def leadingEscape (rest : List Char) : List Char :=
  rest.take (escapeLength rest)

/-- The escapes of a body, from where some characters are passed over. -/
def escapesFrom : Nat → List Char → List (List Char)
  | _, [] => []
  | 0, c :: rest =>
    if c = '\\' then leadingEscape rest :: escapesFrom (escapeLength rest) rest
    else escapesFrom 0 rest
  | skipped + 1, _ :: rest => escapesFrom skipped rest

/-- The escapes of a body from left to right, each without its backslash. -/
def backslashEscapes (body : List Char) : List (List Char) :=
  escapesFrom 0 body

/-- What a reader of literals makes of a character, and how many characters behind it belong to it.
It makes nothing of an escape that it does not know, nor of a sign that opens a template. -/
def readSign? (c : Char) (rest : List Char) : Option (List Char × Nat) :=
  if c = '\\' then
    (escapeMeaning? (leadingEscape rest)).map fun char => ([char], escapeLength rest)
  else if opensTemplate c rest then none
  else if c ∈ openers ∧ [c, '\x7b'] <+: rest then some ([c, '\x7b'], 2)
  else some ([c], 0)

/-- The text of a body for a reader of literals, from where some characters are passed over. -/
def readFrom? : Nat → List Char → Option (List Char)
  | _, [] => some []
  | 0, c :: rest =>
    (readSign? c rest).bind fun sign => (readFrom? sign.2 rest).map (sign.1 ++ ·)
  | skipped + 1, _ :: rest => readFrom? skipped rest

/-- The text that a reader of literals makes of a body, if it can read it. -/
def readLiteral? (body : List Char) : Option (List Char) :=
  readFrom? 0 body

theorem escapesFrom_eq (skipped : Nat) (body : List Char) :
    escapesFrom skipped body = backslashEscapes (body.drop skipped) := by
  induction skipped generalizing body with
  | zero => rfl
  | succ skipped ih =>
    cases body with
    | nil => rfl
    | cons c rest => exact ih rest

theorem readFrom?_eq (skipped : Nat) (body : List Char) :
    readFrom? skipped body = readLiteral? (body.drop skipped) := by
  induction skipped generalizing body with
  | zero => rfl
  | succ skipped ih =>
    cases body with
    | nil => rfl
    | cons c rest => exact ih rest

theorem backslashEscapes_backslash (rest : List Char) :
    backslashEscapes ('\\' :: rest) =
      leadingEscape rest :: backslashEscapes (rest.drop (escapeLength rest)) := by
  rw [← escapesFrom_eq]
  rfl

theorem backslashEscapes_cons {c : Char} (h : c ≠ '\\') (rest : List Char) :
    backslashEscapes (c :: rest) = backslashEscapes rest := by
  rw [backslashEscapes, escapesFrom, if_neg h]
  rfl

theorem readLiteral?_cons (c : Char) (rest : List Char) :
    readLiteral? (c :: rest) =
      (readSign? c rest).bind fun sign =>
        (readLiteral? (rest.drop sign.2)).map (sign.1 ++ ·) := by
  simp only [← readFrom?_eq]
  rfl

/-! ### One character -/

/-- The escape that only JSON has for a character. -/
def foreignEscape? (c : Char) : Option (List Char) :=
  if c.toNat = 8 then some ['b']
  else if c.toNat = 12 then some ['f']
  else none

theorem escapeMeaning?_letter {e c : Char} (he : e ∈ escapeLetters)
    (h : JsonReader.simpleEscape e = some c) :
    (foreignEscape? c = none ∧ escapeMeaning? [e] = some c) ∨
      (foreignEscape? c = some [e] ∧ escapeMeaning? [e] = none) := by
  have hletters : (escapeLetters.all fun e => (JsonReader.simpleEscape e).all fun c =>
      (foreignEscape? c = none ∧ escapeMeaning? [e] = some c) ∨
        (foreignEscape? c = some [e] ∧ escapeMeaning? [e] = none)) = true := by
    decide
  have hletter := List.all_eq_true.1 hletters e he
  rw [h] at hletter
  exact of_decide_eq_true hletter

theorem escapeMeaning?_code {c : Char} (hcode : c.toNat < 32)
    (h : escapeChar c = '\\' :: 'u' :: hexDigits 4 c.toNat) :
    foreignEscape? c = none ∧ escapeMeaning? ('u' :: hexDigits 4 c.toNat) = some c := by
  have hcodes : ∀ n < 32, escapeChar (Char.ofNat n) = '\\' :: 'u' :: hexDigits 4 n →
      foreignEscape? (Char.ofNat n) = none ∧
        escapeMeaning? ('u' :: hexDigits 4 n) = some (Char.ofNat n) := by
    decide
  have hc := hcodes c.toNat hcode
  rw [Char.ofNat_toNat] at hc
  exact hc h

/-- **What is written for a character**: the character itself, or an escape that a reader of
literals knows and takes for the character, or an escape that only JSON has. -/
theorem escapeChar_written (c : Char) :
    (escapeChar c = [c] ∧ c ≠ '\\' ∧ foreignEscape? c = none) ∨
    (∃ behind, escapeChar c = '\\' :: behind ∧
      (∀ rest, escapeLength (behind ++ rest) = behind.length) ∧
      ((foreignEscape? c = none ∧ escapeMeaning? behind = some c) ∨
        (foreignEscape? c = some behind ∧ escapeMeaning? behind = none))) := by
  rcases escapeChar_cases c with ⟨hc, hspace, -, hbackslash⟩ | ⟨e, he, hc, hletter⟩ | ⟨hc, hcode⟩
  · refine Or.inl ⟨hc, hbackslash, ?_⟩
    rw [foreignEscape?, if_neg (by omega), if_neg (by omega)]
  · have hlengths : ∀ e ∈ escapeLetters, e ≠ 'u' ∧ e ≠ 'U' := List.all_iff_forall_prop.1 (by decide)
    refine Or.inr ⟨[e], hc, ?_, escapeMeaning?_letter he hletter⟩
    intro rest
    obtain ⟨hshort, hlong⟩ := hlengths e he
    simp [escapeLength, hshort, hlong]
  · refine Or.inr ⟨'u' :: hexDigits 4 c.toNat, hc, ?_, Or.inl (escapeMeaning?_code hcode hc)⟩
    intro rest
    rw [hexDigits_of_lt hcode]
    rfl

theorem leadingEscape_append {behind rest : List Char}
    (h : escapeLength (behind ++ rest) = behind.length) :
    leadingEscape (behind ++ rest) = behind := by
  rw [leadingEscape, h, List.take_left]

/-- The escapes in what is written for a character that are not known. -/
theorem unknown_backslashEscapes_escapeChar_append (c : Char) (rest : List Char) :
    (backslashEscapes (escapeChar c ++ rest)).filter (fun e => (escapeMeaning? e).isNone) =
      (foreignEscape? c).toList ++
        (backslashEscapes rest).filter (fun e => (escapeMeaning? e).isNone) := by
  rcases escapeChar_written c with ⟨hc, hbackslash, hforeign⟩ | ⟨behind, hc, hlength, hmeaning⟩
  · rw [hc, List.singleton_append, backslashEscapes_cons hbackslash, hforeign]
    rfl
  · rw [hc, List.cons_append, backslashEscapes_backslash, leadingEscape_append (hlength rest),
      hlength, List.drop_left]
    rcases hmeaning with ⟨hforeign, hknown⟩ | ⟨hforeign, hunknown⟩
    · rw [List.filter_cons_of_neg (by simp [hknown]), hforeign]
      rfl
    · rw [List.filter_cons_of_pos (by simp [hunknown]), hforeign]
      rfl

theorem readSign?_of_plain {c : Char} {rest : List Char} (hbackslash : c ≠ '\\')
    (hopens : opensTemplate c rest = false) (h : c ∈ openers → ¬[c, '\x7b'] <+: rest) :
    readSign? c rest = some ([c], 0) := by
  rw [readSign?, if_neg hbackslash, if_neg (by simp [hopens]), if_neg]
  rintro ⟨hopener, hbrace⟩
  exact h hopener hbrace

/-- What is written for a character is read as the character, unless only JSON can read it or the
character runs into what follows. -/
theorem readLiteral?_escapeChar_append {c : Char} {rest : List Char}
    (hopens : opensTemplate c rest = false) (h : c ∈ openers → ¬[c, '\x7b'] <+: rest) :
    readLiteral? (escapeChar c ++ rest) =
      if foreignEscape? c = none then (readLiteral? rest).map (c :: ·) else none := by
  rcases escapeChar_written c with ⟨hc, hbackslash, hforeign⟩ | ⟨behind, hc, hlength, hmeaning⟩
  · rw [hc, List.singleton_append, readLiteral?_cons, readSign?_of_plain hbackslash hopens h,
      if_pos hforeign]
    rfl
  · rw [hc, List.cons_append, readLiteral?_cons, readSign?, if_pos rfl,
      leadingEscape_append (hlength rest), hlength]
    rcases hmeaning with ⟨hforeign, hknown⟩ | ⟨hforeign, hunknown⟩
    · rw [hknown, if_pos hforeign, Option.map_some, Option.bind_some, List.drop_left]
      rfl
    · rw [hunknown, if_neg (by simp [hforeign])]
      rfl

/-! ### Bodies -/

/-- **The escapes of a body that are not known**: one for each of the two characters, in their
order. -/
theorem unknown_backslashEscapes_escape (cs : List Char) :
    (backslashEscapes (escape cs)).filter (fun e => (escapeMeaning? e).isNone) =
      cs.filterMap foreignEscape? := by
  induction cs with
  | nil => rfl
  | cons c rest ih =>
    rw [escape_cons]
    by_cases hopens : opensTemplate c rest = true
    · have hopener := (opensTemplate_iff.1 hopens).1
      have hplain : ∀ sign ∈ openers, sign ≠ '\\' ∧ foreignEscape? sign = none :=
        List.all_iff_forall_prop.1 (by decide)
      obtain ⟨hbackslash, hforeign⟩ := hplain c hopener
      rw [if_pos hopens, List.cons_append, List.singleton_append, backslashEscapes_cons hbackslash,
        backslashEscapes_cons hbackslash, ih, List.filterMap_cons_none hforeign]
    · rw [if_neg hopens, unknown_backslashEscapes_escapeChar_append, ih]
      cases hforeign : foreignEscape? c with
      | none => rw [List.filterMap_cons_none hforeign]; rfl
      | some e => rw [List.filterMap_cons_some hforeign]; rfl

theorem opensTemplate_escape {c : Char} {rest : List Char} (h : opensTemplate c rest = false) :
    opensTemplate c (escape rest) = false := by
  rw [Bool.eq_false_iff] at h ⊢
  intro hopens
  obtain ⟨hopener, hbrace⟩ := opensTemplate_iff.1 hopens
  obtain ⟨tail, htail⟩ := List.head?_eq_some_iff.1 hbrace
  obtain ⟨more, rfl, -⟩ := escape_eq_cons List.mem_cons_self htail
  exact h (opensTemplate_iff.2 ⟨hopener, rfl⟩)

/-- A doubled sign and the brace behind it are read as the sign and the brace. -/
theorem readLiteral?_doubled {sign : Char} (hsign : sign ∈ openers) (more : List Char) :
    readLiteral? ([sign, sign] ++ escape ('\x7b' :: more)) =
      (readLiteral? (escape ('\x7b' :: more))).map (sign :: ·) := by
  have hplain : ∀ sign ∈ openers, sign ≠ '\\' ∧ sign ≠ '\x7b' :=
    List.all_iff_forall_prop.1 (by decide)
  obtain ⟨hbackslash, hbrace⟩ := hplain sign hsign
  have hmore : escape ('\x7b' :: more) = '\x7b' :: escape more := rfl
  have hdoubled : readSign? sign (sign :: '\x7b' :: escape more) = some ([sign, '\x7b'], 2) := by
    rw [readSign?, if_neg hbackslash, if_neg (by simp [opensTemplate, hbrace]),
      if_pos ⟨hsign, List.prefix_append [sign, '\x7b'] _⟩]
  have halone : readSign? '\x7b' (escape more) = some (['\x7b'], 0) :=
    readSign?_of_plain (by decide) rfl fun h => absurd h (by decide)
  rw [hmore, List.cons_append, List.singleton_append, readLiteral?_cons, hdoubled,
    readLiteral?_cons, halone]
  simp [Function.comp_def]

/-- **A body is read, as its text, unless one of the two characters is in the text.** -/
theorem readLiteral?_escape (cs : List Char) :
    readLiteral? (escape cs) =
      if cs.all fun c => (foreignEscape? c).isNone then some cs else none := by
  induction cs with
  | nil => rfl
  | cons c rest ih =>
    have hcons : (if foreignEscape? c = none then (readLiteral? (escape rest)).map (c :: ·)
        else none) =
        if (c :: rest).all fun d => (foreignEscape? d).isNone then some (c :: rest) else none := by
      rw [ih, List.all_cons]
      by_cases hc : foreignEscape? c = none <;>
        by_cases hrest : (rest.all fun d => (foreignEscape? d).isNone) = true <;> simp [hc, hrest]
    rw [escape_cons, ← hcons]
    by_cases hopens : opensTemplate c rest = true
    · have hforeign : ∀ sign ∈ openers, foreignEscape? sign = none :=
        List.all_iff_forall_prop.1 (by decide)
      obtain ⟨hopener, hbrace⟩ := opensTemplate_iff.1 hopens
      obtain ⟨more, rfl⟩ := List.head?_eq_some_iff.1 hbrace
      rw [if_pos hopens, readLiteral?_doubled hopener, if_pos (hforeign c hopener)]
    · rw [if_neg hopens, readLiteral?_escapeChar_append]
      · exact opensTemplate_escape (Bool.eq_false_iff.2 hopens)
      · rintro hopener ⟨tail, htail⟩
        exact escape_ne_opener hopener rest tail htail.symm

/-! ### Literals -/

theorem foreignEscape?_eq_none {c : Char} :
    foreignEscape? c = none ↔ c ≠ '\x08' ∧ c ≠ '\x0c' := by
  have hbackspace : c.toNat = 8 ↔ c = '\x08' := Char.toNat_inj (d := '\x08')
  have hformFeed : c.toNat = 12 ↔ c = '\x0c' := Char.toNat_inj (d := '\x0c')
  rw [foreignEscape?]
  split_ifs <;> simp_all

/-- **The escapes of a literal.** Those that a reader of literals does not know are `\b` and `\f`,
one for each backspace and each form feed of the text, in their order. So all escapes are known
exactly if the text holds neither, and then the literal is read, and read as the text; any other
literal is not read. -/
theorem quote_escapes (s : String) :
    ∃ body, (quote s).toList = '"' :: body ++ ['"'] ∧
      (backslashEscapes body).filter (fun e => (escapeMeaning? e).isNone) =
        s.toList.filterMap foreignEscape? ∧
      ((∀ e ∈ backslashEscapes body, (escapeMeaning? e).isSome = true) ↔
        '\x08' ∉ s.toList ∧ '\x0c' ∉ s.toList) ∧
      readLiteral? body =
        if '\x08' ∉ s.toList ∧ '\x0c' ∉ s.toList then some s.toList else none := by
  have hforeign : (∀ c ∈ s.toList, foreignEscape? c = none) ↔
      '\x08' ∉ s.toList ∧ '\x0c' ∉ s.toList := by
    simp only [foreignEscape?_eq_none]
    constructor
    · intro h
      exact ⟨fun hmem => (h _ hmem).1 rfl, fun hmem => (h _ hmem).2 rfl⟩
    · rintro ⟨hbackspace, hformFeed⟩ c hc
      exact ⟨fun h => hbackspace (h ▸ hc), fun h => hformFeed (h ▸ hc)⟩
  have hunknown := unknown_backslashEscapes_escape s.toList
  refine ⟨escape s.toList, toList_quote s, hunknown, ?_, ?_⟩
  · rw [← hforeign, ← List.filterMap_eq_nil_iff, ← hunknown, List.filter_eq_nil_iff]
    simp [Option.isSome_iff_ne_none]
  · rw [readLiteral?_escape]
    refine if_congr ?_ rfl rfl
    rw [← hforeign, List.all_eq_true]
    simp only [Option.isNone_iff_eq_none]

/-- A backspace is written with an escape that no reader of literals knows. -/
theorem quote_backspace :
    ¬∀ s body, (quote s).toList = '"' :: body ++ ['"'] →
      ∀ e ∈ backslashEscapes body, (escapeMeaning? e).isSome = true := by
  intro h
  have hbackspace := h "\x08" ['\\', 'b'] (by rw [toList_quote]; rfl) ['b'] (by decide)
  exact absurd hbackspace (by decide)

/-- The other control characters below the space are read back. -/
example : readLiteral? (escape "\x00\x07\t\n\x0b\r\x1b\\$\x7b".toList) =
    some "\x00\x07\t\n\x0b\r\x1b\\$\x7b".toList := by
  decide

end Hcl
end HclExport
