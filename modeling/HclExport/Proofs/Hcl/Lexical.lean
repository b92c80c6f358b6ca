import HclExport.Hcl.Quoted
import HclExport.Proofs.Text.Word
import Mathlib.Data.List.TakeWhile

/-!
# Reading a configuration

A reader of the signs that structure a configuration: quoted literals with backslash escapes,
comments that run to the end of the line, and brackets, which have to be nested and closed. A text
that is neutral to this reader can stand anywhere in code without a trace.

## Main definitions

* `Region`, `Reading`, `Reading.step`, `Reading.after` — where a reader stands, and where it
  stands after a character and after a text.
* `isWellFormed` — a text that is read to its end with nothing left open.
* `Neutral`, `IsLine`, `Encloses` — texts without a trace in code, by themselves, as the rest of
  a line, and around a text.

## Main results

* `neutral_of_inert` — a text without structuring signs is neutral.
* `neutral_quote` — a quoted literal is neutral, whatever it holds.
* `isLine_comment` — a comment without a line feed is the rest of a line.
* `isLine_trimRight` — dropping blanks at the end of a neutral text leaves the rest of a line.
-/

namespace HclExport
namespace Hcl

/-! ### The reader -/

/-- Where a reader stands: in code, in a quoted literal, behind a backslash in one, or in a
comment. -/
inductive Region
  | code
  | literal
  | escaped
  | remark
  deriving DecidableEq

/-- Where a reader stands, and the brackets that are still to come, the innermost first. -/
structure Reading where
  region : Region
  closers : List Char
  deriving DecidableEq

/-- The bracket that closes an opening one. -/
def closer? : Char → Option Char
  | '\x7b' => some '\x7d'
  | '[' => some ']'
  | '(' => some ')'
  | _ => none

/-- Whether a character is a closing bracket. -/
def isCloser (c : Char) : Bool :=
  c == '\x7d' || c == ']' || c == ')'

namespace Reading

/-- Read a character in code: it may open a literal or a comment, open a bracket, or close the
innermost one. -/
def stepCode (closers : List Char) (c : Char) : Option Reading :=
  if c = '"' then some ⟨.literal, closers⟩
  else if c = '#' then some ⟨.remark, closers⟩
  else match closer? c with
    | some closer => some ⟨.code, closer :: closers⟩
    | none =>
      if isCloser c then
        match closers with
        | [] => none
        | expected :: rest => if c = expected then some ⟨.code, rest⟩ else none
      else some ⟨.code, closers⟩

/-- Read a character. A literal has to be closed on its line. -/
def step (r : Reading) (c : Char) : Option Reading :=
  match r.region with
  | .code => stepCode r.closers c
  | .literal =>
    if c = '\n' then none
    else if c = '"' then some ⟨.code, r.closers⟩
    else if c = '\\' then some ⟨.escaped, r.closers⟩
    else some r
  | .escaped => if c = '\n' then none else some ⟨.literal, r.closers⟩
  | .remark => if c = '\n' then some ⟨.code, r.closers⟩ else some r

/-- Read a text; there is no reading if a literal or a bracket is not closed as it has to be. -/
def after (r : Reading) (cs : List Char) : Option Reading :=
  cs.foldlM step r

@[simp] theorem after_nil (r : Reading) : r.after [] = some r := rfl

@[simp] theorem after_cons (r : Reading) (c : Char) (cs : List Char) :
    r.after (c :: cs) = (r.step c).bind fun next => next.after cs := by
  simp [after, List.foldlM_cons]

theorem after_append (r : Reading) (cs more : List Char) :
    r.after (cs ++ more) = (r.after cs).bind fun next => next.after more := by
  simp [after, List.foldlM_append]

theorem after_append_of_some {r next : Reading} {cs : List Char} (h : r.after cs = some next)
    (more : List Char) : r.after (cs ++ more) = next.after more := by
  rw [after_append, h, Option.bind_some]

end Reading

/-- Whether a text is lexically well-formed: its literals are closed on the lines on which they
start, and outside of literals and comments its brackets are nested and closed. -/
def isWellFormed (text : String) : Bool :=
  match (⟨.code, []⟩ : Reading).after text.toList with
  | some ⟨.code, []⟩ => true
  | some ⟨.remark, []⟩ => true
  | _ => false

/-! ### Neutral texts -/

/-- A text that leaves a reader in code where it was, whatever brackets are open. -/
def Neutral (s : String) : Prop :=
  ∀ closers, (⟨.code, closers⟩ : Reading).after s.toList = some ⟨.code, closers⟩

/-- A text that is neutral as soon as its line ends; it may end with a comment. -/
def IsLine (s : String) : Prop :=
  Neutral (s ++ "\n")

/-- Two texts that can be put around every neutral text. -/
def Encloses (opening closing : String) : Prop :=
  ∀ s, Neutral s → Neutral (opening ++ s ++ closing)

/-- A neutral text is well-formed. -/
theorem Neutral.isWellFormed {s : String} (h : Neutral s) : isWellFormed s = true := by
  unfold Hcl.isWellFormed
  rw [h []]

theorem neutral_empty : Neutral "" := fun _ => rfl

theorem Neutral.append {s t : String} (hs : Neutral s) (ht : Neutral t) : Neutral (s ++ t) := by
  intro closers
  rw [String.toList_append, Reading.after_append_of_some (hs closers), ht]

theorem Neutral.append_isLine {s t : String} (hs : Neutral s) (ht : IsLine t) :
    IsLine (s ++ t) := by
  unfold IsLine
  rw [String.append_assoc]
  exact hs.append ht

/-- The separator of texts that are put together is neutral as well. -/
theorem neutral_intercalate {separator : String} {parts : List String}
    (hseparator : Neutral separator) (h : ∀ part ∈ parts, Neutral part) :
    Neutral (separator.intercalate parts) := by
  induction parts with
  | nil =>
    rw [String.intercalate_nil]
    exact neutral_empty
  | cons first rest ih =>
    obtain ⟨hfirst, hrest⟩ := List.forall_mem_cons.1 h
    cases rest with
    | nil =>
      rw [String.intercalate_singleton]
      exact hfirst
    | cons second rest =>
      rw [String.intercalate_cons_cons]
      exact (hfirst.append hseparator).append (ih hrest)

/-! ### Inert characters -/

/-- The characters that have a meaning to the reader in code. -/
def structuringChars : List Char :=
  ['"', '#', '\x7b', '\x7d', '[', ']', '(', ')']

/-- Whether a character has no meaning to the reader in code. -/
def isInert (c : Char) : Bool :=
  !structuringChars.contains c

theorem Reading.stepCode_of_inert {c : Char} (h : isInert c = true) (closers : List Char) :
    stepCode closers c = some ⟨.code, closers⟩ := by
  have hne : ∀ sign ∈ structuringChars, c ≠ sign := by
    rintro sign hsign rfl
    simp [isInert, hsign] at h
  simp only [structuringChars, List.forall_mem_cons] at hne
  obtain ⟨hquote, hsign, hbrace, hbrace', hbracket, hbracket', hparen, hparen', -⟩ := hne
  have hopener : closer? c = none := by
    unfold closer?
    split
    · exact absurd rfl hbrace
    · exact absurd rfl hbracket
    · exact absurd rfl hparen
    · rfl
  unfold stepCode
  rw [if_neg hquote, if_neg hsign, hopener]
  simp [isCloser, hbrace', hbracket', hparen']

/-- A text without structuring signs is neutral. -/
theorem neutral_of_inert {s : String} (h : s.toList.all isInert = true) : Neutral s := by
  intro closers
  generalize s.toList = cs at h
  induction cs with
  | nil => rfl
  | cons c rest ih =>
    simp only [List.all_cons, Bool.and_eq_true] at h
    rw [Reading.after_cons]
    show ((Reading.stepCode closers c).bind fun next => next.after rest) = _
    rw [Reading.stepCode_of_inert h.1, Option.bind_some]
    exact ih h.2

/-- A class of characters without those that have a meaning is inert. -/
theorem isInert_of_not_any {p : Char → Bool} (hnone : structuringChars.any p = false) {c : Char}
    (h : p c = true) : isInert c = true := by
  by_contra hnot
  have hmem : c ∈ structuringChars := by simpa [isInert] using hnot
  have hany : structuringChars.any p = true := List.any_eq_true.2 ⟨c, hmem, h⟩
  rw [hnone] at hany
  cases hany

theorem isInert_of_isWordChar {c : Char} (h : isWordChar c = true) : isInert c = true :=
  isInert_of_not_any (by decide) h

theorem neutral_of_isWord {s : String} (h : IsWord s) : Neutral s :=
  neutral_of_inert (List.all_eq_true.2 fun c hc => isInert_of_isWordChar (h c hc))

theorem neutral_lineFeed : Neutral "\n" :=
  neutral_of_inert (by decide)

theorem Neutral.isLine {s : String} (h : Neutral s) : IsLine s :=
  h.append neutral_lineFeed

theorem neutral_spaces (n : Nat) : Neutral (spaces n) := by
  refine neutral_of_inert ?_
  rw [spaces, String.toList_ofList, List.all_replicate]
  simp [show isInert ' ' = true by decide]

theorem Neutral.padRight {s : String} (h : Neutral s) (width : Nat) : Neutral (padRight width s) :=
  h.append (neutral_spaces _)

/-! ### Brackets -/

theorem encloses_of_closer {opening closing : String} {o c : Char} (ho : opening.toList = [o])
    (hc : closing.toList = [c]) (h : closer? o = some c) : Encloses opening closing := by
  intro s hs closers
  have hopens : Reading.stepCode closers o = some ⟨.code, c :: closers⟩ := by
    unfold Reading.stepCode
    rw [if_neg, if_neg, h]
    · rintro rfl
      cases h
    · rintro rfl
      cases h
  have hcloses : Reading.stepCode (c :: closers) c = some ⟨.code, closers⟩ := by
    unfold closer? at h
    split at h
    · cases h
      rfl
    · cases h
      rfl
    · cases h
      rfl
    · cases h
  rw [String.toList_append, String.toList_append, ho, hc]
  show ((Reading.stepCode closers o).bind fun next => next.after (s.toList ++ [c])) = _
  rw [hopens, Option.bind_some, Reading.after_append_of_some (hs _)]
  show ((Reading.stepCode (c :: closers) c).bind fun next => next.after []) = _
  rw [hcloses]
  rfl

theorem encloses_braces : Encloses "\x7b" "\x7d" :=
  encloses_of_closer (o := '\x7b') (c := '\x7d') (by decide) (by decide) rfl

theorem encloses_brackets : Encloses "[" "]" :=
  encloses_of_closer (o := '[') (c := ']') (by decide) (by decide) rfl

theorem encloses_parentheses : Encloses "(" ")" :=
  encloses_of_closer (o := '(') (c := ')') (by decide) (by decide) rfl

theorem Encloses.append_right {opening closing more : String} (h : Encloses opening closing)
    (hmore : Neutral more) : Encloses opening (closing ++ more) := by
  intro s hs
  rw [← String.append_assoc]
  exact (h s hs).append hmore

/-- Braces with a comma behind them. -/
theorem encloses_element : Encloses "\x7b" "\x7d," := by
  have hclosing : "\x7d," = "\x7d" ++ "," := by decide
  rw [hclosing]
  exact encloses_braces.append_right (neutral_of_inert (by decide))

/-! ### Comments -/

theorem Reading.after_remark {closers : List Char} {cs : List Char} (h : '\n' ∉ cs) :
    (⟨.remark, closers⟩ : Reading).after cs = some ⟨.remark, closers⟩ := by
  induction cs with
  | nil => rfl
  | cons c rest ih =>
    obtain ⟨hc, hrest⟩ := List.ne_and_not_mem_of_not_mem_cons h
    rw [Reading.after_cons]
    show ((if c = '\n' then _ else _ : Option Reading).bind _) = _
    rw [if_neg (Ne.symm hc), Option.bind_some]
    exact ih hrest

/-- A comment without a line feed is the rest of a line. -/
theorem isLine_comment {s : String} (hsign : s.toList.head? = some '#')
    (hfeed : '\n' ∉ s.toList) : IsLine s := by
  obtain ⟨rest, hrest⟩ := List.head?_eq_some_iff.1 hsign
  intro closers
  rw [hrest] at hfeed
  rw [String.toList_append, hrest, List.cons_append]
  show (⟨.remark, closers⟩ : Reading).after (rest ++ ['\n']) = _
  rw [Reading.after_append_of_some (Reading.after_remark (List.not_mem_of_not_mem_cons hfeed))]
  rfl

/-! ### Literals -/

/-- Whether a character has no meaning to the reader in a literal. -/
def isPlain (c : Char) : Bool :=
  c != '"' && c != '\\' && c != '\n'

theorem isPlain_of_isWordChar {c : Char} (h : isWordChar c = true) : isPlain c = true := by
  simp only [isPlain, Bool.and_eq_true, bne_iff_ne]
  refine ⟨⟨?_, ?_⟩, ?_⟩
  all_goals
    rintro rfl
    exact absurd h (by decide)

theorem Reading.after_literal {closers : List Char} {cs : List Char} (h : cs.all isPlain = true) :
    (⟨.literal, closers⟩ : Reading).after cs = some ⟨.literal, closers⟩ := by
  induction cs with
  | nil => rfl
  | cons c rest ih =>
    simp only [List.all_cons, Bool.and_eq_true, isPlain, bne_iff_ne] at h
    obtain ⟨⟨⟨hquote, hbackslash⟩, hfeed⟩, hrest⟩ := h
    rw [Reading.after_cons]
    show ((if c = '\n' then _ else if c = '"' then _ else if c = '\\' then _ else _ :
      Option Reading).bind _) = _
    rw [if_neg hfeed, if_neg hquote, if_neg hbackslash, Option.bind_some]
    exact ih hrest

/-- A text in quotes is neutral if the body keeps to the literal. -/
theorem neutral_between_quotes {body : List Char}
    (h : ∀ closers, (⟨.literal, closers⟩ : Reading).after body = some ⟨.literal, closers⟩) :
    Neutral (String.ofList ('"' :: body ++ ['"'])) := by
  intro closers
  rw [String.toList_ofList, List.cons_append]
  show (⟨.literal, closers⟩ : Reading).after (body ++ ['"']) = _
  rw [Reading.after_append_of_some (h closers)]
  rfl

/-- One character of a quoted literal keeps to the literal. -/
theorem Reading.after_escapeChar (closers : List Char) (c : Char) :
    (⟨.literal, closers⟩ : Reading).after (escapeChar c) = some ⟨.literal, closers⟩ := by
  unfold escapeChar
  split
  next h =>
    simp only [Bool.or_eq_true, decide_eq_true_eq] at h
    rcases h with rfl | rfl
    · rfl
    · rfl
  next h =>
    simp only [Bool.or_eq_true, decide_eq_true_eq, not_or] at h
    split
    next hspace =>
      have hfeed : c ≠ '\n' := by
        rintro rfl
        exact absurd hspace (by decide)
      exact Reading.after_literal (by simp [isPlain, h.1, h.2, hfeed])
    repeat' split
    · rfl
    · rfl
    · rfl
    · rfl
    · rfl
    · -- behind the backslash stand a letter and digits
      show (⟨.literal, closers⟩ : Reading).after (hexDigits 4 c.toNat) = _
      exact Reading.after_literal (List.all_eq_true.2 fun digit hdigit =>
        isPlain_of_isWordChar (isWordChar_of_mem_hexDigits hdigit))

theorem Reading.after_escape (closers : List Char) (cs : List Char) :
    (⟨.literal, closers⟩ : Reading).after (escape cs) = some ⟨.literal, closers⟩ := by
  induction cs with
  | nil => rfl
  | cons c rest ih =>
    rw [escape_cons, Reading.after_append_of_some ?_, ih]
    split
    next h =>
      -- the sign that would open a template is doubled
      simp only [opensTemplate, Bool.and_eq_true, Bool.or_eq_true, beq_iff_eq] at h
      rcases h.1 with rfl | rfl
      · rfl
      · rfl
    next => exact Reading.after_escapeChar closers c

/-- A quoted literal is neutral, whatever it holds. -/
theorem neutral_quote (s : String) : Neutral (quote s) :=
  neutral_between_quotes fun closers => Reading.after_escape closers s.toList

/-- A word in quotes is neutral. -/
theorem neutral_quotedWord {s : String} (h : IsWord s) : Neutral ("\"" ++ s ++ "\"") := by
  have hbody : Neutral (String.ofList ('"' :: s.toList ++ ['"'])) :=
    neutral_between_quotes fun closers =>
      Reading.after_literal (List.all_eq_true.2 fun c hc => isPlain_of_isWordChar (h c hc))
  rwa [List.cons_append, String.ofList_cons, String.ofList_append, String.ofList_toList,
    ← String.append_assoc] at hbody

/-- Without quotes and line feeds a text stays in its literal, whatever its backslashes escape. -/
theorem Reading.after_unquoted (closers : List Char) {cs : List Char}
    (h : ∀ c ∈ cs, c ≠ '"' ∧ c ≠ '\n') {r : Reading}
    (hr : r = ⟨.literal, closers⟩ ∨ r = ⟨.escaped, closers⟩) :
    r.after cs = some ⟨.literal, closers⟩ ∨ r.after cs = some ⟨.escaped, closers⟩ := by
  induction cs generalizing r with
  | nil => simpa using hr
  | cons c rest ih =>
    obtain ⟨⟨hquote, hfeed⟩, hrest⟩ := List.forall_mem_cons.1 h
    have hstep : r.step c = some ⟨.literal, closers⟩ ∨ r.step c = some ⟨.escaped, closers⟩ := by
      rcases hr with rfl | rfl
      · by_cases hbackslash : c = '\\'
        · exact Or.inr (by simp [Reading.step, hbackslash])
        · exact Or.inl (by simp [Reading.step, hbackslash, hquote, hfeed])
      · exact Or.inl (by simp [Reading.step, hfeed])
    rw [Reading.after_cons]
    rcases hstep with hstep | hstep
    · rw [hstep, Option.bind_some]
      exact ih hrest (Or.inl rfl)
    · rw [hstep, Option.bind_some]
      exact ih hrest (Or.inr rfl)

/-- A template with a name in it is neutral, unless the name holds a quote or a line feed. -/
theorem neutral_template {name : String} (h : ∀ c ∈ name.toList, c ≠ '"' ∧ c ≠ '\n') :
    Neutral ("\"$\x7bvar." ++ name ++ "\x7d\"") := by
  intro closers
  rw [String.toList_append, String.toList_append, List.append_assoc]
  show (⟨.literal, closers⟩ : Reading).after (name.toList ++ ['\x7d', '"']) = _
  rcases Reading.after_unquoted closers h (Or.inl rfl) with hname | hname
  · rw [Reading.after_append_of_some hname]
    rfl
  · rw [Reading.after_append_of_some hname]
    rfl

/-! ### Blanks at the end -/

theorem isInert_of_isBlank {c : Char} (h : isBlank c = true) : isInert c = true :=
  isInert_of_not_any (by decide) h

/-- If a line feed behind a blank leads to code, a line feed in its place leads there as well. -/
theorem Reading.step_of_step_blank {c : Char} (hc : isBlank c = true) {r next : Reading}
    (hstep : r.step c = some next) {closers : List Char}
    (hfeed : next.step '\n' = some ⟨.code, closers⟩) : r.step '\n' = some ⟨.code, closers⟩ := by
  cases hregion : r.region with
  | code =>
    have hsame : r.step c = some r := by
      unfold step
      rw [hregion]
      dsimp only
      rw [stepCode_of_inert (isInert_of_isBlank hc), ← hregion]
    rwa [← Option.some.inj (hsame.symm.trans hstep)] at hfeed
  | literal =>
    -- no blank closes a literal, so the reader would still be in it
    have hquote : c ≠ '"' := by
      rintro rfl
      exact absurd hc (by decide)
    have hbackslash : c ≠ '\\' := by
      rintro rfl
      exact absurd hc (by decide)
    simp only [step, hregion, hquote, hbackslash, if_false] at hstep
    split at hstep
    · cases hstep
    · rwa [← Option.some.inj hstep] at hfeed
  | escaped =>
    simp only [step, hregion] at hstep
    split at hstep
    · cases hstep
    · rw [← Option.some.inj hstep] at hfeed
      cases hfeed
  | remark =>
    simp only [step, hregion] at hstep
    split at hstep
    · rw [← Option.some.inj hstep] at hfeed
      simp only [step, hregion, if_true]
      exact hfeed
    · rwa [← Option.some.inj hstep] at hfeed

/-- A reader that stands in code behind some blanks would have stood there behind a line feed. -/
theorem Reading.step_of_after_blanks {closers : List Char} {blanks : List Char}
    (hblank : ∀ c ∈ blanks, isBlank c = true) {r : Reading}
    (h : r.after blanks = some ⟨.code, closers⟩) : r.step '\n' = some ⟨.code, closers⟩ := by
  induction blanks generalizing r with
  | nil =>
    obtain rfl : r = ⟨.code, closers⟩ := Option.some.inj h
    rfl
  | cons c rest ih =>
    obtain ⟨hc, hrest⟩ := List.forall_mem_cons.1 hblank
    rw [Reading.after_cons] at h
    obtain ⟨next, hstep, hnext⟩ := Option.bind_eq_some_iff.1 h
    exact step_of_step_blank hc hstep (ih hrest hnext)

theorem isLine_trimRight {s : String} (h : Neutral s) : IsLine (trimRight s) := by
  intro closers
  have hsplit : s.toList = trimRightOf isBlank s.toList ++
      (s.toList.reverse.takeWhile isBlank).reverse := by
    rw [trimRightOf, ← List.reverse_append, List.takeWhile_append_dropWhile, List.reverse_reverse]
  have hblank : ∀ c ∈ (s.toList.reverse.takeWhile isBlank).reverse, isBlank c = true := by
    intro c hc
    exact List.mem_takeWhile_imp (List.mem_reverse.1 hc)
  have hread := h closers
  rw [hsplit, Reading.after_append] at hread
  obtain ⟨r, hr, hafter⟩ := Option.bind_eq_some_iff.1 hread
  rw [trimRight, String.toList_append, String.toList_ofList, Reading.after_append_of_some hr]
  show (r.step '\n').bind _ = _
  rw [Reading.step_of_after_blanks hblank hafter]
  rfl

end Hcl
end HclExport
