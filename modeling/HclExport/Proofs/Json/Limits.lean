import HclExport.Json.Reader
import Mathlib.Data.List.Infix

/-!
# What can be wrong with a text

The reader of JSON goes through a text from its start to its end: what it leaves of it is an end of
it. So what is wrong, if it is more than a complaint about the grammar, stands in the text: a run of
digits as long as is said, or more opening brackets and braces than values may stand inside each
other.

## Main definitions

* `openers` — the opening brackets and braces of a text.
* `JsonError.StandsIn` — what is wrong with a text can be found in it.
* `JsonReader.Reads` — a reader leaves an end of its text, or what is wrong can be found in it.
* `Json.IsModest` — texts without very long runs of digits and without very many openers.

## Main results

* `JsonReader.reads_atom`, `JsonReader.reads_value_elements_members` — the readers, from numbers to
  values.
* `Json.malformed_of_read` — **modest texts meet no limit of the reader.**
-/

namespace HclExport

/-- The opening brackets and braces of a text. -/
def openers (cs : List Char) : Nat :=
  cs.countP fun c => c == '[' || c == '\x7b'

/-- What is wrong with a text can be found in it: where the grammar is kept, too many digits in a
row, or more openers than there is room for values inside each other. -/
def JsonError.StandsIn (room : Nat) (cs : List Char) : JsonError → Prop
  | .malformed _ _ => True
  | .tooManyDigits count => Number.digitLimit < count ∧
      ∃ run, run <:+: cs ∧ run.length = count ∧ ∀ c ∈ run, c.isDigit = true
  | .tooDeep => room < openers cs

namespace JsonReader

/-- A reader leaves an end of its text, or what is wrong can be found in it. -/
def Reads {α : Type} (room : Nat) (cs : List Char) : Except JsonError (α × List Char) → Prop
  | .ok found => found.2 <:+ cs
  | .error e => e.StandsIn room cs

section Reads

variable {α β : Type} {room : Nat} {cs inside : List Char}

theorem reads_complain (complaint : JsonComplaint) (rest : List Char) :
    Reads room cs (complain (α := α × List Char) complaint rest) :=
  trivial

/-- What stands in an end of a text stands in the text. -/
theorem standsIn_of_suffix {e : JsonError} (h : e.StandsIn room inside) (hsuffix : inside <:+ cs) :
    e.StandsIn room cs := by
  cases e with
  | malformed complaint offset => trivial
  | tooManyDigits count =>
    obtain ⟨hlimit, run, hrun, hlength, hdigits⟩ := h
    exact ⟨hlimit, run, hrun.trans hsuffix.isInfix, hlength, hdigits⟩
  | tooDeep => exact Nat.lt_of_lt_of_le h hsuffix.sublist.countP_le

namespace Reads

variable {x : Except JsonError (α × List Char)}

theorem of_suffix (h : Reads room inside x) (hsuffix : inside <:+ cs) : Reads room cs x := by
  cases x with
  | error e => exact standsIn_of_suffix h hsuffix
  | ok found => exact List.IsSuffix.trans h hsuffix

/-- One reader after another. -/
theorem bind {f : α × List Char → Except JsonError (β × List Char)} (h : Reads room cs x)
    (hf : ∀ a rest, rest <:+ cs → Reads room rest (f (a, rest))) : Reads room cs (x >>= f) := by
  cases x with
  | error e => exact h
  | ok found => exact (hf found.1 found.2 h).of_suffix h

theorem map (h : Reads room cs x) (f : α → β) :
    Reads room cs (x.map fun (a, rest) => (f a, rest)) := by
  cases x with
  | error e => exact h
  | ok found => exact h

/-- An opener that is read makes up for the room that it takes. -/
theorem opened {c : Char} {rest : List Char} (hc : c = '[' ∨ c = '\x7b')
    (h : Reads (room - 1) inside x) (hsuffix : inside <:+ rest) : Reads room (c :: rest) x := by
  have hopener : openers (c :: rest) = openers rest + 1 := by
    rcases hc with rfl | rfl <;> simp [openers]
  cases x with
  | ok found => exact (List.IsSuffix.trans h hsuffix).trans (List.suffix_cons _ _)
  | error e =>
    have hrest := standsIn_of_suffix h hsuffix
    cases e with
    | malformed complaint offset => trivial
    | tooManyDigits count =>
      have hstands : (JsonError.tooManyDigits count).StandsIn (room - 1) (c :: rest) :=
        standsIn_of_suffix hrest (List.suffix_cons c rest)
      exact hstands
    | tooDeep =>
      have hcount : room - 1 < openers rest := hrest
      show room < openers (c :: rest)
      omega

end Reads

end Reads

/-! ### Numbers -/

theorem skipSpace_suffix (cs : List Char) : skipSpace cs <:+ cs :=
  List.dropWhile_suffix _

theorem takeWhole_eq_some {cs whole rest : List Char} (h : takeWhole cs = some (whole, rest)) :
    cs = whole ++ rest ∧ ∀ c ∈ whole, c.isDigit = true := by
  unfold takeWhole at h
  split at h
  · cases h
  next c more =>
    split at h
    next hzero =>
      cases h
      rw [hzero]
      exact ⟨rfl, by simp⟩
    next =>
      split at h
      · cases h
        exact ⟨(List.takeWhile_append_dropWhile).symm, List.all_eq_true.1 List.all_takeWhile⟩
      · cases h

theorem takeFraction_suffix (cs : List Char) : (takeFraction cs).2 <:+ cs := by
  unfold takeFraction
  split
  next rest =>
    split
    · exact List.suffix_refl _
    · exact (List.dropWhile_suffix _).trans (List.suffix_cons _ _)
  · exact List.suffix_refl _

theorem takeSign_suffix (cs : List Char) : (takeSign cs).2 <:+ cs := by
  unfold takeSign
  split
  · exact List.suffix_cons _ _
  · exact List.suffix_cons _ _
  · exact List.suffix_refl _

theorem takeExponent_suffix (cs : List Char) : (takeExponent cs).2 <:+ cs := by
  unfold takeExponent
  split
  · exact List.suffix_refl _
  next c rest =>
    split
    · have hdigits : (takeDigits (takeSign rest).2).2 <:+ c :: rest :=
        (List.dropWhile_suffix _).trans ((takeSign_suffix rest).trans (List.suffix_cons _ _))
      dsimp only
      split
      · exact List.suffix_refl _
      next heq =>
        rw [heq] at hdigits
        exact hdigits
    · exact List.suffix_refl _

/-- A number is read, or it has too many digits, or there is none. -/
theorem reads_magnitude {room : Nat} {negative : Bool} {cs : List Char}
    {found : Except JsonError Number × List Char} (h : magnitude negative cs = some found) :
    Reads room cs (found.1.map fun n => (n, found.2)) := by
  unfold magnitude at h
  obtain ⟨⟨whole, afterWhole⟩, hwhole, rfl⟩ := Option.map_eq_some_iff.1 h
  obtain ⟨rfl, hdigits⟩ := takeWhole_eq_some hwhole
  have hrest : (takeExponent (takeFraction afterWhole).2).2 <:+ whole ++ afterWhole :=
    (takeExponent_suffix _).trans ((takeFraction_suffix _).trans (List.suffix_append _ _))
  dsimp only
  split
  · split
    next hlimit => exact ⟨hlimit, whole, (List.prefix_append _ _).isInfix, rfl, hdigits⟩
    · exact hrest
  · exact hrest

/-! ### Texts -/

theorem takeCode_suffix {cs rest : List Char} {code : Nat} (h : takeCode cs = some (code, rest)) :
    rest <:+ cs := by
  unfold takeCode at h
  split at h
  next a b c d e more =>
    simp only [Option.bind_eq_bind, Option.bind_eq_some_iff, Option.pure_def, Option.some.injEq,
      Prod.mk.injEq] at h
    obtain ⟨-, -, -, -, -, -, -, -, -, rfl⟩ := h
    exact ⟨[a, b, c, d], rfl⟩
  · cases h

theorem takeSecondCode_suffix {cs rest : List Char} (h : takeSecondCode cs = some rest) :
    rest <:+ cs := by
  unfold takeSecondCode at h
  split at h
  next a b c d e more =>
    cases h
    exact ⟨['\\', 'u'], rfl⟩
  · cases h

theorem reads_codeEscape (room : Nat) (cs : List Char) : Reads room cs (codeEscape cs) := by
  unfold codeEscape
  split
  · exact reads_complain _ _
  next high rest hcode =>
    have hrest := takeCode_suffix hcode
    split
    · exact hrest
    split
    · exact hrest
    split
    · exact hrest
    next more hmore =>
      split
      · exact reads_complain _ _
      next low after hlow =>
        split
        · exact (takeCode_suffix hlow).trans ((takeSecondCode_suffix hmore).trans hrest)
        · exact hrest

theorem reads_textBody (room : Nat) (opening : List Char) (fuel : Nat) (done cs : List Char) :
    Reads room cs (textBody opening fuel done cs) := by
  induction fuel generalizing done cs with
  | zero => exact reads_complain _ _
  | succ fuel ih =>
    cases cs with
    | nil => exact reads_complain _ _
    | cons c rest =>
      have hrest : rest <:+ c :: rest := List.suffix_cons _ _
      rw [textBody.eq_def]
      dsimp only
      split
      · exact hrest
      split
      · split
        · exact reads_complain _ _
        next e more =>
          have hmore : more <:+ c :: e :: more := (List.suffix_cons _ _).trans hrest
          split
          · exact ((reads_codeEscape room more).of_suffix hmore).bind fun _ after _ => ih _ after
          · split
            · exact (ih _ more).of_suffix hmore
            · exact reads_complain _ _
      · split
        · exact reads_complain _ _
        · exact (ih _ rest).of_suffix hrest

theorem reads_text (room : Nat) (opening rest : List Char) :
    Reads room rest (text opening rest) :=
  reads_textBody room opening _ _ rest

/-! ### Values -/

theorem afterWord_suffix {word : String} {cs rest : List Char} (h : afterWord word cs = some rest) :
    rest <:+ cs := by
  unfold afterWord at h
  split at h
  · cases h
    exact List.drop_suffix _ _
  · cases h

/-- A number is read whatever its sign. -/
theorem reads_number (room : Nat) {cs : List Char} {found : Except JsonError Number × List Char}
    (hfound : (match cs with
      | '-' :: rest => magnitude true rest
      | _ => magnitude false cs) = some found) :
    Reads room cs (found.1.map fun n => (n, found.2)) := by
  split at hfound
  · exact (reads_magnitude hfound).of_suffix (List.suffix_cons _ _)
  · exact reads_magnitude hfound

theorem reads_atom (room : Nat) (cs : List Char) : Reads room cs (atom cs) := by
  unfold atom
  dsimp only
  split
  next found hfound =>
    obtain ⟨entry, -, hentry⟩ := List.exists_of_findSome?_eq_some hfound
    obtain ⟨rest, hrest, rfl⟩ := Option.map_eq_some_iff.1 hentry
    exact afterWord_suffix hrest
  · split
    · exact reads_complain _ _
    next hfound => exact reads_number room hfound
    next hfound => exact reads_number room hfound

/-- The readers of values, of elements and of members, for one bound on their steps. -/
theorem reads_value_elements_members (fuel : Nat) :
    (∀ room cs, Reads room cs (value room fuel cs)) ∧
    (∀ room cs, Reads room cs (elements room fuel cs)) ∧
    (∀ room done cs, Reads room cs (members room fuel done cs)) := by
  induction fuel with
  | zero =>
    refine ⟨fun _ _ => ?_, fun _ _ => ?_, fun _ _ _ => ?_⟩
    · rw [value]; exact reads_complain _ _
    · rw [elements]; exact reads_complain _ _
    · rw [members]; exact reads_complain _ _
  | succ fuel ih =>
    obtain ⟨hvalue, helements, hmembers⟩ := ih
    refine ⟨?_, ?_, ?_⟩
    · intro room cs
      cases cs with
      | nil => rw [value]; exact reads_complain _ _
      | cons c rest =>
        have hrest : rest <:+ c :: rest := List.suffix_cons _ _
        have hspace := skipSpace_suffix rest
        rw [value.eq_def]
        dsimp only
        split
        · exact ((reads_text room _ rest).of_suffix hrest).map _
        split
        next hdeep =>
          simp only [Bool.and_eq_true, Bool.or_eq_true, decide_eq_true_eq] at hdeep
          obtain ⟨hopener, rfl⟩ := hdeep
          show 0 < openers (c :: rest)
          rcases hopener with rfl | rfl <;> simp [openers]
        split
        next hbracket =>
          split
          next after hafter =>
            rw [hafter] at hspace
            exact ((List.suffix_cons _ _).trans hspace).trans hrest
          · exact (Reads.opened (Or.inl hbracket) (helements _ _) hspace).map _
        split
        next hbrace =>
          split
          next after hafter =>
            rw [hafter] at hspace
            exact ((List.suffix_cons _ _).trans hspace).trans hrest
          · exact (Reads.opened (Or.inr hbrace) (hmembers _ _ _) hspace).map _
        · exact reads_atom room _
    · intro room cs
      rw [elements]
      refine (hvalue room cs).bind fun item rest _ => ?_
      have hspace := skipSpace_suffix rest
      dsimp only
      split
      next after hafter =>
        rw [hafter] at hspace
        exact (List.suffix_cons _ _).trans hspace
      next more hmore =>
        rw [hmore] at hspace
        have hinside := (skipSpace_suffix more).trans ((List.suffix_cons _ _).trans hspace)
        exact ((helements room _).of_suffix hinside).map _
      · exact reads_complain _ _
    · intro room done cs
      rw [members.eq_def]
      dsimp only
      split
      next rest =>
        refine Reads.bind ((reads_text room _ rest).of_suffix (List.suffix_cons _ _)) ?_
        intro key afterKey _
        have hkey := skipSpace_suffix afterKey
        dsimp only
        split
        next beforeValue hcolon =>
          rw [hcolon] at hkey
          have hbefore := (skipSpace_suffix beforeValue).trans ((List.suffix_cons _ _).trans hkey)
          refine ((hvalue room _).of_suffix hbefore).bind fun item afterValue _ => ?_
          have hafter := skipSpace_suffix afterValue
          split
          next after hbrace =>
            rw [hbrace] at hafter
            exact (List.suffix_cons _ _).trans hafter
          next more hmore =>
            rw [hmore] at hafter
            have hinside := (skipSpace_suffix more).trans ((List.suffix_cons _ _).trans hafter)
            exact (hmembers room _ _).of_suffix hinside
          · exact reads_complain _ _
        · exact reads_complain _ _
      · exact reads_complain _ _

/-- What is wrong with a whole text can be found in it. -/
theorem standsIn_of_document {cs : List Char} {e : JsonError} (h : document cs = .error e) :
    e.StandsIn nestingLimit cs := by
  have hreads := (reads_value_elements_members (2 * cs.length + 2)).1 nestingLimit (skipSpace cs)
  have hspace := skipSpace_suffix cs
  unfold document at h
  split at h
  · cases h
    trivial
  cases hvalue : value nestingLimit (2 * cs.length + 2) (skipSpace cs) with
  | error inner =>
    simp only [hvalue, bind, Except.bind] at h
    cases h
    rw [hvalue] at hreads
    exact standsIn_of_suffix hreads hspace
  | ok found =>
    -- the only complaint after a value is that the text goes on
    simp only [hvalue, bind, Except.bind] at h
    split at h
    · cases h
    · cases h
      trivial

end JsonReader

/-- A text is modest if it has no more digits in a row than an integer may have, and no more openers
than values may stand inside each other. -/
structure Json.IsModest (text : String) : Prop where
  digits : ∀ run, run <:+: text.toList → (∀ c ∈ run, c.isDigit = true) →
    run.length ≤ Number.digitLimit
  openers : openers text.toList ≤ JsonReader.nestingLimit

/-- **Modest texts meet no limit of the reader:** if one cannot be read, that is because of its
grammar. -/
theorem Json.malformed_of_read {text : String} (hmodest : Json.IsModest text) {e : JsonError}
    (h : Json.read text = .error e) : ∃ complaint offset, e = .malformed complaint offset := by
  unfold Json.read at h
  cases hdocument : JsonReader.document text.toList with
  | ok value =>
    rw [hdocument] at h
    cases h
  | error inner =>
    rw [hdocument] at h
    have hstands := JsonReader.standsIn_of_document hdocument
    obtain rfl : inner.fromStart text.length = e := Except.error.inj h
    cases inner with
    | malformed complaint offset => exact ⟨_, _, rfl⟩
    | tooManyDigits count =>
      obtain ⟨hlimit, run, hrun, rfl, hdigits⟩ := hstands
      exact absurd (hmodest.digits run hrun hdigits) (Nat.not_le.2 hlimit)
    | tooDeep => exact absurd hmodest.openers (Nat.not_le.2 hstands)

end HclExport
