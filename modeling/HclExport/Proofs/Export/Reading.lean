import HclExport.Export.Batch
import HclExport.Proofs.Json.Limits
import HclExport.Proofs.Text.Utf8

/-!
# Reading a batch file

A file that is missing, that is no JSON or that holds something else than a batch is a fault of the
configuration. Three kinds of files end in another way: those that are not text, and those whose
text goes beyond a limit of the reader.

## Main definitions

* `Batch.IsClean` — reading gives a batch or a fault of the configuration.

## Main results

* `Batch.kind_of_ofJson` — what is wrong with a value is a fault of the configuration.
* `Batch.read_isClean_iff` — **which files are read cleanly, and how reading ends otherwise.**
-/

namespace HclExport
namespace Batch

/-- A computation whose faults are faults of the configuration. -/
def Configures {α : Type} (outcome : Except Fault α) : Prop :=
  ∀ fault, outcome = .error fault → fault.kind = .configuration

namespace Configures

variable {α β : Type}

theorem ok (a : α) : Configures (.ok a) := by
  intro fault h
  cases h

theorem error {fault : Fault} (h : fault.kind = .configuration) :
    Configures (α := α) (.error fault) := by
  intro other hother
  cases hother
  exact h

theorem bind {x : Except Fault α} {f : α → Except Fault β} (h : Configures x)
    (hf : ∀ a, Configures (f a)) : Configures (x >>= f) := by
  cases x with
  | error fault => exact error (h fault rfl)
  | ok a => exact hf a

theorem mapM {f : α → Except Fault β} (hf : ∀ a, Configures (f a)) (xs : List α) :
    Configures (xs.mapM f) := by
  induction xs with
  | nil => exact ok _
  | cons x xs ih =>
    rw [List.mapM_cons]
    exact (hf x).bind fun y => ih.bind fun ys => ok (y :: ys)

end Configures

/-! ### Values -/

theorem configures_kindNamed (name : String) : Configures (kindNamed name) := by
  unfold kindNamed
  split
  · exact .ok _
  · exact .error rfl

theorem configures_documentsNamed (name : String) (kind : Kind) (items : List Json) :
    Configures (documentsNamed name kind items) := by
  induction items with
  | nil => exact .ok _
  | cons item rest ih =>
    cases item with
    | obj document => exact ih.bind fun found => .ok ((kind, document) :: found)
    | _ => exact .error rfl

/-- What is wrong with a value that holds no batch is a fault of the configuration. -/
theorem configures_ofJson (value : Json) : Configures (ofJson value) := by
  cases value with
  | obj entries =>
    refine (Configures.mapM (fun entry => ?_) entries).bind fun found => .ok _
    refine (configures_kindNamed entry.1).bind fun kind => ?_
    split
    · exact configures_documentsNamed _ _ _
    · exact .error rfl
  | _ => exact .error rfl

/-! ### Files -/

/-- Reading gives a batch or a fault of the configuration. -/
def IsClean : Except Failure Batch → Prop
  | .ok _ => True
  | .error (.fault fault) => fault.kind = .configuration
  | .error _ => False

/-- How reading ends that is not clean, given the octets: they are not text, or the text goes beyond
a limit of the reader. -/
inductive Breaks (octets : List UInt8) : Failure → Prop
  | undecodable (e : Utf8Error) (h : ∀ text : String, octets.toByteArray ≠ text.toUTF8) :
    Breaks octets (.undecodable e)
  | limit (text : String) (e : JsonError) (htext : octets.toByteArray = text.toUTF8)
    (hread : Json.read (unifyLineBreaks text) = .error e)
    (hlimit : e = .tooDeep ∨ ∃ count, e = .tooManyDigits count) :
    Breaks octets (.ofJsonError (unifyLineBreaks text) e)

/-- Octets that are no text are not read cleanly. -/
theorem ofOctets_of_decode_error {octets : List UInt8} {e : Utf8Error}
    (h : Utf8.decode octets = .error e) (path : String) :
    ofOctets path octets = .error (.undecodable e) ∧ Breaks octets (.undecodable e) := by
  constructor
  · unfold ofOctets
    rw [h]
  · refine .undecodable e fun text htext => ?_
    rw [Utf8.decode_eq_ok_iff.2 htext] at h
    cases h

section Text

variable {octets : List UInt8} {text : String}

/-- Octets of a text that is no JSON, or goes beyond a limit of the reader. -/
theorem ofOctets_of_read_error (htext : octets.toByteArray = text.toUTF8) (path : String)
    {e : JsonError} :
    Json.read (unifyLineBreaks text) = .error e → ofOctets path octets =
      match e with
      | .malformed complaint offset => .error (.fault (unreadable path
          (JsonError.message (unifyLineBreaks text) (.malformed complaint offset))))
      | e => .error (.ofJsonError (unifyLineBreaks text) e) := by
  intro hread
  unfold ofOctets
  rw [Utf8.decode_eq_ok_iff.2 htext]
  dsimp only
  rw [hread]
  cases e <;> rfl

/-- Octets of a text are read cleanly unless the text goes beyond a limit of the reader. -/
theorem isClean_ofOctets_iff (htext : octets.toByteArray = text.toUTF8) (path : String) :
    IsClean (ofOctets path octets) ↔ ∀ e, Json.read (unifyLineBreaks text) = .error e →
      ∃ complaint offset, e = .malformed complaint offset := by
  cases hread : Json.read (unifyLineBreaks text) with
  | ok value =>
    refine iff_of_true ?_ fun e he => by cases he
    unfold ofOctets
    rw [Utf8.decode_eq_ok_iff.2 htext]
    dsimp only
    rw [hread]
    dsimp only
    cases hbatch : ofJson value with
    | ok batch => exact trivial
    | error fault => exact configures_ofJson value fault hbatch
  | error e =>
    rw [ofOctets_of_read_error htext path hread]
    cases e with
    | malformed complaint offset =>
      exact iff_of_true rfl fun e he => ⟨_, _, (Except.error.inj he).symm⟩
    | tooManyDigits count => exact iff_of_false id fun h => by simpa using h _ rfl
    | tooDeep => exact iff_of_false id fun h => by simpa using h _ rfl

end Text

/-- How reading ends that is not clean. -/
theorem exists_breaks {path : String} {octets : List UInt8}
    (h : ¬ IsClean (ofOctets path octets)) :
    ∃ failure, ofOctets path octets = .error failure ∧ Breaks octets failure := by
  cases hdecode : Utf8.decode octets with
  | error e => exact ⟨.undecodable e, ofOctets_of_decode_error hdecode path⟩
  | ok text =>
    have htext := Utf8.decode_eq_ok_iff.1 hdecode
    cases hread : Json.read (unifyLineBreaks text) with
    | ok value =>
      have hclean := (isClean_ofOctets_iff htext path).2 fun e he => by simp [hread] at he
      exact absurd hclean h
    | error e =>
      have hfailure := ofOctets_of_read_error htext path hread
      cases e with
      | malformed complaint offset =>
        rw [hfailure] at h
        exact absurd rfl h
      | tooManyDigits count =>
        exact ⟨_, hfailure, .limit text _ htext hread (Or.inr ⟨count, rfl⟩)⟩
      | tooDeep => exact ⟨_, hfailure, .limit text _ htext hread (Or.inl rfl)⟩

/-- **Which files are read cleanly.** Reading a file gives a batch or a fault of the configuration
if and only if the file is missing, or its octets are those of a text which, with a line feed for
every line break, does not go beyond a limit of the reader. Otherwise reading fails in another way:
the octets are no text, or an integer has too many digits, or values stand too deep inside each
other. A text without that many digits in a row, and without that many opening brackets and braces,
is within the limits. -/
theorem read_isClean_iff (path : String) (octets? : Option (List UInt8)) :
    (IsClean (read path octets?) ↔ ∀ octets, octets? = some octets →
      ∃ text : String, octets.toByteArray = text.toUTF8 ∧
        ∀ e, Json.read (unifyLineBreaks text) = .error e →
          ∃ complaint offset, e = .malformed complaint offset) ∧
    (¬ IsClean (read path octets?) → ∃ octets failure, octets? = some octets ∧
      read path octets? = .error failure ∧ Breaks octets failure) ∧
    (∀ octets, ∀ text : String, octets? = some octets → octets.toByteArray = text.toUTF8 →
      Json.IsModest (unifyLineBreaks text) → IsClean (read path octets?)) := by
  cases octets? with
  | none =>
    have hmissing : IsClean (read path none) := rfl
    exact ⟨iff_of_true hmissing (by simp), fun h => absurd hmissing h, by simp⟩
  | some octets =>
    refine ⟨⟨?_, ?_⟩, ?_, ?_⟩
    · rintro hclean _ ⟨⟩
      cases hdecode : Utf8.decode octets with
      | error e =>
        have hbroken : IsClean (ofOctets path octets) := hclean
        rw [(ofOctets_of_decode_error hdecode path).1] at hbroken
        exact hbroken.elim
      | ok text =>
        have htext := Utf8.decode_eq_ok_iff.1 hdecode
        exact ⟨text, htext, (isClean_ofOctets_iff htext path).1 hclean⟩
    · intro h
      obtain ⟨text, htext, hwithin⟩ := h octets rfl
      exact (isClean_ofOctets_iff htext path).2 hwithin
    · intro h
      obtain ⟨failure, hfailure, hbreaks⟩ := exists_breaks h
      exact ⟨octets, failure, rfl, hfailure, hbreaks⟩
    · rintro _ text ⟨⟩ htext hmodest
      exact (isClean_ofOctets_iff htext path).2 fun e he => Json.malformed_of_read hmodest he

/-- **A file that holds an octet which begins no character is not read cleanly:** that is neither a
batch nor a fault of the configuration. -/
theorem read_not_clean :
    read "batch.json" (some [0xFF]) = .error (.undecodable ⟨.invalidStart, 0xFF, 0, 1⟩) ∧
      ¬ IsClean (read "batch.json" (some [0xFF])) :=
  ⟨rfl, id⟩

end Batch
end HclExport
