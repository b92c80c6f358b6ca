/-!
# Control sequences

A terminal takes an escape character and a bracket as the start of a control sequence, which
says how text is shown. What is printed has none, since it need not go to a terminal.

## Main definitions

* `controlLength?` — the length of the control sequence at the start of a text.
* `withoutControls` — a text without its control sequences.
-/

namespace HclExport

/-- The characters with which the parameters of a control sequence are written. -/
def isControlParameter (c : Char) : Bool :=
  '0' ≤ c && c ≤ '?'

/-- The characters that may stand between the parameters and the end. -/
def isControlMiddle (c : Char) : Bool :=
  ' ' ≤ c && c ≤ '/'

/-- The characters that end a control sequence. -/
def isControlEnd (c : Char) : Bool :=
  '@' ≤ c && c ≤ '~'

/-- The length of the control sequence at the start of a text, if one stands there: an escape
character and a bracket, parameters, middle characters, and one that ends it. -/
def controlLength? : List Char → Option Nat
  | '\x1b' :: '[' :: rest =>
    let parameters := (rest.takeWhile isControlParameter).length
    let middle := ((rest.drop parameters).takeWhile isControlMiddle).length
    match rest.drop (parameters + middle) with
    | [] => none
    | c :: _ => if isControlEnd c then some (parameters + middle + 3) else none
  | _ => none

/-- The text without its control sequences; `skip` characters of a sequence are still to be
passed over. -/
def dropControls : Nat → List Char → List Char
  | _, [] => []
  | skip + 1, _ :: rest => dropControls skip rest
  | 0, c :: rest =>
    match controlLength? (c :: rest) with
    | some length => dropControls (length - 1) rest
    | none => c :: dropControls 0 rest

/-- A text without its control sequences. -/
def withoutControls (s : String) : String :=
  String.ofList (dropControls 0 s.toList)

/-- A text without the escape character has no control sequence. -/
theorem dropControls_of_not_mem {cs : List Char} (h : '\x1b' ∉ cs) : dropControls 0 cs = cs := by
  induction cs with
  | nil => rfl
  | cons c rest ih =>
    rw [List.mem_cons, not_or] at h
    have hNone : controlLength? (c :: rest) = none := by
      unfold controlLength?
      split
      · next heq => exact absurd (List.cons.inj heq).1.symm h.1
      · rfl
    simp [dropControls, hNone, ih h.2]

end HclExport
