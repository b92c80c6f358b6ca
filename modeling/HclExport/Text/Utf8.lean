import HclExport.Text.Padding

/-!
# Decoding UTF-8

The characters of a sequence of octets, read one octet at a time. The first octet of a
character fixes how many follow and which values the second one may have; the first
octet that does not fit is reported with the span that it spoils.

## Main definitions

* `Utf8Fault`, `Utf8Error` — what is wrong, and where.
* `Utf8.decode` — the text of a sequence of octets.
* `Utf8Error.message` — the error in words.
* `unifyLineBreaks` — one spelling for every line break.
-/

namespace HclExport

/-- What can be wrong with a sequence of octets. -/
inductive Utf8Fault
  | invalidStart
  | invalidContinuation
  | unexpectedEnd
  deriving DecidableEq

/-- A fault in the octets from `start` up to, but not including, `stop`; `first` is the
octet at `start`. -/
structure Utf8Error where
  fault : Utf8Fault
  first : UInt8
  start : Nat
  stop : Nat
  deriving DecidableEq

/-- The fault in words. -/
def Utf8Fault.words : Utf8Fault → String
  | .invalidStart => "invalid start byte"
  | .invalidContinuation => "invalid continuation byte"
  | .unexpectedEnd => "unexpected end of data"

/-- The error in words: the octet if it is a single one, and its position. -/
def Utf8Error.message (e : Utf8Error) : String :=
  let place :=
    if e.stop = e.start + 1 then
      let octet := String.ofList (hexDigits 2 e.first.toNat)
      s!"byte 0x{octet} in position {e.start}"
    else s!"bytes in position {e.start}-{e.stop - 1}"
  s!"'utf-8' codec can't decode {place}: {e.fault.words}"

namespace Utf8

/-- A character of which some octets have been read: how many more it needs, the bounds of
the next one, and the code so far. -/
structure Partial where
  first : UInt8
  start : Nat
  owed : Nat
  low : Nat
  high : Nat
  code : Nat

/-- The character that an octet above `0x7F` begins at a position. -/
def begin? (octet : UInt8) (position : Nat) : Option Partial :=
  let b := octet.toNat
  if b < 0xC2 then none
  else if b < 0xE0 then some ⟨octet, position, 1, 0x80, 0xBF, b - 0xC0⟩
  else if b < 0xF0 then
    let low := if b = 0xE0 then 0xA0 else 0x80
    let high := if b = 0xED then 0x9F else 0xBF
    some ⟨octet, position, 2, low, high, b - 0xE0⟩
  else if b < 0xF5 then
    let low := if b = 0xF0 then 0x90 else 0x80
    let high := if b = 0xF4 then 0x8F else 0xBF
    some ⟨octet, position, 3, low, high, b - 0xF0⟩
  else none

/-- Decode from a position on, inside a character or between two; `done` holds the
characters read so far, backwards. -/
def decodeFrom (done : List Char) (position : Nat) :
    Option Partial → List UInt8 → Except Utf8Error (List Char)
  | none, [] => .ok done.reverse
  | some p, [] => .error ⟨.unexpectedEnd, p.first, p.start, position⟩
  | none, octet :: rest =>
    if octet.toNat < 0x80 then
      decodeFrom (Char.ofNat octet.toNat :: done) (position + 1) none rest
    else match begin? octet position with
      | none => .error ⟨.invalidStart, octet, position, position + 1⟩
      | some p => decodeFrom done (position + 1) (some p) rest
  | some p, octet :: rest =>
    let b := octet.toNat
    if p.low ≤ b && b ≤ p.high then
      let code := p.code * 64 + (b - 0x80)
      if p.owed = 1 then decodeFrom (Char.ofNat code :: done) (position + 1) none rest
      else decodeFrom done (position + 1)
        (some ⟨p.first, p.start, p.owed - 1, 0x80, 0xBF, code⟩) rest
    else .error ⟨.invalidContinuation, p.first, p.start, position⟩

/-- The text of a sequence of octets. -/
def decode (octets : List UInt8) : Except Utf8Error String :=
  (decodeFrom [] 0 none octets).map String.ofList

@[simp] theorem decode_nil : decode [] = .ok "" := rfl

end Utf8

/-- Add the characters of a text to `done`, which is read backwards, with every line break
as one line feed. -/
def unifyLineBreaksOnto (done : List Char) : List Char → List Char
  | '\r' :: '\n' :: rest => unifyLineBreaksOnto ('\n' :: done) rest
  | '\r' :: rest => unifyLineBreaksOnto ('\n' :: done) rest
  | c :: rest => unifyLineBreaksOnto (c :: done) rest
  | [] => done.reverse

/-- The text with a line feed for every line break: a carriage return, alone or before a
line feed, is one. -/
def unifyLineBreaks (s : String) : String :=
  String.ofList (unifyLineBreaksOnto [] s.toList)

end HclExport
