/-!
# Padding

Texts and digits brought to a least width.

## Main definitions

* `spaces`, `padRight`, `padLeft` — texts filled up with spaces.
* `hexDigits` — digits in base sixteen filled up with zeros.
* `natText` — a count filled up on its left.
-/

namespace HclExport

/-- A run of spaces. -/
def spaces (n : Nat) : String :=
  String.ofList (List.replicate n ' ')

/-- The text with spaces behind it, at least `width` characters in all. -/
def padRight (width : Nat) (s : String) : String :=
  s ++ spaces (width - s.length)

/-- The text with spaces before it, at least `width` characters in all. -/
def padLeft (width : Nat) (s : String) : String :=
  spaces (width - s.length) ++ s

/-- The digits of a number in base sixteen, at least `width` of them. -/
def hexDigits (width n : Nat) : List Char :=
  let digits := Nat.toDigits 16 n
  List.replicate (width - digits.length) '0' ++ digits

/-- The digits of a number in base sixteen with capital letters. -/
def capitalHexDigits (width n : Nat) : List Char :=
  (hexDigits width n).map Char.toUpper

/-- A count in decimal digits, at least `width` characters in all. -/
def natText (width n : Nat) : String :=
  padLeft width (toString n)

end HclExport
