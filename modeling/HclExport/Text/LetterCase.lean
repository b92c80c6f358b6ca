import HclExport.Text.LetterCase.Table

/-!
# Letter case

Small and capital forms of a whole text by the mappings of Unicode. A capital sigma
that ends a word becomes the final sigma; everything else is mapped letter by letter.

## Main definitions

* `lowerChar`, `upperChar` — the forms of one character.
* `endsWord` — whether a capital sigma between two stretches of text ends a word.
* `lower`, `upper` — the forms of a text.
-/

namespace HclExport
namespace LetterCase

/-- The distance that the first matching run gives for a code point, zero without one. -/
def shiftOf : List CaseRun → Nat → Int
  | [], _ => 0
  | run :: rest, n =>
    if n < run.first then 0
    else if n ≤ run.last && (n - run.first) % run.step == 0 then run.shift
    else shiftOf rest n

/-- The character at a distance from a given one. -/
def moved (c : Char) (shift : Int) : Char :=
  Char.ofNat (c.toNat + shift).toNat

/-- The small form of one character, wherever it stands. -/
def lowerChar (c : Char) : List Char :=
  if c.toNat < 0x80 then [c.toLower]
  else if c.toNat = 0x130 then ['i', Char.ofNat 0x307]
  else [moved c (shiftOf lowerRuns c.toNat)]

/-- The capital form of one character. -/
def upperChar (c : Char) : List Char :=
  if c.toNat < 0x80 then [c.toUpper]
  else match upperExpansions.lookup c.toNat with
    | some codes => codes.map Char.ofNat
    | none => [moved c (shiftOf upperRuns c.toNat)]

/-- Whether the first character that is not ignored is a cased one. -/
def meetsCased (cs : List Char) : Bool :=
  match cs.dropWhile caseIgnorableRanges.covers with
  | [] => false
  | c :: _ => casedRanges.covers c

/-- A capital sigma ends a word when a cased character stands before it (`before` is
read backwards) and none follows. -/
def endsWord (before after : List Char) : Bool :=
  meetsCased before && !meetsCased after

/-- The small form of a text; `before` holds what precedes it, backwards. -/
def lowerChars (before : List Char) : List Char → List Char
  | [] => []
  | c :: rest =>
    (if c = 'Σ' then [if endsWord before rest then 'ς' else 'σ'] else lowerChar c) ++
      lowerChars (c :: before) rest

@[simp] theorem lowerChars_nil (before : List Char) : lowerChars before [] = [] := rfl

end LetterCase

/-- The text in small letters. -/
def lower (s : String) : String :=
  String.ofList (LetterCase.lowerChars [] s.toList)

/-- The text in capital letters. -/
def upper (s : String) : String :=
  String.ofList (s.toList.flatMap LetterCase.upperChar)

end HclExport
