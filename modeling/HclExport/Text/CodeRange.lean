/-!
# Sets of code points

A set of code points is written as the ascending list of its inclusive ranges, the
form in which properties of characters are tabulated.

## Main definitions

* `CodeRanges` — ascending, disjoint, inclusive ranges.
* `CodeRanges.covers` — membership of a character.
-/

namespace HclExport

/-- Ascending, disjoint, inclusive ranges of code points. -/
abbrev CodeRanges := List (Nat × Nat)

namespace CodeRanges

/-- Whether a code point lies in one of the ranges; the search stops at the first
range that starts above it. -/
def coversCode : CodeRanges → Nat → Bool
  | [], _ => false
  | (first, last) :: rest, n =>
    if n < first then false else if n ≤ last then true else coversCode rest n

@[simp] theorem coversCode_nil (n : Nat) : coversCode [] n = false := rfl

/-- Whether a character lies in one of the ranges. -/
def covers (ranges : CodeRanges) (c : Char) : Bool :=
  coversCode ranges c.toNat

end CodeRanges

end HclExport
