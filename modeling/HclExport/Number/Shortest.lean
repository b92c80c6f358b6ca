import HclExport.Number.Binary64

/-!
# The shortest decimal that reads back

A finite number is printed with the fewest significant digits that read back as the
same number; of two candidates the nearer one, and the even one at equal distance.

## Main definitions

* `Shortest.Interval` — the reals that round to a number, on an integer scale.
* `Shortest.decimal` — the digits and the place of the decimal point.
* `RealLayout`, `RealLayout.document` — where a decimal is written with an exponent.
* `Binary64.text` — the text of a number.
-/

namespace HclExport
namespace Shortest

/-- The reals that round to `significand * 2 ^ exponent`, multiplied by `4 / 2 ^ exponent`:
the ends belong to it when the significand is even. -/
structure Interval where
  low : Nat
  value : Nat
  high : Nat
  closed : Bool

/-- The interval of a number. Below a power of two the numbers are twice as dense. -/
def interval (significand : Nat) (exponent : Int) : Interval where
  low := if significand = Nat.pow 2 52 && Binary64.leastExponent < exponent then
      4 * significand - 1
    else 4 * significand - 2
  value := 4 * significand
  high := 4 * significand + 2
  closed := significand % 2 == 0

/-- The numerator and denominator of a power. -/
def powerRatio (base : Nat) : Int → Nat × Nat
  | .ofNat e => (base.pow e, 1)
  | .negSucc e => (1, base.pow (e + 1))

/-- The least `k ≤ start + fuel` from `start` on with `den ≤ num * 10 ^ k`. -/
def leadingZeros (num den : Nat) : Nat → Nat → Nat
  | 0, k => k
  | fuel + 1, k => if den ≤ num * Nat.pow 10 k then k else leadingZeros num den fuel (k + 1)

/-- The place of the first digit: `10 ^ (place - 1) ≤ num / den < 10 ^ place`. -/
def firstPlace (num den : Nat) : Int :=
  if den ≤ num then (Nat.toDigits 10 (num / den)).length
  else 1 - (leadingZeros num den 400 1 : Int)

/-- Of the two neighbours of a value on a decimal grid, the one to print, if either lies
in the interval; `unit` and `grid` bring interval and grid to a common scale. -/
def neighbour (iv : Interval) (unit grid : Nat) : Option Nat :=
  let below := iv.value * unit / grid
  let above := below + 1
  let inside (t : Nat) : Bool :=
    if iv.closed then iv.low * unit ≤ t * grid && t * grid ≤ iv.high * unit
    else iv.low * unit < t * grid && t * grid < iv.high * unit
  let downward := iv.value * unit - below * grid
  let upward := above * grid - iv.value * unit
  match inside below, inside above with
  | true, true =>
    if downward < upward then some below
    else if upward < downward then some above
    else some (below + below % 2)
  | true, false => some below
  | false, true => some above
  | false, false => none

/-- The first of the grids with `count`, `count + 1`, … digits that has a point to print,
with the exponent of that grid. -/
def search (iv : Interval) (exponent place : Int) : Nat → Nat → Nat × Int
  | 0, _ => (0, 0)
  | fuel + 1, count =>
    let gridExponent := place - count
    let (p2, q2) := powerRatio 2 (exponent - 2)
    let (p10, q10) := powerRatio 10 gridExponent
    match neighbour iv (p2 * q10) (p10 * q2) with
    | some t => (t, gridExponent)
    | none => search iv exponent place fuel (count + 1)

/-- The significant digits of a positive number and the place of its decimal point,
counted from the first digit. -/
def decimal (significand : Nat) (exponent : Int) : List Char × Int :=
  let (p2, q2) := powerRatio 2 exponent
  let place := firstPlace (significand * p2) q2
  let (t, gridExponent) := search (interval significand exponent) exponent place 17 1
  let digits := Nat.toDigits 10 t
  ((digits.reverse.dropWhile (· == '0')).reverse, digits.length + gridExponent)

end Shortest

/-! ### Layout -/

/-- Where a decimal is written with an exponent: below `positionalFrom` and from
`positionalBelow` on, with at least `exponentDigits` digits in the exponent. -/
structure RealLayout where
  positionalFrom : Int
  positionalBelow : Int
  exponentDigits : Nat

/-- Numbers in documents are positional from `0.0001` on and below `10 ^ 16`, and an
exponent has at least two digits. -/
def RealLayout.document : RealLayout := ⟨-4, 16, 2⟩

namespace RealLayout

/-- Digits around a decimal point at `point`; a whole number keeps one zero. -/
def positional (digits : List Char) (point : Int) : List Char :=
  if point ≤ 0 then '0' :: '.' :: List.replicate (-point).toNat '0' ++ digits
  else
    let whole := point.toNat
    if digits.length ≤ whole then
      digits ++ List.replicate (whole - digits.length) '0' ++ ['.', '0']
    else digits.take whole ++ '.' :: digits.drop whole

/-- Digits with the point after the first one and the exponent behind. -/
def scientific (layout : RealLayout) (digits : List Char) (exponent : Int) : List Char :=
  let tail := match digits.drop 1 with
    | [] => []
    | more => '.' :: more
  let magnitude := Nat.toDigits 10 exponent.natAbs
  let sign := if exponent < 0 then '-' else '+'
  digits.take 1 ++ tail ++ 'e' :: sign ::
    List.replicate (layout.exponentDigits - magnitude.length) '0' ++ magnitude

/-- A positive decimal in the layout. -/
def write (layout : RealLayout) (digits : List Char) (point : Int) : List Char :=
  let exponent := point - 1
  if layout.positionalFrom ≤ exponent && exponent < layout.positionalBelow then
    positional digits point
  else layout.scientific digits exponent

end RealLayout

/-- The text of a number: its shortest decimal in the layout of documents. -/
def Binary64.text : Binary64 → String
  | .nan => "nan"
  | .infinite negative => if negative then "-inf" else "inf"
  | .finite negative 0 _ => if negative then "-0.0" else "0.0"
  | .finite negative s e =>
    let (digits, point) := Shortest.decimal s e
    String.ofList ((if negative then ['-'] else []) ++ RealLayout.document.write digits point)

end HclExport
