/-!
# Binary floating-point numbers of 64 bits

The numbers that a document may write with a point or an exponent. A finite number is
kept as its significand and exponent, so that reading, cutting to an integer and
printing are exact integer arithmetic.

## Main definitions

* `Binary64` — a finite number, an infinity, or no number.
* `Binary64.ofRatio`, `Binary64.ofDecimal` — the nearest number, a half to the even side.
* `Binary64.isIntegral`, `Binary64.cut` — the integers among the numbers, and cutting
  the fraction off.
* `Binary64.add` — the number nearest to a sum.
-/

namespace HclExport

/-- A binary floating-point number: `±significand * 2 ^ exponent`, an infinity, or no
number. A finite one is canonical: the significand is below `2 ^ 53`, the exponent is
at least `-1074`, and either the significand has all 53 digits or the exponent is `-1074`. -/
inductive Binary64
  | finite (negative : Bool) (significand : Nat) (exponent : Int)
  | infinite (negative : Bool)
  | nan
  deriving DecidableEq

namespace Binary64

/-- The least exponent of a finite number. -/
def leastExponent : Int := -1074

/-- The greatest exponent of a finite number. -/
def greatestExponent : Int := 971

/-- The quotient rounded to the nearest natural number, a half to the even one. -/
def roundHalfEven (num den : Nat) : Nat :=
  let q := num / den
  let r := num % den
  if 2 * r < den then q
  else if den < 2 * r then q + 1
  else q + q % 2

/-- Divide a ratio by a power of two. -/
def scaleDown (num den : Nat) : Int → Nat × Nat
  | .ofNat e => (num, den * Nat.pow 2 e)
  | .negSucc e => (num * Nat.pow 2 (e + 1), den)

/-- The exponent at which the ratio has a significand of 53 digits, or the least one. -/
def exponentOf (num den : Nat) : Int :=
  let e : Int := (Nat.log2 num : Int) - (Nat.log2 den : Int) - 52
  let (n, d) := scaleDown num den e
  max leastExponent (if n / d < Nat.pow 2 52 then e - 1 else e)

/-- A significand that rounding may have carried to 54 digits, and an exponent that may
have become too great. -/
def assemble (negative : Bool) (significand : Nat) (exponent : Int) : Binary64 :=
  let (s, e) :=
    if significand = Nat.pow 2 53 then (Nat.pow 2 52, exponent + 1) else (significand, exponent)
  if greatestExponent < e then .infinite negative else .finite negative s e

/-- The number nearest to a ratio of natural numbers; `den` is positive. -/
def ofRatio (negative : Bool) (num den : Nat) : Binary64 :=
  if num = 0 then .finite negative 0 leastExponent
  else
    let e := exponentOf num den
    let (n, d) := scaleDown num den e
    assemble negative (roundHalfEven n d) e

/-- The number nearest to `±digits * 10 ^ exponent`. Beyond 310 places before the point
every number is infinite, and beyond 330 zeros after it every number is zero. -/
def ofDecimal (negative : Bool) (digits : Nat) (exponent : Int) : Binary64 :=
  let places : Int := (Nat.toDigits 10 digits).length + exponent
  if digits = 0 || places < -330 then .finite negative 0 leastExponent
  else if 310 < places then .infinite negative
  else match exponent with
    | .ofNat e => ofRatio negative (digits * Nat.pow 10 e) 1
    | .negSucc e => ofRatio negative digits (Nat.pow 10 (e + 1))

/-! ### Integers among the numbers -/

/-- Whether the number is a whole one; infinities are not. -/
def isIntegral : Binary64 → Bool
  | .finite _ _ (.ofNat _) => true
  | .finite _ s (.negSucc e) => s % Nat.pow 2 (e + 1) == 0
  | .infinite _ => false
  | .nan => false

/-- The magnitude of `significand * 2 ^ exponent` without its fraction. -/
def cutMagnitude (significand : Nat) : Int → Nat
  | .ofNat e => significand * Nat.pow 2 e
  | .negSucc e => significand / Nat.pow 2 (e + 1)

/-- The integer left when the fraction is cut off; infinities and `nan` have none. -/
def cut : Binary64 → Option Int
  | .finite negative s e =>
    let magnitude : Int := cutMagnitude s e
    some (if negative then -magnitude else magnitude)
  | .infinite _ => none
  | .nan => none

/-- The number nearest to an integer; one beyond all finite numbers is infinite. -/
def ofInt (i : Int) : Binary64 :=
  ofRatio (i < 0) i.natAbs 1

/-! ### Sums -/

/-- The integer `±significand * 2 ^ shift`. -/
def signed (negative : Bool) (significand shift : Nat) : Int :=
  let magnitude : Int := (significand * Nat.pow 2 shift : Nat)
  if negative then -magnitude else magnitude

/-- The number nearest to `±magnitude * 2 ^ exponent`. -/
def ofScaled (negative : Bool) (magnitude : Nat) : Int → Binary64
  | .ofNat e => ofRatio negative (magnitude * Nat.pow 2 e) 1
  | .negSucc e => ofRatio negative magnitude (Nat.pow 2 (e + 1))

/-- The number nearest to the sum of two. A sum of zero is negative only if both are. -/
def add : Binary64 → Binary64 → Binary64
  | .nan, _ => .nan
  | _, .nan => .nan
  | .infinite a, .infinite b => if a = b then .infinite a else .nan
  | .infinite a, _ => .infinite a
  | _, .infinite b => .infinite b
  | .finite a s d, .finite b t e =>
    let least := min d e
    let sum := signed a s (d - least).toNat + signed b t (e - least).toNat
    if sum = 0 then .finite (a && b) 0 leastExponent
    else ofScaled (sum < 0) sum.natAbs least

end Binary64

end HclExport
