import Reckoner.Binary64.Rounding

/-!
# Decimals

A decimal is a whole coefficient times a power of ten. `Decimal.toBinary64` rounds it to the nearest
double, and `Binary64.roundToPlaces` rounds a double to a whole number of decimal places.
-/

namespace Reckoner

/-- The value `coefficient * 10 ^ exponent`. -/
structure Decimal where
  coefficient : Nat
  exponent : Int
  deriving DecidableEq, Repr

/-- The value of a row of decimal digits, the highest first. -/
def digitsValue (digits : List Char) : Nat :=
  digits.foldl (fun value digit => 10 * value + (digit.toNat - '0'.toNat)) 0

def decimalDigits (n : Nat) : List Char := Nat.toDigits 10 n

namespace Decimal

/-- The value as numerator and denominator. -/
def ratio (d : Decimal) : Nat × Nat :=
  (d.coefficient * Nat.pow 10 d.exponent.toNat, Nat.pow 10 (-d.exponent).toNat)

/-- The rank of the magnitude nearest to the value. -/
def rank (d : Decimal) : Nat :=
  Binary64.nearestRank (d.ratio.1 * Binary64.unitsPerOne) d.ratio.2

/-- Is the value above every finite magnitude, by its exponent alone? -/
def isHuge (d : Decimal) : Bool := d.coefficient != 0 && (400 : Int) < d.exponent

/-- Is the value below half of the least positive magnitude, by its exponent and the bit length of its
coefficient alone? -/
def isTiny (d : Decimal) : Bool := d.exponent < -(400 + d.coefficient.log2 : Int)

/-- The double nearest to the value. The two bounds only spare the computation of vast powers. -/
def toBinary64 (negative : Bool) (d : Decimal) : Binary64 :=
  if d.coefficient = 0 || d.isTiny then .zero negative
  else if d.isHuge then .infinite negative
  else .ofRank negative d.rank

end Decimal

/-- The double nearest to the value rounded to decimal places, both ties to even. A double has no digits
past the place of its grid unit, so more places than those change nothing. -/
def Binary64.roundToPlaces (places : Nat) : Binary64 → Binary64
  | finite negative rank _ =>
    let places := min places gridPlaces
    let coefficient := divRoundEven (units rank * Nat.pow 10 places) unitsPerOne
    Decimal.toBinary64 negative ⟨coefficient, -places⟩
  | x => x

end Reckoner
