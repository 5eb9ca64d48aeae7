import Reckoner.Decimal.Shortest

/-!
# Writing doubles as text

The shortest digits of a double are laid out with a point, or with an exponent when the number is very
large or very small. `Layout.standard` holds the bounds and the width of the exponent.
-/

namespace Reckoner

/-- Where a decimal is written with an exponent, and how. -/
structure Layout where
  /-- The least exponent of a leading digit that is written without an exponent. -/
  positionalFrom : Int
  /-- The least exponent above that is written with an exponent again. -/
  positionalBelow : Int
  /-- The least number of digits of the exponent. -/
  exponentWidth : Nat

/-- Positional from one ten-thousandth up to sixteen digits before the point. -/
def Layout.standard : Layout := ⟨-4, 16, 2⟩

/-- Zeros, then the digits, up to a width. -/
def padLeft (width : Nat) (digits : List Char) : List Char :=
  List.replicate (width - digits.length) '0' ++ digits

/-- The digits of the coefficient without the zeros at its end. -/
def Decimal.significantDigits (d : Decimal) : List Char :=
  ((decimalDigits d.coefficient).reverse.dropWhile (· == '0')).reverse

/-- How many digits stand before the point; zero or less if the first ones after it are zeros. -/
def Decimal.pointPosition (d : Decimal) : Int := digitCount d.coefficient + d.exponent

/-- Digits with the point after the first `point` of them, and at least one digit on either side. -/
def positional (digits : List Char) (point : Int) : List Char :=
  if point ≤ 0 then '0' :: '.' :: (List.replicate (-point).toNat '0' ++ digits)
  else
    let whole := point.toNat
    if digits.length ≤ whole then digits ++ List.replicate (whole - digits.length) '0' ++ ['.', '0']
    else digits.take whole ++ '.' :: digits.drop whole

/-- Digits with a point after the first, and the power of ten. -/
def scientific (width : Nat) (digits : List Char) (exponent : Int) : List Char :=
  let fraction := if digits.length ≤ 1 then [] else '.' :: digits.drop 1
  let mark := if exponent < 0 then '-' else '+'
  digits.take 1 ++ fraction ++ 'e' :: mark :: padLeft width (decimalDigits exponent.natAbs)

def Layout.write (layout : Layout) (d : Decimal) : List Char :=
  let exponent := d.pointPosition - 1
  if layout.positionalFrom ≤ exponent ∧ exponent < layout.positionalBelow then
    positional d.significantDigits d.pointPosition
  else scientific layout.exponentWidth d.significantDigits exponent

def minusSign (negative : Bool) : List Char := if negative then ['-'] else []

/-- A double as text: the shortest digits that read back, with a point or an exponent. -/
def Binary64.toChars : Binary64 → List Char
  | nan => ['n', 'a', 'n']
  | infinite negative => minusSign negative ++ ['i', 'n', 'f']
  | finite negative rank _ =>
    minusSign negative ++ if rank = 0 then ['0', '.', '0'] else Layout.standard.write (shortest rank)

def Binary64.text (x : Binary64) : String := String.ofList x.toChars

end Reckoner
