import Reckoner.Decimal.Layout

/-!
# Showing a result

A result is shown as an integer where it is one and not too large, else with its shortest digits. It may be
rounded to decimal places first; an answer that was changed by that is marked as approximate.
-/

namespace Reckoner

/-- A shown result, and whether rounding changed it. -/
structure Display where
  text : String
  rounded : Bool
  deriving DecidableEq, Repr

/-- Whole numbers from here on are shown with an exponent. -/
def integerBound : Nat := Nat.pow 10 16

/-- A number as it is shown: a whole number below the bound as an integer, a zero without its sign. -/
def Binary64.shown : Binary64 → String
  | nan => "NaN"
  | infinite false => "Infinity"
  | infinite true => "-Infinity"
  | finite negative rank h =>
    let x := finite negative rank h
    if x.isInteger && wholePart rank < integerBound then toString (signed negative (wholePart rank))
    else x.text

/-- The number that is shown: whole numbers are not rounded, and a negative count of places is zero. -/
def Binary64.displayed (x : Binary64) : Option Int → Binary64
  | some places => if x.isInteger then x else x.roundToPlaces places.toNat
  | none => x

/-- A number as it is shown with so many decimal places, or with all. -/
def Binary64.display (x : Binary64) (places : Option Int) : Display :=
  let value := x.displayed places
  ⟨value.shown, x.isFinite && !value.sameValue x⟩

def approximateSign : String := "≈"

def exactSign : String := "="

def Display.answer (display : Display) : String :=
  (if display.rounded then approximateSign else exactSign) ++ " " ++ display.text

end Reckoner
