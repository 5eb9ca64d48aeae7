/-!
# Texts of code points

A settings file can spell one half of a pair of surrogates alone. A half is no character, so what is read from
such a file is a row of code points: characters, and halves without their partners.
-/

namespace Reckoner

/-- One half of a pair that stands for a character outside the first plane. -/
structure Surrogate where
  unit : Nat
  inRange : 0xd800 ≤ unit ∧ unit < 0xe000
  deriving DecidableEq, Repr

/-- Is it the half that leads a pair? -/
def Surrogate.leads (half : Surrogate) : Bool := half.unit < 0xdc00

inductive CodePoint
  | char (c : Char)
  | surrogate (half : Surrogate)
  deriving DecidableEq, Repr

/-- The point that a unit of sixteen bits stands for, taken alone. -/
def CodePoint.ofUnit (unit : Nat) : CodePoint :=
  if half : 0xd800 ≤ unit ∧ unit < 0xe000 then .surrogate ⟨unit, half⟩ else .char (Char.ofNat unit)

def CodePoint.char? : CodePoint → Option Char
  | char c => some c
  | surrogate _ => none

/-- A text that may hold halves of pairs. -/
structure CodeText where
  points : List CodePoint
  deriving DecidableEq, Repr, Inhabited

namespace CodeText

def ofString (text : String) : CodeText := ⟨text.toList.map CodePoint.char⟩

instance : Coe String CodeText := ⟨ofString⟩

instance : Append CodeText := ⟨fun first second => ⟨first.points ++ second.points⟩⟩

/-- Texts one behind another. -/
def join (texts : List CodeText) : CodeText := ⟨texts.flatMap points⟩

/-- The text as a string, if it holds no half of a pair. -/
def toString? (text : CodeText) : Option String := (text.points.mapM CodePoint.char?).map String.ofList

end CodeText

end Reckoner
