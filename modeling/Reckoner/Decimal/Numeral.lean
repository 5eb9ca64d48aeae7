import Reckoner.Decimal.Basic

/-!
# Reading numerals

A numeral is a row of digits, perhaps with a fraction, perhaps with an exponent. `Numeral.scan?` takes the
longest one at the start of a text; a point or an `e` without digits after it is left unread.
-/

namespace Reckoner

structure Numeral where
  whole : List Char
  fraction : Option (List Char)
  exponent : Option Int

namespace Numeral

/-- Is it written without a fraction and without an exponent? -/
def isWhole (n : Numeral) : Bool := n.fraction.isNone && n.exponent.isNone

def toDecimal (n : Numeral) : Decimal :=
  let fraction := n.fraction.getD []
  ⟨digitsValue (n.whole ++ fraction), n.exponent.getD 0 - fraction.length⟩

/-- The digits at the start of a text, and the rest. -/
def scanDigits (text : List Char) : List Char × List Char := text.span Char.isDigit

/-- A point and at least one digit. -/
def scanFraction (text : List Char) : Option (List Char) × List Char :=
  match text with
  | '.' :: rest =>
    match scanDigits rest with
    | ([], _) => (none, text)
    | (digits, rest) => (some digits, rest)
  | _ => (none, text)

def scanSign : List Char → Bool × List Char
  | '-' :: rest => (true, rest)
  | '+' :: rest => (false, rest)
  | rest => (false, rest)

/-- An `e` of either case, perhaps a sign, and at least one digit. -/
def scanExponent (text : List Char) : Option Int × List Char :=
  match text with
  | mark :: rest =>
    if mark = 'e' ∨ mark = 'E' then
      let (negative, rest) := scanSign rest
      match scanDigits rest with
      | ([], _) => (none, text)
      | (digits, rest) => (some (Binary64.signed negative (digitsValue digits)), rest)
    else (none, text)
  | [] => (none, text)

/-- The whole digits: a zero alone, or digits that do not start with one. -/
def scanWhole? (text : List Char) : Option (List Char × List Char) :=
  match text with
  | '0' :: rest => some (['0'], rest)
  | _ =>
    match scanDigits text with
    | ([], _) => none
    | found => some found

/-- The numeral at the start of a text, and the rest. -/
def scan? (text : List Char) : Option (Numeral × List Char) := do
  let (whole, rest) ← scanWhole? text
  let (fraction, rest) := scanFraction rest
  let (exponent, rest) := scanExponent rest
  return (⟨whole, fraction, exponent⟩, rest)

end Numeral

/-- Reads the text of a double without its sign. -/
def Binary64.readMagnitude? (negative : Bool) (text : List Char) : Option Binary64 :=
  if text = ['i', 'n', 'f'] then some (infinite negative)
  else
    match Numeral.scan? text with
    | some (numeral, []) => some (numeral.toDecimal.toBinary64 negative)
    | _ => none

/-- Reads the text of a double, rounding to the nearest. -/
def Binary64.read? : List Char → Option Binary64
  | ['n', 'a', 'n'] => some nan
  | '-' :: rest => readMagnitude? true rest
  | text => readMagnitude? false text

end Reckoner
