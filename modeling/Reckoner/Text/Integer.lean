import Reckoner.Text.Blank
import Reckoner.Text.Digit
import Reckoner.Text.Quoted

/-!
# Integers typed as text

An integer may be padded with white space, have one sign, and group its digits, of any script, with single
underscores. At most `digitLimit` digits are taken.
-/

namespace Reckoner.Text

/-- The greatest number of digits that an integer may have. -/
def digitLimit : Nat := 4300

inductive IntegerFault
  /-- The text does not have the form of an integer. -/
  | malformed (text : String)
  /-- The integer has more digits than are taken. -/
  | tooLong (digits : Nat)
  deriving DecidableEq, Repr

def tooLongMessage (digits : Nat) : String :=
  s!"Exceeds the limit ({digitLimit} digits) for integer string conversion: value has {digits} digits; " ++
    "use sys.set_int_max_str_digits() to increase the limit"

/-- The message about an integer that is too long to be written; it does not count the digits. -/
def unwrittenMessage : String :=
  s!"Exceeds the limit ({digitLimit} digits) for integer string conversion; " ++
    "use sys.set_int_max_str_digits() to increase the limit"

/-- The message about the fault. A long text is cut short. -/
def IntegerFault.message : IntegerFault → String
  | malformed text =>
    "invalid literal for int() with base 10: " ++ String.ofList ((quoteChars text).take 200)
  | tooLong digits => tooLongMessage digits

/-- White space around an integer: the blanks without the four information separators. -/
def isPadding (c : Char) : Bool := isBlank c && !(0x1c ≤ c.toNat && c.toNat ≤ 0x1f)

def isIntegerChar (c : Char) : Bool := (digitOf? c).isSome || c == '_'

/-- The values of grouped digits: an underscore stands only between two digits. -/
def groupedDigits? : List Char → Option (List Nat)
  | [] => none
  | [c] => (digitOf? c).map ([·])
  | c :: '_' :: rest => do
    let digit ← digitOf? c
    let digits ← groupedDigits? rest
    return digit :: digits
  | c :: rest => do
    let digit ← digitOf? c
    let digits ← groupedDigits? rest
    return digit :: digits

def takeSign : List Char → Bool × List Char
  | '-' :: rest => (true, rest)
  | '+' :: rest => (false, rest)
  | rest => (false, rest)

/-- Reads an integer. The number of its digits is checked before what follows them. -/
def readInteger (text : String) : Except IntegerFault Int := do
  let (negative, rest) := takeSign (text.toList.dropWhile isPadding)
  let some digits := groupedDigits? (rest.takeWhile isIntegerChar) | throw (.malformed text)
  if digitLimit < digits.length then throw (.tooLong digits.length)
  if !(rest.dropWhile isIntegerChar).all isPadding then throw (.malformed text)
  let magnitude : Nat := digits.foldl (fun value digit => 10 * value + digit) 0
  return if negative then -magnitude else magnitude

end Reckoner.Text
