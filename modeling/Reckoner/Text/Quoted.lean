import Reckoner.Text.CodePoint
import Reckoner.Text.Printable

/-!
# Quoted text

Log lines show a text between quotes, with escapes for what would not be seen. Single quotes are used
unless the text holds one and no double quote. A terminal shows a text as it is, but for halves of pairs.
-/

namespace Reckoner.Text

/-- The digits of a number in base sixteen, with zeros in front up to a width. -/
def hexDigits (width n : Nat) : List Char :=
  let digits := Nat.toDigits 16 n
  List.replicate (width - digits.length) '0' ++ digits

/-- The quote to put around a text. -/
def quoteFor (text : CodeText) : Char :=
  if text.points.contains (.char '\'') && !text.points.contains (.char '"') then '"' else '\''

/-- The escape of a code, as short as the code allows. -/
def escapeCode (code : Nat) : List Char :=
  if code ≤ 0xff then '\\' :: 'x' :: hexDigits 2 code
  else if code ≤ 0xffff then '\\' :: 'u' :: hexDigits 4 code
  else '\\' :: 'U' :: hexDigits 8 code

def quoteChar (quote c : Char) : List Char :=
  if c = quote ∨ c = '\\' then ['\\', c]
  else if c = '\n' then ['\\', 'n']
  else if c = '\r' then ['\\', 'r']
  else if c = '\t' then ['\\', 't']
  else if isPrintable c then [c]
  else escapeCode c.toNat

def quotePoint (quote : Char) : CodePoint → List Char
  | .char c => quoteChar quote c
  | .surrogate half => escapeCode half.unit

def quoteChars (text : CodeText) : List Char :=
  let quote := quoteFor text
  quote :: (text.points.flatMap (quotePoint quote) ++ [quote])

def quoted (text : CodeText) : String := String.ofList (quoteChars text)

def printPoint : CodePoint → List Char
  | .char c => [c]
  | .surrogate half => escapeCode half.unit

/-- The text on a terminal, which has no characters for the halves of pairs. -/
def printed (text : CodeText) : String := String.ofList (text.points.flatMap printPoint)

end Reckoner.Text
