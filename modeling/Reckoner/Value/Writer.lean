import Reckoner.Text.Integer
import Reckoner.Value

/-!
# Writing values

Values are written in the JSON format with four blanks of indentation, and in ASCII alone. The text is
written as the value is walked, so a value that cannot be written leaves all text before it. An integer of
more digits than are read again is such a value, too.
-/

namespace Reckoner

inductive Value.WriteFault
  | unwritable
  | tooLong (digits : Nat)
  deriving DecidableEq, Repr

/-- The text written so far, and what stopped the writing, if something did. -/
structure Draft where
  text : List Char
  fault : Option Value.WriteFault
  deriving DecidableEq, Repr

namespace Draft

def ofChars (text : List Char) : Draft := ⟨text, none⟩

def stopped (fault : Value.WriteFault) : Draft := ⟨[], some fault⟩

/-- Writes on, unless writing has stopped. -/
def append (first second : Draft) : Draft :=
  if first.fault.isNone then ⟨first.text ++ second.text, second.fault⟩ else first

instance : Append Draft := ⟨append⟩

end Draft

namespace Value

def escapeUnit (unit : Nat) : List Char := '\\' :: 'u' :: Text.hexDigits 4 unit

def escapePair (code : Nat) : List Char :=
  let offset := code - 0x10000
  escapeUnit (0xd800 + offset / 0x400) ++ escapeUnit (0xdc00 + offset % 0x400)

def writeChar (c : Char) : List Char :=
  if c = '"' then ['\\', '"']
  else if c = '\\' then ['\\', '\\']
  else if c = '\n' then ['\\', 'n']
  else if c = '\r' then ['\\', 'r']
  else if c = '\t' then ['\\', 't']
  else if c = '\x08' then ['\\', 'b']
  else if c = '\x0c' then ['\\', 'f']
  else if 0x20 ≤ c.toNat ∧ c.toNat ≤ 0x7e then [c]
  else if c.toNat < 0x10000 then escapeUnit c.toNat
  else escapePair c.toNat

def writePoint : CodePoint → List Char
  | .char c => writeChar c
  | .surrogate half => escapeUnit half.unit

def writeText (text : CodeText) : List Char := '"' :: (text.points.flatMap writePoint ++ ['"'])

def writeInteger (n : Int) : List Char := minusSign (n < 0) ++ decimalDigits n.natAbs

def writeDouble : Binary64 → List Char
  | .nan => ['N', 'a', 'N']
  | .infinite negative => minusSign negative ++ ['I', 'n', 'f', 'i', 'n', 'i', 't', 'y']
  | x => x.toChars

def newline (depth : Nat) : List Char := '\n' :: List.replicate (4 * depth) ' '

def isTooLong : Value → Bool
  | integer n => Text.digitLimit < digitCount n.natAbs
  | _ => false

/-- An item of a list behind the text that leads to it. An integer is written together with that text, so
neither of them is if it is too long. -/
def writeBehind (lead : List Char) (item : Value) (draft : Draft) : Draft :=
  if item.isTooLong then draft else .ofChars lead ++ draft

mutual

/-- The value as text, inside so many lists and objects. -/
def write (depth : Nat) : Value → Draft
  | null => .ofChars ['n', 'u', 'l', 'l']
  | bool true => .ofChars ['t', 'r', 'u', 'e']
  | bool false => .ofChars ['f', 'a', 'l', 's', 'e']
  | integer n =>
    if (integer n).isTooLong then .stopped (.tooLong (digitCount n.natAbs)) else .ofChars (writeInteger n)
  | double x => .ofChars (writeDouble x)
  | text s => .ofChars (writeText s)
  | list [] => .ofChars ['[', ']']
  | list (item :: rest) =>
    writeBehind ('[' :: newline (depth + 1)) item (write (depth + 1) item) ++ writeItems (depth + 1) rest
      ++ .ofChars (newline depth ++ [']'])
  | object [] => .ofChars ['\x7b', '\x7d']
  | object ((key, value) :: rest) =>
    .ofChars ('\x7b' :: newline (depth + 1) ++ writeText key ++ [':', ' '])
      ++ write (depth + 1) value ++ writeEntries (depth + 1) rest
      ++ .ofChars (newline depth ++ ['\x7d'])
  | unwritable => .stopped .unwritable

def writeItems (depth : Nat) : List Value → Draft
  | [] => .ofChars []
  | item :: rest => writeBehind (',' :: newline depth) item (write depth item) ++ writeItems depth rest

def writeEntries (depth : Nat) : List (CodeText × Value) → Draft
  | [] => .ofChars []
  | (key, value) :: rest =>
    .ofChars (',' :: newline depth ++ writeText key ++ [':', ' '])
      ++ write depth value ++ writeEntries depth rest

end

def draft (value : Value) : Draft := value.write 0

end Value

end Reckoner
