import Reckoner.Decimal.Numeral
import Reckoner.Text.Integer
import Reckoner.Value

/-!
# Reading values

Values are read in the JSON format, with the three spellings of the numbers that are not finite. Reading
goes from left to right and stops at the first fault; an integer of too many digits is one of them.
-/

namespace Reckoner

inductive Value.ReadFault
  | malformed
  | tooLong (digits : Nat)
  deriving DecidableEq, Repr

namespace Value

/-- The blanks between the parts of a value. -/
def isSpace (c : Char) : Bool := c == ' ' || c == '\t' || c == '\n' || c == '\r'

def skipSpace (text : List Char) : List Char := text.dropWhile isSpace

def hexDigit? (c : Char) : Option Nat :=
  if '0' ≤ c ∧ c ≤ '9' then some (c.toNat - '0'.toNat)
  else if 'a' ≤ c ∧ c ≤ 'f' then some (c.toNat - 'a'.toNat + 10)
  else if 'A' ≤ c ∧ c ≤ 'F' then some (c.toNat - 'A'.toNat + 10)
  else none

def unit? (a b c d : Char) : Option Nat := do
  return ((← hexDigit? a) * 16 + (← hexDigit? b)) * 256 + (← hexDigit? c) * 16 + (← hexDigit? d)

def isHighSurrogate (unit : Nat) : Bool := 0xd800 ≤ unit && unit < 0xdc00

def isLowSurrogate (unit : Nat) : Bool := 0xdc00 ≤ unit && unit < 0xe000

def charOfPair (high low : Nat) : Char :=
  Char.ofNat (0x10000 + (high - 0xd800) * 0x400 + (low - 0xdc00))

def shortEscape? : Char → Option Char
  | '"' => some '"'
  | '\\' => some '\\'
  | '/' => some '/'
  | 'b' => some '\x08'
  | 'f' => some '\x0c'
  | 'n' => some '\n'
  | 'r' => some '\r'
  | 't' => some '\t'
  | _ => none

/-- Puts a point in front of a text that was read. -/
def consPoint (point : CodePoint) (read : Except ReadFault (List CodePoint × List Char)) :
    Except ReadFault (List CodePoint × List Char) :=
  read.map fun (points, rest) => (point :: points, rest)

/-- The text up to the closing quote, and what follows it. The escapes of two halves that make up a pair are
one character; a half without its partner stays as it is. -/
def readText : List Char → Except ReadFault (List CodePoint × List Char)
  | [] => .error .malformed
  | '"' :: rest => .ok ([], rest)
  | '\\' :: 'u' :: a :: b :: c :: d :: '\\' :: 'u' :: e :: f :: g :: h :: rest =>
    match unit? a b c d, unit? e f g h with
    | some high, some low =>
      if isHighSurrogate high && isLowSurrogate low then
        consPoint (.char (charOfPair high low)) (readText rest)
      else consPoint (.ofUnit high) (readText ('\\' :: 'u' :: e :: f :: g :: h :: rest))
    | _, _ => .error .malformed
  | '\\' :: 'u' :: a :: b :: c :: d :: rest =>
    match unit? a b c d with
    | some unit => consPoint (.ofUnit unit) (readText rest)
    | none => .error .malformed
  | '\\' :: c :: rest =>
    match shortEscape? c with
    | some c => consPoint (.char c) (readText rest)
    | none => .error .malformed
  | c :: rest => if c.toNat < 0x20 then .error .malformed else consPoint (.char c) (readText rest)

/-- The number at the start of a text, after its sign. -/
def readNumber (negative : Bool) (text : List Char) : Except ReadFault (Value × List Char) :=
  match Numeral.scan? text with
  | none => .error .malformed
  | some (numeral, rest) =>
    if !numeral.isWhole then .ok (.double (numeral.toDecimal.toBinary64 negative), rest)
    else if Text.digitLimit < numeral.whole.length then .error (.tooLong numeral.whole.length)
    else .ok (.integer (Binary64.signed negative (digitsValue numeral.whole)), rest)

/-- The value at the start of a text, if it is neither text nor list nor object. -/
def readAtom : List Char → Except ReadFault (Value × List Char)
  | 'n' :: 'u' :: 'l' :: 'l' :: rest => .ok (.null, rest)
  | 't' :: 'r' :: 'u' :: 'e' :: rest => .ok (.bool true, rest)
  | 'f' :: 'a' :: 'l' :: 's' :: 'e' :: rest => .ok (.bool false, rest)
  | 'N' :: 'a' :: 'N' :: rest => .ok (.double .nan, rest)
  | 'I' :: 'n' :: 'f' :: 'i' :: 'n' :: 'i' :: 't' :: 'y' :: rest =>
    .ok (.double (.infinite false), rest)
  | '-' :: 'I' :: 'n' :: 'f' :: 'i' :: 'n' :: 'i' :: 't' :: 'y' :: rest =>
    .ok (.double (.infinite true), rest)
  | '-' :: rest => readNumber true rest
  | chars => readNumber false chars

/-- The key of an entry with its colon, up to the value. -/
def readKey : List Char → Except ReadFault (CodeText × List Char)
  | '"' :: rest => do
    let (key, rest) ← readText rest
    match skipSpace rest with
    | ':' :: rest => return (⟨key⟩, skipSpace rest)
    | _ => throw .malformed
  | _ => .error .malformed

mutual

/-- The value at the start of a text. Each step into a list or an object takes one unit of `depth`. -/
def readValue (depth : Nat) (text : List Char) : Except ReadFault (Value × List Char) :=
  match depth with
  | 0 => .error .malformed
  | depth + 1 =>
    match text with
    | '"' :: rest => (readText rest).map fun (points, rest) => (.text ⟨points⟩, rest)
    | '[' :: rest =>
      match skipSpace rest with
      | ']' :: rest => .ok (.list [], rest)
      | rest => (readItems depth rest).map fun (items, rest) => (.list items, rest)
    | '\x7b' :: rest =>
      match skipSpace rest with
      | '\x7d' :: rest => .ok (.object [], rest)
      | rest =>
        (readEntries depth rest).map fun (entries, rest) =>
          (.object (Entries.update [] entries), rest)
    | chars => readAtom chars

/-- Items of a list up to its end; there is at least one. -/
def readItems (depth : Nat) (text : List Char) : Except ReadFault (List Value × List Char) :=
  match depth with
  | 0 => .error .malformed
  | depth + 1 => do
    let (item, rest) ← readValue depth text
    match skipSpace rest with
    | ',' :: rest =>
      let (items, rest) ← readItems depth (skipSpace rest)
      return (item :: items, rest)
    | ']' :: rest => return ([item], rest)
    | _ => throw .malformed

/-- Entries of an object up to its end; there is at least one. -/
def readEntries (depth : Nat) (text : List Char) :
    Except ReadFault (List (CodeText × Value) × List Char) :=
  match depth with
  | 0 => .error .malformed
  | depth + 1 => do
    let (key, rest) ← readKey text
    let (value, rest) ← readValue depth rest
    match skipSpace rest with
    | ',' :: rest =>
      let (entries, rest) ← readEntries depth (skipSpace rest)
      return ((key, value) :: entries, rest)
    | '\x7d' :: rest => return ([(key, value)], rest)
    | _ => throw .malformed

end

/-- Reads a text that holds one value and nothing else but space. Every step into a value and every item
takes a character of the text, so its length bounds the depth. -/
def ofText (text : List Char) : Except ReadFault Value := do
  let (value, rest) ← readValue (2 * text.length + 1) (skipSpace text)
  match skipSpace rest with
  | [] => return value
  | _ => throw .malformed

end Value

end Reckoner
