import Reckoner.Decimal.Basic
import Reckoner.Text.Blank
import Reckoner.Token.Stream

/-!
# From text to tokens

Blanks separate lexemes. A minus is a sign if an operand begins at its place; a sign with a digit or a point
right after it belongs to the number, any other sign is an operator.

`scan` keeps track of whether an operand begins, `isSignAt?` finds it out from the characters before a place.
-/

namespace Reckoner

def isNumberChar (c : Char) : Bool := c.isDigit || c == '.'

/-- The digits that numbers are written with. -/
def numberDigits : List Char := ['0', '1', '2', '3', '4', '5', '6', '7', '8', '9']

/-- Is the text a point, or a row of digits each of which follows its predecessor? -/
def isNumberText (text : List Char) : Bool :=
  text == ['.'] || (List.range (numberDigits.length + 1)).any fun i => text.isPrefixOf (numberDigits.drop i)

/-- The characters after which an operand begins. -/
def operandOpeners : List Char := '(' :: Operation.all.map Operation.char

def opensOperand (c : Char) : Bool := operandOpeners.contains c

/-- Does an operand begin here, by the characters before, the nearest first? Blanks do not count. -/
def operandStarts (before : List Char) : Bool :=
  match before.dropWhile Text.isBlank with
  | [] => true
  | c :: _ => opensOperand c

/-- Would a minus at this index be a sign? The first place past the end can still be asked about. -/
def isSignAt? (text : List Char) (index : Int) : Option Bool :=
  if index ≤ text.length then some (operandStarts (text.take index.toNat).reverse) else none

/-- The value of a run of digits and points: at most one point, at least one digit. -/
def magnitude? (run : List Char) : Option Decimal :=
  let whole := run.takeWhile Char.isDigit
  match run.dropWhile Char.isDigit with
  | [] => if whole = [] then none else some ⟨digitsValue whole, 0⟩
  | '.' :: fraction =>
    if fraction.all Char.isDigit && !(whole ++ fraction).isEmpty then
      some ⟨digitsValue (whole ++ fraction), -fraction.length⟩
    else none
  | _ => none

def number? : List Char → Option Binary64
  | '-' :: run => (magnitude? run).map (Decimal.toBinary64 true)
  | run => (magnitude? run).map (Decimal.toBinary64 false)

def lexemeOf? (isSign : Bool) (c : Char) : Option Lexeme :=
  if isSign then some (.operator .negate)
  else if c = '(' then some .leftParen
  else if c = ')' then some .rightParen
  else (Operation.ofChar? c).map fun operation => .operator (.binary operation)

/-- Does a number begin with this character, a sign or not, before these characters? -/
def numberStarts (isSign : Bool) (c : Char) (rest : List Char) : Bool :=
  isNumberChar c || (isSign && (rest.head?.any isNumberChar))

/-- Reads tokens from a place in a text on; `operandNext` says whether an operand begins there. A number
and a closing parenthesis end an operand, after every other lexeme one begins. -/
def scanFrom (position : Nat) (operandNext : Bool) (text : List Char) : TokenStream :=
  match text with
  | [] => .done
  | c :: rest =>
    if Text.isBlank c then scanFrom (position + 1) operandNext rest
    else
      let isSign := c == '-' && operandNext
      if numberStarts isSign c rest then
        let run := c :: rest.takeWhile isNumberChar
        match number? run with
        | some value =>
          .cons ⟨.number (String.ofList run) value, some position⟩
            (scanFrom (position + run.length) false (rest.dropWhile isNumberChar))
        | none => .failed (.invalidNumber (String.ofList run))
      else
        match lexemeOf? isSign c with
        | some lexeme => .cons ⟨lexeme, some position⟩ (scanFrom (position + 1) (opensOperand c) rest)
        | none => .failed (.invalidCharacter c position)
termination_by text.length
decreasing_by
  all_goals simp only [List.length_cons]
  · omega
  · have := (List.dropWhile_sublist (p := isNumberChar) (l := rest)).length_le
    omega
  · omega

def scan (text : String) : TokenStream := scanFrom 0 true text.toList

end Reckoner
