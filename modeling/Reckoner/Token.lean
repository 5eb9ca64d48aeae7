import Reckoner.Decimal.Layout
import Reckoner.Operator
import Reckoner.Text.Quoted

/-!
# Tokens

A token is a number, an operator or a parenthesis, with the place where it was read.
-/

namespace Reckoner

inductive Token.Kind
  | number
  | operator
  | leftParen
  | rightParen
  deriving DecidableEq, Repr

namespace Token.Kind

def all : List Kind := [number, operator, leftParen, rightParen]

def name : Kind → String
  | number => "NUMBER"
  | operator => "OPERATOR"
  | leftParen => "LEFT_PAREN"
  | rightParen => "RIGHT_PAREN"

/-- What tokens of the kind look like. -/
def label : Kind → String
  | number => "number"
  | operator => "operator"
  | leftParen => "("
  | rightParen => ")"

end Token.Kind

/-- What a token says, apart from its place. A number keeps the text that it was read from. -/
inductive Lexeme
  | number (text : String) (value : Binary64)
  | operator (operator : Operator)
  | leftParen
  | rightParen
  deriving DecidableEq

namespace Lexeme

def kind : Lexeme → Token.Kind
  | number .. => .number
  | operator _ => .operator
  | leftParen => .leftParen
  | rightParen => .rightParen

def text : Lexeme → String
  | number text _ => text
  | operator op => op.symbol
  | leftParen => "("
  | rightParen => ")"

def value? : Lexeme → Option Binary64
  | number _ value => some value
  | _ => none

def shown : Lexeme → String
  | number _ value => s!"Number({value.text})"
  | operator op => s!"Operator({Text.quoted op.symbol})"
  | leftParen => "LeftParen"
  | rightParen => "RightParen"

end Lexeme

/-- A lexeme and the index of its first character, if it was read from a text. -/
structure Token where
  lexeme : Lexeme
  position : Option Int
  deriving DecidableEq

def Token.listed (tokens : List Token) : String :=
  "[" ++ ", ".intercalate (tokens.map (·.lexeme.shown)) ++ "]"

end Reckoner
