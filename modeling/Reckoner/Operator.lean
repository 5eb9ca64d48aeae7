import Reckoner.Binary64.Power

/-!
# Operators

Five binary operations and the prefix sign, with the traits that decide how tightly each one binds.
-/

namespace Reckoner

inductive Operation
  | add
  | sub
  | mul
  | div
  | pow
  deriving DecidableEq, Repr

namespace Operation

def all : List Operation := [add, sub, mul, div, pow]

def char : Operation → Char
  | add => '+'
  | sub => '-'
  | mul => '*'
  | div => '/'
  | pow => '^'

def ofChar? (c : Char) : Option Operation := all.find? (·.char == c)

theorem ofChar?_char (operation : Operation) : ofChar? operation.char = some operation := by
  cases operation <;> decide

/-- The value of the operation, left operand first. -/
def apply : Operation → Binary64 → Binary64 → Binary64
  | add => Binary64.add
  | sub => Binary64.sub
  | mul => Binary64.mul
  | div => Binary64.div
  | pow => Binary64.pow

end Operation

inductive Associativity
  | left
  | right
  deriving DecidableEq, Repr

/-- How tightly an operator binds, to which side it groups, and how many operands it takes. -/
structure Traits where
  precedence : Int
  associativity : Associativity
  arity : Nat
  deriving DecidableEq, Repr

/-- Must the operator on top of the stack be output before the incoming one is pushed? Equal precedence
groups to the left for a left-associative incoming operator only. -/
def Traits.popsBefore (incoming top : Traits) : Bool :=
  match incoming.associativity with
  | .left => incoming.precedence ≤ top.precedence
  | .right => incoming.precedence < top.precedence

/-- A binary operation, or the sign before its operand. -/
inductive Operator
  | binary (operation : Operation)
  | negate
  deriving DecidableEq, Repr

namespace Operator

def all : List Operator := Operation.all.map binary ++ [negate]

/-- The sign binds tighter than the power, so that `-(2)^2` and `-2^2` agree. -/
def traits : Operator → Traits
  | binary .add | binary .sub => ⟨1, .left, 2⟩
  | binary .mul | binary .div => ⟨2, .left, 2⟩
  | binary .pow => ⟨3, .right, 2⟩
  | negate => ⟨4, .right, 1⟩

/-- The name of the operator in a row of tokens: the sign differs from the subtraction. -/
def symbol : Operator → String
  | binary operation => operation.char.toString
  | negate => "neg"

def written : Operator → Char
  | binary operation => operation.char
  | negate => '-'

def ofSymbol? (symbol : String) : Option Operator := all.find? (·.symbol == symbol)

theorem ofSymbol?_symbol (operator : Operator) : ofSymbol? operator.symbol = some operator := by
  rcases operator with (_ | _ | _ | _ | _) | _ <;> decide

end Operator

end Reckoner
