import Reckoner.Postfix

/-!
# The value of a postfix row

A number is pushed on a stack of values; an operator takes its operands from there, the right one first,
and pushes its result. Exactly one value must be left.
-/

namespace Reckoner

abbrev ValueStack := List Binary64

namespace ValueStack

def operate? (stack : ValueStack) : Operator → Option ValueStack
  | .negate =>
    match stack with
    | a :: below => some (-a :: below)
    | _ => none
  | .binary operation =>
    match stack with
    | b :: a :: below => some (operation.apply a b :: below)
    | _ => none

def accept (stack : ValueStack) (token : Token) : Except Fault ValueStack :=
  match token.lexeme with
  | .number _ value => .ok (value :: stack)
  | .operator op =>
    match stack.operate? op with
    | some stack => .ok stack
    | none => .error (.missingOperand op)
  | lexeme => .error (.unexpectedToken lexeme)

/-- The one value that is left. -/
def result : ValueStack → Except Fault Binary64
  | [] => .error .emptyExpression
  | [value] => .ok value
  | values => .error (.missingOperator values.length)

end ValueStack

/-- The value of a stream of postfix tokens. -/
def postfixStreamValue (row : TokenStream) : Except Fault Binary64 := do
  let stack ← row.tokens.foldlM ValueStack.accept []
  row.finish
  stack.result

def postfixValue (row : List Token) : Except Fault Binary64 := postfixStreamValue ⟨row, none⟩

end Reckoner
