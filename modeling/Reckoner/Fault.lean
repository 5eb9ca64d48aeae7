import Reckoner.Token

/-!
# Faults

The reasons why a text has no value, with their messages.
-/

namespace Reckoner

/-- Why an expression cannot be evaluated. -/
inductive Fault
  /-- A character that begins no lexeme. -/
  | invalidCharacter (char : Char) (position : Nat)
  /-- A run of digits and points that is no number. -/
  | invalidNumber (text : String)
  /-- A closing parenthesis that no opening one precedes. -/
  | unopened (position : Option Int)
  /-- An opening parenthesis that is never closed. -/
  | unclosed (position : Option Int)
  /-- A token that has no place in a postfix row. -/
  | unexpectedToken (lexeme : Lexeme)
  /-- An operator with fewer operands than it takes. -/
  | missingOperand (operator : Operator)
  /-- A row without any tokens. -/
  | emptyExpression
  /-- Values that no operator joins. -/
  | missingOperator (values : Nat)
  /-- A symbol that names no operator. -/
  | unknownOperator (symbol : String)
  deriving DecidableEq

def shownPosition : Option Int → String
  | some position => toString position
  | none => "None"

def Fault.message : Fault → String
  | invalidCharacter char position => s!"Invalid character '{char}' at position {position}"
  | invalidNumber text => s!"Invalid number: '{text}'"
  | unopened position => s!"Missing '(' for ')' at position {shownPosition position}."
  | unclosed position => s!"Missing ')' for '(' at position {shownPosition position}."
  | unexpectedToken lexeme => s!"Unexpected token in postfix sequence: {lexeme.shown}"
  | missingOperand operator => s!"Missing operand for '{operator.written}'."
  | emptyExpression => "Empty expression."
  | missingOperator values => s!"Missing operator: {values} values left."
  | unknownOperator symbol => Text.quoted symbol

end Reckoner
