import Reckoner.Fault
import Reckoner.Value

/-!
# Diagnoses

A fault is reported with a code of four digits, a message and the expression it was found in. The first
digit of the code gives its category.
-/

namespace Reckoner

def codeCategories : Entries String String :=
  [("1", "Missing Files"), ("3", "Calculator Error"), ("4", "UI Error"), ("5", "Configuration Error"),
    ("9", "Unexpected Error")]

/-- What codes mean, for the user. -/
def codeMeanings : Entries String String :=
  [("3001", "Invalid character."), ("3002", "Invalid number."), ("3003", "Mismatched parentheses."),
    ("3004", "Invalid expression."), ("5001", "Settings could not be loaded, using defaults."),
    ("5002", "Settings could not be saved."), ("9999", "Unexpected Error.")]

/-- The code of what no other code is for. -/
def unexpectedCode : String := "9999"

def notSavedCode : String := "5002"

/-- The kinds of reports, with what they say beyond their message. -/
inductive Diagnosis.Kind
  | general
  | invalidCharacter (char : String) (position : Int)
  | invalidNumber (text : String)
  | mismatchedParentheses
  | invalidExpression
  deriving DecidableEq, Repr

/-- A report: its kind, its code, its message, and the expression, null if there is none. -/
structure Diagnosis where
  kind : Diagnosis.Kind
  code : String
  message : String
  expression : Value

namespace Diagnosis

def invalidCharacter (char : String) (position : Int) (expression : Value) : Diagnosis :=
  ⟨.invalidCharacter char position, "3001", s!"Invalid character '{char}' at position {position}",
    expression⟩

def invalidNumber (text : String) (expression : Value) : Diagnosis :=
  ⟨.invalidNumber text, "3002", s!"Invalid number: '{text}'", expression⟩

def mismatchedParentheses (message : String) (expression : Value) : Diagnosis :=
  ⟨.mismatchedParentheses, "3003", message, expression⟩

def invalidExpression (message : String) (expression : Value) : Diagnosis :=
  ⟨.invalidExpression, "3004", message, expression⟩

/-- The message of a parenthesis report that says no more. -/
def mismatchedMessage : String := "Mismatched parentheses"

/-- The message of an expression report that says no more. -/
def invalidMessage : String := "Invalid expression"

def ofFault (expression : Value) (fault : Fault) : Diagnosis :=
  match fault with
  | .invalidCharacter char position => invalidCharacter char.toString position expression
  | .invalidNumber text => invalidNumber text expression
  | .unopened _ | .unclosed _ => mismatchedParentheses fault.message expression
  | .unexpectedToken _ | .missingOperand _ | .emptyExpression | .missingOperator _ =>
    invalidExpression fault.message expression
  | .unknownOperator _ => ⟨.general, unexpectedCode, fault.message, expression⟩

/-- The category of a code, by its first character. -/
def category (code : String) : String :=
  (codeCategories.get? (String.ofList (code.toList.take 1))).getD "Unknown Error"

def describe (diagnosis : Diagnosis) : String :=
  s!"Error {diagnosis.code} ({category diagnosis.code}): {diagnosis.message}"

end Diagnosis

def Fault.describe (fault : Fault) : String := (Diagnosis.ofFault .null fault).describe

end Reckoner
