import Reckoner.Display
import Reckoner.Expression
import Reckoner.Settings.Store

/-!
# Calculations

The front ends ask for a result as text: with all digits, or rounded as the settings say.
-/

namespace Reckoner

/-- What is to be calculated: a text, or a value that is none. -/
inductive Problem
  | text (problem : String)
  | other (value : Value) (noText : value.isText = false)

inductive CalculationFault
  /-- The settings ask for infinitely many decimal places. -/
  | unboundedPlaces
  /-- The expression is no text. -/
  | notText (expression : Value)
  /-- The expression cannot be evaluated. -/
  | fault (text : String) (fault : Fault)

def unboundedMessage : String := "cannot convert float infinity to integer"

def notTextDiagnosis (expression : Value) : Diagnosis :=
  ⟨.general, unexpectedCode, s!"Unexpected crash: {notTextMessage expression}", expression⟩

/-- The decimal places that a settings file asks for. -/
def SettingsFile.places (file : SettingsFile) : Places :=
  match file.load Settings.defaults with
  | .error _ => .unusable
  | .ok (settings, _) => ((settings.get? Settings.placesKey).getD (.integer 0)).places

/-- The decimal places to round to: the default ones if those set are no number. -/
def Places.resolve : Places → Except CalculationFault Int
  | given places => .ok places
  | unusable => .ok Settings.defaultPlaces
  | unbounded => .error .unboundedPlaces

/-- The result of an expression with so many decimal places. -/
def calculateTo (places : Int) (problem : Problem) : Except CalculationFault Display :=
  match problem with
  | .text text =>
    match evaluate text with
    | .ok value => .ok (value.display (some places))
    | .error fault => .error (.fault text fault)
  | .other value _ => .error (.notText value)

/-- The result of an expression. The settings are looked at first. -/
def calculate (file : SettingsFile) (problem : Problem) : Except CalculationFault Display := do
  let places ← file.places.resolve
  calculateTo places problem

end Reckoner
