import Reckoner.Text.Integer
import Reckoner.Value

/-!
# Settings

Settings are entries over defaults. Each has a description that the user reads. A setting may hold any
value; `Value.places` says what it means as a number of decimal places.
-/

namespace Reckoner

abbrev Settings := Entries CodeText Value

namespace Settings

def darkModeKey : CodeText := "darkmode"

def showExpressionKey : CodeText := "show_equation"

def evaluatePastedKey : CodeText := "after_paste_enter"

def placesKey : CodeText := "decimal_places"

def debugKey : CodeText := "debug"

/-- The decimal places of results unless others are set. -/
def defaultPlaces : Int := 10

/-- What is set for a key that the file does not hold. -/
def defaults : Settings :=
  [(darkModeKey, .bool false), (showExpressionKey, .bool true), (evaluatePastedKey, .bool false),
    (placesKey, .integer defaultPlaces), (debugKey, .bool false)]

def defaultDescriptions : Settings :=
  [(darkModeKey, .text "Dark mode"), (showExpressionKey, .text "Show the expression next to the result"),
    (evaluatePastedKey, .text "Evaluate right after pasting"), (placesKey, .text "Decimal places"),
    (debugKey, .text "Debug logging")]

def isOn (settings : Settings) (key : CodeText) : Bool := ((settings.get? key).map (·.isTrue)).getD false

/-- The key that asks for all settings at once. -/
def allKey : CodeText := "all"

/-- What a key asks for: everything, the value of the key, or the fallback. Only texts are keys. -/
def lookUp (settings : Settings) (key fallback : Value) : Value :=
  match key with
  | .text key =>
    if key = allKey then .object settings else (settings.get? key).getD fallback
  | _ => fallback

end Settings

/-- What a value means as a number of decimal places. -/
inductive Places
  | given (places : Int)
  /-- The value is no number. -/
  | unusable
  /-- The value is an infinite number. -/
  | unbounded
  deriving DecidableEq, Repr

/-- A truth value counts as one or zero, a double loses its fraction, a text is read as an integer. -/
def Value.places : Value → Places
  | .bool b => .given (if b then 1 else 0)
  | .integer n => .given n
  | .double (.infinite _) => .unbounded
  | .double x =>
    match x.truncate? with
    | some n => .given n
    | none => .unusable
  | .text s =>
    match s.toString?.map Text.readInteger with
    | some (.ok n) => .given n
    | _ => .unusable
  | _ => .unusable

end Reckoner
