import Reckoner.Settings
import Reckoner.Text.Blank

/-!
# The settings dialog

The dialog has a checkbox for each truth value and a field for each integer among the settings. It works on
its own copy of them: an accepted press of the OK button takes the widgets over one after another, and stops
at the first field that does not hold an acceptable integer.
-/

namespace Reckoner.Window

/-- A setting's widget: a checkbox, or a field that shows the value set so far until text is typed. -/
inductive Widget
  | checkbox (label : Value) (checked : Bool)
  | field (label : CodeText) (placeholder text : String)

/-- The settings under change, and the widgets of those that can be changed. -/
structure Dialog where
  settings : Settings
  widgets : Entries CodeText Widget

namespace Dialog

/-- The message when something is to be added to a label that is no text. -/
def labelMessage : Value → String
  | .list _ => "can only concatenate list (not \"str\") to list"
  | label => s!"unsupported operand type(s) for +: '{label.kindName}' and 'str'"

/-- What is said of the values that a field takes. -/
def fieldNote : String := " (min. 2):"

/-- What is made of the settings: widgets, the keys of settings that cannot be changed, and the label at
which building stopped, if it did. -/
structure Plan where
  widgets : Entries CodeText Widget
  skipped : List CodeText
  badLabel : Option Value

/-- The description of a key: the key itself if there is none. -/
def description (descriptions : Settings) (key : CodeText) : Value :=
  (descriptions.get? key).getD (.text key)

/-- Plans the widgets in the order of the settings. -/
def plan (descriptions : Settings) : Settings → Plan
  | [] => ⟨[], [], none⟩
  | (key, value) :: rest =>
    let label := description descriptions key
    match value with
    | .bool checked =>
      let more := plan descriptions rest
      { more with widgets := (key, .checkbox label checked) :: more.widgets }
    | .integer n =>
      match label with
      | .text label =>
        let more := plan descriptions rest
        { more with widgets := (key, .field (label ++ fieldNote) (toString n) "") :: more.widgets }
      | _ => ⟨[], [], some label⟩
    | _ =>
      let more := plan descriptions rest
      { more with skipped := key :: more.skipped }

def check (dialog : Dialog) (key : CodeText) (on : Bool) : Dialog :=
  match dialog.widgets.get? key with
  | some (.checkbox label _) =>
    { dialog with widgets := dialog.widgets.put key (.checkbox label on) }
  | _ => dialog

def fill (dialog : Dialog) (key : CodeText) (text : String) : Dialog :=
  match dialog.widgets.get? key with
  | some (.field label placeholder _) =>
    { dialog with widgets := dialog.widgets.put key (.field label placeholder text) }
  | _ => dialog

def leastPlaces : Int := 2

/-- The integer typed for a setting, or what is wrong with it. -/
def readField (key : CodeText) (text : String) : Except String Int :=
  match Text.readInteger text with
  | .error fault => .error fault.message
  | .ok n =>
    if key = Settings.placesKey ∧ n < leastPlaces then
      .error s!"'{n}' is too small. Minimum is {leastPlaces}."
    else .ok n

/-- Takes over one widget. A blank field leaves its setting as it is. -/
def takeOver (settings : Settings) (key : CodeText) : Widget → Except String Settings
  | .checkbox _ checked => .ok (settings.put key (.bool checked))
  | .field _ _ text =>
    let typed := Text.trim text
    if typed = "" then .ok settings else (readField key typed).map fun n => settings.put key (.integer n)

/-- Takes over the widgets in order: the settings so far, and the first setting that was refused. -/
def takeOverAll (settings : Settings) : Entries CodeText Widget → Settings × Option (CodeText × String)
  | [] => (settings, none)
  | (key, widget) :: rest =>
    match takeOver settings key widget with
    | .ok settings => takeOverAll settings rest
    | .error message => (settings, some (key, message))

end Dialog

end Reckoner.Window
