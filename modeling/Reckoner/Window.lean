import Reckoner.Calculation
import Reckoner.Log.Setup
import Reckoner.Window.Dialog
import Reckoner.Window.Layout
import Reckoner.Window.Palette

/-!
# The window

The window holds an expression and its result. A step is one thing that the user does; the reaction to it
is the desktop afterwards, what was logged, the message boxes shown, and the failure that cut the step short,
if there was one.
-/

namespace Reckoner.Window

/-- The clipboard: its text, and the complaint with which every use of it fails while it is broken. -/
structure Clipboard where
  text : String
  broken : Option String
  deriving DecidableEq, Repr

/-- The expression box: the text in front of what is selected, what is selected, and the text behind it. -/
structure Line where
  before : String
  selected : String
  behind : String
  deriving DecidableEq, Repr

namespace Line

/-- A text that was set as a whole: nothing is selected, and the cursor is behind it. -/
def ofText (text : String) : Line := ⟨text, "", ""⟩

def text (line : Line) : String := line.before ++ line.selected ++ line.behind

/-- Text that is inserted takes the place of what is selected, and the cursor goes behind it. -/
def insert (line : Line) (text : String) : Line := ⟨line.before ++ text, "", line.behind⟩

end Line

structure State where
  settings : Settings
  line : Line
  result : String
  tooltip : String
  /-- The number last calculated, empty if the last calculation failed. -/
  lastResult : String
  shiftHeld : Bool

def State.expression (window : State) : String := window.line.text

/-- The keys that the window looks at, and all others. -/
inductive Key
  | shift
  | enter
  | backspace
  | other
  deriving DecidableEq, Repr

/-- A controller of the keyboard, by the keys that were pressed through it. -/
structure Controller where
  pressed : List Key
  deriving DecidableEq, Repr

/-- The keyboard, by what its controllers say of Shift. -/
structure Keyboard where
  shiftPressed : Controller → Bool

namespace Keyboard

/-- A controller tells of the keys alone that were pressed through it. -/
def TellsOwnKeys (keyboard : Keyboard) : Prop :=
  ∀ controller, keyboard.shiftPressed controller = controller.pressed.contains .shift

def usual : Keyboard := ⟨fun controller => controller.pressed.contains .shift⟩

theorem usual_tellsOwnKeys : usual.TellsOwnKeys := fun _ => rfl

end Keyboard

/-- The window and what it works with. -/
structure Desktop where
  window : State
  settingsFile : SettingsFile
  descriptionsFile : SettingsFile
  clipboard : Clipboard
  keyboard : Keyboard
  log : Log.Hierarchy

inductive Box
  | warning (title text informative styleSheet : String)
  | critical (title : String) (text : CodeText)
  deriving DecidableEq, Repr

inductive Stroke
  | press
  | release
  deriving DecidableEq, Repr

inductive Failure
  | unboundedPlaces
  | settings (cause : SettingsFile.TooLong)
  /-- The settings cannot be written. -/
  | unsaved (cause : SettingsFile.TooLong)
  | label (label : Value)

structure Reaction where
  desktop : Desktop
  records : List Log.Record
  boxes : List Box
  /-- The strokes that the window leaves to others. -/
  handedOn : List Stroke
  /-- How often the settings dialog announced that settings were saved. -/
  announced : Nat
  failure : Option Failure

namespace Reaction

def quiet (desktop : Desktop) : Reaction := ⟨desktop, [], [], [], 0, none⟩

/-- Goes on after a reaction, unless it failed. -/
def andThen (first : Reaction) (next : Desktop → Reaction) : Reaction :=
  if first.failure.isSome then first
  else
    let second := next first.desktop
    ⟨second.desktop, first.records ++ second.records, first.boxes ++ second.boxes,
      first.handedOn ++ second.handedOn, first.announced + second.announced, second.failure⟩

def showing (reaction : Reaction) (box : Box) : Reaction :=
  { reaction with boxes := reaction.boxes ++ [box] }

def failing (reaction : Reaction) (failure : Failure) : Reaction :=
  { reaction with failure := some failure }

end Reaction

def logger : String := "Calculator.UI"

namespace Desktop

def setWindow (desktop : Desktop) (window : State) : Desktop := { desktop with window := window }

/-- Tells the log, which may not take it. -/
def tell (desktop : Desktop) (level : Int) (text : CodeText) : Reaction :=
  { Reaction.quiet desktop with
    records := if desktop.log.isEnabled logger level then [⟨logger, level, text⟩] else [] }

/-- A new window, with the settings in the file. -/
def start (settingsFile descriptionsFile : SettingsFile) (clipboard : String) (keyboard : Keyboard)
    (log : Log.Hierarchy) : Except SettingsFile.TooLong Desktop := do
  let (settings, _) ← settingsFile.load Settings.defaults
  return ⟨⟨settings, .ofText "", "", "", "", false⟩, settingsFile, descriptionsFile, ⟨clipboard, none⟩,
    keyboard, log⟩

end Desktop

def isDark (settings : Settings) : Bool := settings.isOn Settings.darkModeKey

def palette (settings : Settings) : Palette := if isDark settings then .dark else .light

def State.clipboardLabel (window : State) : String :=
  if window.shiftHeld then pasteLabel else copyKey

def invalidMessage : String := "Invalid expression"

/-- What a failed calculation tells the user who asks for more. -/
def tooltipOf (diagnosis : Diagnosis) : String :=
  let meaning := (codeMeanings.get? diagnosis.code).getD "Unknown error"
  s!"Error {diagnosis.code}: {meaning}\n{diagnosis.message}"

/-- What the result box shows of a result: the expression before it if that is wanted, else the number,
with its mark if it is approximate. -/
def resultText (settings : Settings) (expression : String) (display : Display) : String :=
  if settings.isOn Settings.showExpressionKey then
    Text.trim expression ++ " " ++ display.answer
  else if display.rounded then display.answer
  else display.text

def evaluateExpression (desktop : Desktop) : Reaction :=
  let window := desktop.window
  match calculate desktop.settingsFile (.text window.expression) with
  | .ok display =>
    .quiet (desktop.setWindow
      { window with
        lastResult := display.text, tooltip := "",
        result := resultText window.settings window.expression display })
  | .error .unboundedPlaces => (Reaction.quiet desktop).failing .unboundedPlaces
  | .error (.notText value) => rejected (notTextDiagnosis value)
  | .error (.fault text fault) => rejected (.ofFault (.text text) fault)
where
  /-- A calculation that failed shows the one message and keeps no number. -/
  rejected (diagnosis : Diagnosis) : Reaction :=
    (desktop.tell Log.infoLevel diagnosis.describe).andThen fun desktop =>
      .quiet (desktop.setWindow
        { desktop.window with
          lastResult := "", result := invalidMessage, tooltip := tooltipOf diagnosis })

def insert (desktop : Desktop) (text : String) : Desktop :=
  desktop.setWindow { desktop.window with line := desktop.window.line.insert text }

def deleteLast (desktop : Desktop) : Desktop :=
  desktop.setWindow
    { desktop.window with
      line := .ofText (String.ofList desktop.window.expression.toList.dropLast) }

def clear (desktop : Desktop) : Desktop :=
  desktop.setWindow { desktop.window with line := .ofText "", result := "" }

def clipboardTrouble (desktop : Desktop) (complaint : String) : Reaction :=
  (desktop.tell Log.warningLevel s!"Clipboard unavailable: {complaint}").showing
    (.warning "Clipboard error" "The clipboard is not available on this system." complaint
      (boxStyleSheet (isDark desktop.window.settings)))

/-- Adds the clipboard's text to the expression, and calculates it if the settings say so. -/
def paste (desktop : Desktop) : Reaction :=
  match desktop.clipboard.broken with
  | some complaint => clipboardTrouble desktop complaint
  | none =>
    let text := Text.trim desktop.clipboard.text
    if text = "" then .quiet desktop
    else
      let desktop := insert desktop text
      if desktop.window.settings.isOn Settings.evaluatePastedKey then evaluateExpression desktop
      else .quiet desktop

/-- Puts the last number into the clipboard, if there is one. -/
def copy (desktop : Desktop) : Reaction :=
  if desktop.window.lastResult = "" then .quiet desktop
  else
    match desktop.clipboard.broken with
    | some complaint => clipboardTrouble desktop complaint
    | none =>
      .quiet { desktop with clipboard := { desktop.clipboard with text := desktop.window.lastResult } }

/-- Is Shift down, by the strokes that the window saw or by a new controller of the keyboard? -/
def Desktop.shiftDown (desktop : Desktop) : Bool :=
  desktop.window.shiftHeld || desktop.keyboard.shiftPressed ⟨[]⟩

/-- The clipboard button: it pastes while Shift is down, and copies otherwise. -/
def useClipboard (desktop : Desktop) : Reaction :=
  if desktop.shiftDown then paste desktop else copy desktop

end Reckoner.Window
