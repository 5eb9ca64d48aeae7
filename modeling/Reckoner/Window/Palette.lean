import Reckoner.Value

/-!
# Colours

The window has a light and a dark palette. A style sheet is a text with the colours of a palette in it.
-/

namespace Reckoner.Window

structure Palette where
  background : String
  card : String
  border : String
  button : String
  buttonHover : String
  text : String
  muted : String
  deriving DecidableEq, Repr

namespace Palette

def light : Palette :=
  ⟨"#f5f6f8", "#ffffff", "#d2d6dc", "#f8f9fb", "#eceff3", "#212529", "#6c757d"⟩

def dark : Palette :=
  ⟨"#121212", "#1e1e1e", "#444444", "#2e2e2e", "#444444", "#ffffff", "#b0b0b0"⟩

def toEntries (palette : Palette) : Entries String String :=
  [("background", palette.background), ("card", palette.card), ("border", palette.border),
    ("button", palette.button), ("button_hover", palette.buttonHover), ("text", palette.text),
    ("muted", palette.muted)]

/-- A colour among entries, or the key that is missing. -/
def colour (entries : Entries String String) (key : String) : Except String String :=
  match entries.get? key with
  | some value => .ok value
  | none => .error key

/-- The palette of entries, or the first key missing in the order in which the style sheet needs them. -/
def ofEntries (entries : Entries String String) : Except String Palette := do
  let background ← colour entries "background"
  let card ← colour entries "card"
  let border ← colour entries "border"
  let text ← colour entries "text"
  let muted ← colour entries "muted"
  let button ← colour entries "button"
  let buttonHover ← colour entries "button_hover"
  return ⟨background, card, border, button, buttonHover, text, muted⟩

def rule (selector body : String) : String := "        " ++ selector ++ " \x7b" ++ body ++ "\x7d\n"

/-- A block of a style sheet with a line for each declaration. -/
def block (selector : String) (declarations : List String) : String :=
  let lines := declarations.map fun declaration => "            " ++ declaration ++ ";\n"
  "        " ++ selector ++ " \x7b\n" ++ String.join lines ++ "        \x7d\n"

/-- The style sheet of the window: rounded cards and buttons, and a colour under the pointer. -/
def styleSheet (palette : Palette) : String :=
  "\n" ++
  rule "QWidget#calculator" s!"background-color: {palette.background};" ++
  block "QFrame#display"
    [s!"background-color: {palette.card}", s!"border: 1px solid {palette.border}",
      "border-radius: 12px"] ++
  rule "QLineEdit"
    s!"background-color: {palette.card}; color: {palette.text}; border: none;" ++
  rule "QLineEdit#result" s!"color: {palette.muted};" ++
  block "QPushButton"
    [s!"background-color: {palette.button}", s!"color: {palette.text}", "border: none",
      "border-radius: 12px", "padding: 8px"] ++
  rule "QPushButton:hover" s!"background-color: {palette.buttonHover};" ++
  rule "QPushButton#equals" "background-color: #007bff; color: white; font-weight: bold;" ++
  rule "QPushButton#equals:hover" "background-color: #0069d9;" ++
  "    "

end Palette

/-- The style sheet of the settings dialog in dark mode; in light mode there is none. -/
def dialogStyleSheet (darkMode : Bool) : String :=
  let rule (selector body : String) : String :=
    "\n                        " ++ selector ++ " \x7b" ++ body ++ "\x7d"
  if darkMode then
    rule "QDialog" "background-color: #121212;" ++ rule "QLabel" "color: white;" ++
    rule "QCheckBox" "color: white;" ++
    rule "QLineEdit" "background-color: #444444;color: white;border: 1px solid #666666;" ++
    rule "QDialogButtonBox QPushButton" "background-color: #666666;color: white;"
  else ""

/-- The style sheet of message boxes in dark mode; in light mode there is none. -/
def boxStyleSheet (darkMode : Bool) : String :=
  let block (selector : String) (declarations : List String) : String :=
    let lines := declarations.map fun declaration =>
      "                    " ++ declaration ++ ";\n"
    "                " ++ selector ++ " \x7b\n" ++ String.join lines ++ "                \x7d\n"
  if darkMode then
    "\n" ++ block "QMessageBox" ["background-color: #121212", "color: white"] ++
    block "QLabel" ["color: white"] ++
    block "QPushButton"
      ["background-color: #2e2e2e", "color: white", "border: 1px solid #444444",
        "padding: 5px 15px"] ++
    block "QPushButton:hover" ["background-color: #444444"] ++ "            "
  else ""

end Reckoner.Window
