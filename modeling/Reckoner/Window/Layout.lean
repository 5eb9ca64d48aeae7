/-!
# The layout of the window

A display with the expression above its result, and a grid of buttons below.
-/

namespace Reckoner.Window

def settingsKey : String := "⚙"

/-- The button of the clipboard, which copies. -/
def copyKey : String := "📋"

/-- The label of the clipboard button while it pastes. -/
def pasteLabel : String := "📑"

def deleteKey : String := "Del"

def clearKey : String := "Clr"

def equalsKey : String := "="

/-- A button of the grid: its text, its row and column, and how many columns it takes. -/
structure Button where
  text : String
  row : Nat
  column : Nat
  span : Nat
  deriving DecidableEq, Repr

/-- The name by which style sheets know a button. -/
def Button.name? (button : Button) : Option String :=
  if button.text = equalsKey then some "equals" else none

/-- The buttons in the order they are made. -/
def buttons : List Button :=
  [⟨settingsKey, 0, 0, 2⟩, ⟨copyKey, 0, 2, 2⟩,
    ⟨"7", 1, 0, 1⟩, ⟨"8", 1, 1, 1⟩, ⟨"9", 1, 2, 1⟩, ⟨"+", 1, 3, 1⟩,
    ⟨"4", 2, 0, 1⟩, ⟨"5", 2, 1, 1⟩, ⟨"6", 2, 2, 1⟩, ⟨"-", 2, 3, 1⟩,
    ⟨"1", 3, 0, 1⟩, ⟨"2", 3, 1, 1⟩, ⟨"3", 3, 2, 1⟩, ⟨"/", 3, 3, 1⟩,
    ⟨"0", 4, 0, 1⟩, ⟨".", 4, 1, 1⟩, ⟨"(", 4, 2, 1⟩, ⟨")", 4, 3, 1⟩,
    ⟨deleteKey, 5, 0, 1⟩, ⟨clearKey, 5, 1, 1⟩, ⟨"*", 5, 2, 1⟩, ⟨"^", 5, 3, 1⟩,
    ⟨equalsKey, 6, 0, 4⟩]

def gridRows : Nat := 7

def gridColumns : Nat := 4

structure Margins where
  left : Nat
  top : Nat
  right : Nat
  bottom : Nat
  deriving DecidableEq, Repr

structure Size where
  width : Nat
  height : Nat
  deriving DecidableEq, Repr

def title : String := "Expression Evaluator"

def windowName : String := "calculator"

def minimumSize : Size := ⟨340, 560⟩

def windowMargins : Margins := ⟨12, 12, 12, 12⟩

def displayName : String := "display"

def displayHeight : Nat := 92

def displayMargins : Margins := ⟨10, 8, 10, 8⟩

def placeholder : String := "0"

def resultName : String := "result"

/-- Sizes of type in tenths of a point. -/
def expressionTypeSize : Nat := 125

def resultTypeSize : Nat := 110

def gridSpacing : Nat := 8

def gridMargins : Margins := ⟨0, 8, 0, 0⟩

def dialogTitle : String := "Calculator Settings"

def dialogSize : Size := ⟨320, 240⟩

end Reckoner.Window
