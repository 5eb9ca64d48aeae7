import Reckoner.Window.Settings

/-!
# What is shown first

The window and its dialog as they are when they come up, before the user does anything.
-/

namespace Reckoner.Window

/-- A new window: the window itself, the display with its two boxes, and the grid. -/
structure View where
  title : String
  name : String
  minimumSize : Size
  hasIcon : Bool
  styleSheet : String
  margins : Margins
  displayName : String
  displayHeight : Nat
  displayMargins : Margins
  placeholder : String
  expressionTypeSize : Nat
  expressionFocused : Bool
  resultName : String
  resultTypeSize : Nat
  resultReadOnly : Bool
  gridSpacing : Nat
  gridMargins : Margins
  buttons : List Button
  /-- By how much each row and each column stretches. -/
  rowStretches : List Nat
  columnStretches : List Nat
  deriving DecidableEq, Repr

/-- The view of a window with these settings. The icon is there if its file is. -/
def view (settings : Settings) (hasIcon : Bool) : View where
  title := title
  name := windowName
  minimumSize := minimumSize
  hasIcon := hasIcon
  styleSheet := (palette settings).styleSheet
  margins := windowMargins
  displayName := displayName
  displayHeight := displayHeight
  displayMargins := displayMargins
  placeholder := placeholder
  expressionTypeSize := expressionTypeSize
  expressionFocused := true
  resultName := resultName
  resultTypeSize := resultTypeSize
  resultReadOnly := true
  gridSpacing := gridSpacing
  gridMargins := gridMargins
  buttons := buttons
  rowStretches := List.replicate gridRows 1
  columnStretches := List.replicate gridColumns 1

/-- The frame around the widgets of the dialog, which is as large as it is at least. -/
structure DialogFrame where
  title : String
  size : Size
  minimumSize : Size
  styleSheet : String
  deriving DecidableEq, Repr

def DialogView.frame (shown : DialogView) : DialogFrame :=
  ⟨dialogTitle, dialogSize, dialogSize, dialogStyleSheet shown.dark⟩

end Reckoner.Window
