import Reckoner.Window.Settings

/-!
# What the user does in the window

Buttons and keys, each as a step of the desktop.
-/

namespace Reckoner.Window

/-- A step of the user. `focused` says whether the expression box has the keyboard. -/
inductive Step
  | button (text : String)
  | typed (text : String)
  | entered
  | keyDown (key : Key) (focused : Bool)
  | keyUp (key : Key)
  | changeSettings (actions : List DialogAction)
  deriving DecidableEq, Repr

/-- A button by its text. A text that is no command is added to the expression. -/
def pressButton (desktop : Desktop) (text : String) : Reaction :=
  if text = deleteKey then .quiet (deleteLast desktop)
  else if text = clearKey then .quiet (clear desktop)
  else if text = equalsKey then evaluateExpression desktop
  else if text = settingsKey then (openSettings desktop []).1
  else if text = copyKey then useClipboard desktop
  else .quiet (insert desktop text)

def holdShift (desktop : Desktop) (held : Bool) : Desktop :=
  desktop.setWindow { desktop.window with shiftHeld := held }

def handOn (desktop : Desktop) (stroke : Stroke) : Reaction :=
  { Reaction.quiet desktop with handedOn := [stroke] }

/-- A key goes down. Enter and Backspace stand for buttons, unless the expression box takes them. -/
def keyDown (desktop : Desktop) (key : Key) (focused : Bool) : Reaction :=
  match key, focused with
  | .shift, _ => handOn (holdShift desktop true) .press
  | .enter, false => evaluateExpression desktop
  | .backspace, false => pressButton desktop deleteKey
  | _, _ => handOn desktop .press

def keyUp (desktop : Desktop) (key : Key) : Reaction :=
  match key with
  | .shift => handOn (holdShift desktop false) .release
  | _ => handOn desktop .release

def step (desktop : Desktop) : Step → Reaction
  | .button text => pressButton desktop text
  | .typed text => .quiet (insert desktop text)
  | .entered => evaluateExpression desktop
  | .keyDown key focused => keyDown desktop key focused
  | .keyUp key => keyUp desktop key
  | .changeSettings actions => (openSettings desktop actions).1

/-- Steps one after another, until one fails. -/
def steps (desktop : Desktop) (todo : List Step) : Reaction :=
  todo.foldl (fun reaction one => reaction.andThen fun desktop => step desktop one) (.quiet desktop)

end Reckoner.Window
