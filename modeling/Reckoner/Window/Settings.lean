import Reckoner.Window

/-!
# Changing settings in the window

The settings button opens the dialog, and the window waits until it is gone. Saved settings are loaded again
and take effect at once.
-/

namespace Reckoner.Window

inductive DialogAction
  | check (key : CodeText) (on : Bool)
  | fill (key : CodeText) (text : String)
  | ok
  | cancel
  deriving DecidableEq, Repr

inductive Outcome
  | accepted
  | rejected
  deriving DecidableEq, Repr

/-- A dialog that was opened, and how it was closed, if it was. -/
structure OpenDialog where
  dialog : Dialog
  outcome : Option Outcome

/-- The level that the program's logger gets from the settings. -/
def levelFor (settings : Settings) : Int :=
  if settings.isOn Settings.debugKey then Log.debugLevel else Log.warningLevel

/-- Loads the settings again and gives them effect. -/
def applySettings (desktop : Desktop) : Reaction :=
  match desktop.settingsFile.load Settings.defaults with
  | .error cause => (Reaction.quiet desktop).failing (.settings cause)
  | .ok (settings, _) =>
    .quiet { desktop with
      window := { desktop.window with settings := settings }
      log := desktop.log.setLevel Log.programLogger (levelFor settings) }

/-- Announces that settings were saved. The window listens, and gives them effect. -/
def announceSaved (desktop : Desktop) : Reaction := { applySettings desktop with announced := 1 }

def invalidFieldBox (key : CodeText) (message : String) : Box :=
  .critical "Invalid Input:"
    ("Error in input for '" ++ key ++ s!"':\n\n{message}\n\nPlease correct your input.")

def notSavedBox : Box :=
  let meaning := (codeMeanings.get? notSavedCode).getD ""
  .critical "Error" s!"Error {notSavedCode}: {meaning}"

/-- The OK button: takes the widgets over, saves, gives the settings effect and closes the dialog. It stays
open if a field is refused or the save fails. -/
def pressOk (desktop : Desktop) (opened : OpenDialog) : Reaction × OpenDialog :=
  let (settings, refused) := Dialog.takeOverAll opened.dialog.settings opened.dialog.widgets
  let opened := { opened with dialog := { opened.dialog with settings := settings } }
  match refused with
  | some (key, message) =>
    ((desktop.tell Log.infoLevel ("Invalid input for " ++ key ++ s!": {message}")).showing
      (invalidFieldBox key message), opened)
  | none =>
    let (file, result) := desktop.settingsFile.save (.object settings)
    let desktop := { desktop with settingsFile := file }
    match result.map (SettingsFile.saved (.object settings)) with
    | .error cause => ((Reaction.quiet desktop).failing (.unsaved cause), opened)
    | .ok (.object []) => ((Reaction.quiet desktop).showing notSavedBox, opened)
    | .ok _ => (announceSaved desktop, { opened with outcome := some .accepted })

/-- One action. A closed dialog has no buttons any more. -/
def act (desktop : Desktop) (opened : OpenDialog) : DialogAction → Reaction × OpenDialog
  | .check key on => (.quiet desktop, { opened with dialog := opened.dialog.check key on })
  | .fill key text => (.quiet desktop, { opened with dialog := opened.dialog.fill key text })
  | .ok => if opened.outcome.isSome then (.quiet desktop, opened) else pressOk desktop opened
  | .cancel =>
    if opened.outcome.isSome then (.quiet desktop, opened)
    else (.quiet desktop, { opened with outcome := some .rejected })

/-- The actions one after another, until one fails. -/
def actAll (reaction : Reaction) (opened : OpenDialog) : List DialogAction → Reaction × OpenDialog
  | [] => (reaction, opened)
  | action :: rest =>
    if reaction.failure.isSome then (reaction, opened)
    else
      let (next, opened) := act reaction.desktop opened action
      actAll (reaction.andThen fun _ => next) opened rest

/-- The dialog as it was first shown, and how it was closed. -/
structure DialogView where
  widgets : Entries CodeText Widget
  dark : Bool
  outcome : Option Outcome

def skippedMessage (key : CodeText) : CodeText :=
  "Setting '" ++ key ++ "' has an unsupported type and is not editable."

def tellSkipped (desktop : Desktop) (keys : List CodeText) : Reaction :=
  keys.foldl
    (fun reaction key => reaction.andThen (·.tell Log.warningLevel (skippedMessage key)))
    (.quiet desktop)

/-- Opens the dialog, lets the user act in it, and shows what became of it. It is not shown if it cannot be
built. -/
def openSettings (desktop : Desktop) (actions : List DialogAction) :
    Reaction × Option DialogView :=
  match desktop.settingsFile.load Settings.defaults,
    desktop.descriptionsFile.load Settings.defaultDescriptions with
  | .error cause, _ | _, .error cause => ((Reaction.quiet desktop).failing (.settings cause), none)
  | .ok (settings, _), .ok (descriptions, _) =>
    let plan := Dialog.plan descriptions settings
    let told := tellSkipped desktop plan.skipped
    match plan.badLabel with
    | some label => (told.failing (.label label), none)
    | none =>
      let (reaction, opened) := actAll told ⟨⟨settings, plan.widgets⟩, none⟩ actions
      (reaction, some ⟨plan.widgets, isDark settings, opened.outcome⟩)

end Reckoner.Window
