import Reckoner.Proofs.Agreement
import Reckoner.Proofs.Window.Presses
import Reckoner.Window.Step

/-!
# The history of a window

A window evaluates its expression at the button, at Enter and at a paste for which the settings ask for it.
Its history is the list of these evaluations and of the times that it was cleared. What the window shows and
keeps of results is a matter of the last of them: an event that leaves no mark in the history, such as typing,
copying or changing settings, changes nothing of it.

Main results: `turns_next`, `reflects_run`, `window_tells_history`.
-/

namespace Reckoner.Window

open Dialog

/-! ### Runs -/

/-- What happens to a window: a step of the user, a change in the expression box by hand, and what others do to the
clipboard and to the files. -/
inductive Event
  | user (step : Step)
  | retyped (line : Line)
  | clipboardChanged (clipboard : Clipboard)
  | filesChanged (settingsFile descriptionsFile : SettingsFile)

/-- The desktop after an event. A step that fails ends there, and the window goes on. -/
def Desktop.next (desktop : Desktop) : Event → Desktop
  | .user one => (step desktop one).desktop
  | .retyped line => desktop.setWindow { desktop.window with line := line }
  | .clipboardChanged clipboard => { desktop with clipboard := clipboard }
  | .filesChanged settingsFile descriptionsFile =>
    { desktop with settingsFile := settingsFile, descriptionsFile := descriptionsFile }

/-- The desktop after all events. -/
def Desktop.run (desktop : Desktop) (events : List Event) : Desktop := events.foldl next desktop

/-- Nothing is run after a step that failed. -/
theorem foldl_of_failed {reaction : Reaction} (failed : reaction.failure.isSome = true) (todo : List Step) :
    todo.foldl (fun reaction one => reaction.andThen fun desktop => step desktop one) reaction = reaction := by
  induction todo with
  | nil => rfl
  | cons one rest ih =>
    have same : (reaction.andThen fun desktop => step desktop one) = reaction := if_pos failed
    rw [List.foldl_cons, same, ih]

/-- A row of steps is a run up to the first step that fails. -/
theorem steps_desktop (desktop : Desktop) (todo : List Step) :
    ∃ finished, finished <+: todo ∧ (steps desktop todo).desktop = desktop.run (finished.map .user) := by
  -- The row goes on from whatever reaction it has come to.
  suffices runs : ∀ reaction : Reaction, ∃ finished, finished <+: todo ∧
      (todo.foldl (fun reaction one => reaction.andThen fun desktop => step desktop one) reaction).desktop =
        reaction.desktop.run (finished.map .user) from
    runs (.quiet desktop)
  induction todo with
  | nil => exact fun reaction => ⟨[], List.nil_prefix, rfl⟩
  | cons one rest ih =>
    intro reaction
    cases failed : reaction.failure.isSome with
    | false =>
      obtain ⟨finished, begins, same⟩ := ih (reaction.andThen fun desktop => step desktop one)
      have here : (reaction.andThen fun desktop => step desktop one).desktop = (step reaction.desktop one).desktop := by
        simp [Reaction.andThen, failed]
      rw [here] at same
      exact ⟨one :: finished, List.cons_prefix_cons.mpr ⟨rfl, begins⟩, same⟩
    | true =>
      rw [foldl_of_failed failed]
      exact ⟨[], List.nil_prefix, rfl⟩

/-! ### Evaluations -/

/-- An expression that was evaluated, with the settings file and the settings of the window at that time. -/
structure Evaluation where
  settingsFile : SettingsFile
  settings : Settings
  expression : String

/-- The evaluation that a desktop is ready for. -/
def Desktop.evaluation (desktop : Desktop) : Evaluation :=
  ⟨desktop.settingsFile, desktop.window.settings, desktop.window.expression⟩

namespace Evaluation

def outcome (evaluation : Evaluation) : Except CalculationFault Display :=
  calculate evaluation.settingsFile (.text evaluation.expression)

def failed (evaluation : Evaluation) : Bool :=
  match evaluation.outcome with
  | .ok _ => false
  | .error _ => true

/-- The number that an evaluation came to, as its answer has it behind the sign. -/
def number (evaluation : Evaluation) : String :=
  match evaluation.outcome with
  | .ok display => display.text
  | .error _ => ""

/-- What is shown of an evaluation: that it failed, or the expression with its answer if the settings of that time
ask for it, or else the number, which is marked if it is approximate. -/
inductive Shows (evaluation : Evaluation) : String → Prop
  | invalid {fault : CalculationFault} (failed : evaluation.outcome = .error fault) :
    Shows evaluation "Invalid expression"
  | equation {display : Display} (answered : evaluation.outcome = .ok display)
    (wanted : evaluation.settings.isOn Settings.showExpressionKey = true) :
    Shows evaluation (Text.trim evaluation.expression ++ " " ++ display.answer)
  | number {display : Display} (answered : evaluation.outcome = .ok display)
    (unwanted : evaluation.settings.isOn Settings.showExpressionKey = false) (same : display.rounded = false) :
    Shows evaluation display.text
  | approximate {display : Display} (answered : evaluation.outcome = .ok display)
    (unwanted : evaluation.settings.isOn Settings.showExpressionKey = false) (rounded : display.rounded = true) :
    Shows evaluation ("≈ " ++ display.text)

end Evaluation

/-- An evaluation shows one text only. -/
theorem Evaluation.Shows.unique {evaluation : Evaluation} {first second : String} (one : evaluation.Shows first)
    (other : evaluation.Shows second) : first = second := by
  cases one <;> cases other <;> simp_all

/-! ### The history -/

/-- What leaves its mark on the results of a window. -/
inductive Mark
  | evaluated (evaluation : Evaluation)
  | cleared

/-- The mark of an evaluation. A calculation for which infinitely many decimal places are set is let go of
without one. -/
def Evaluation.mark? (evaluation : Evaluation) : Option Mark :=
  match evaluation.outcome with
  | .error .unboundedPlaces => none
  | _ => some (.evaluated evaluation)

/-- The desktop with what the clipboard button pastes, if it pastes something and the settings ask for its
evaluation. -/
def Desktop.pasting? (desktop : Desktop) : Option Desktop :=
  let pasted := Text.trim desktop.clipboard.text
  if desktop.shiftDown = true ∧ desktop.clipboard.broken = none ∧ pasted ≠ "" ∧
      desktop.window.settings.isOn Settings.evaluatePastedKey = true then
    some (insert desktop pasted)
  else none

/-- The desktop on which a step evaluates the expression, if it does. -/
def Desktop.evaluating? (desktop : Desktop) : Step → Option Desktop
  | .button text =>
    if text = equalsKey then some desktop else if text = copyKey then desktop.pasting? else none
  | .entered | .keyDown .enter false => some desktop
  | _ => none

/-- The mark of an event, if it leaves one. -/
def Desktop.mark? (desktop : Desktop) : Event → Option Mark
  | .user one =>
    if one = .button clearKey then some .cleared
    else (desktop.evaluating? one).bind fun ready => ready.evaluation.mark?
  | _ => none

/-- The marks of events, in their order. -/
def Desktop.history (desktop : Desktop) : List Event → List Mark
  | [] => []
  | event :: rest => (desktop.mark? event).toList ++ (desktop.next event).history rest

def Mark.evaluation? : Mark → Option Evaluation
  | evaluated evaluation => some evaluation
  | cleared => none

def lastEvaluation? (marks : List Mark) : Option Evaluation := (marks.filterMap Mark.evaluation?).getLast?

/-! ### What an event does to the results -/

/-- What a window shows and keeps of results. -/
structure Face where
  result : String
  tooltip : String
  lastResult : String

def State.face (window : State) : Face := ⟨window.result, window.tooltip, window.lastResult⟩

/-- How an event with this mark turns the face of a window into another. -/
inductive Turns : Option Mark → Face → Face → Prop
  | unmarked (face : Face) : Turns none face face
  | cleared (face : Face) : Turns (some .cleared) face { face with result := "" }
  | answered {evaluation : Evaluation} {display : Display} (answered : evaluation.outcome = .ok display)
    (face : Face) :
    Turns (some (.evaluated evaluation)) face
      ⟨resultText evaluation.settings evaluation.expression display, "", display.text⟩
  | rejected {evaluation : Evaluation} {fault : CalculationFault} (failed : evaluation.outcome = .error fault)
    (diagnosis : Diagnosis) (face : Face) :
    Turns (some (.evaluated evaluation)) face ⟨invalidMessage, tooltipOf diagnosis, ""⟩

theorem Turns.of_unmarked {mark? : Option Mark} {face later : Face} (unmarked : mark? = none) (same : later = face) :
    Turns mark? face later := by
  subst unmarked same
  exact .unmarked later

theorem turns_evaluateExpression (desktop : Desktop) :
    Turns desktop.evaluation.mark? desktop.window.face (evaluateExpression desktop).desktop.window.face := by
  have outcome : desktop.evaluation.outcome = calculate desktop.settingsFile (.text desktop.window.expression) := rfl
  unfold evaluateExpression Evaluation.mark?
  dsimp only
  rw [← outcome]
  cases calculated : desktop.evaluation.outcome with
  | ok display => exact .answered calculated _
  | error fault =>
    cases fault with
    | unboundedPlaces => exact .unmarked _
    | notText value => exact .rejected calculated _ _
    | fault text fault => exact .rejected calculated _ _

def State.withFace (window : State) (face : Face) : State :=
  { window with result := face.result, tooltip := face.tooltip, lastResult := face.lastResult }

/-- An evaluation changes nothing but the face of the window. -/
theorem evaluateExpression_desktop (desktop : Desktop) :
    (evaluateExpression desktop).desktop =
      desktop.setWindow (desktop.window.withFace (evaluateExpression desktop).desktop.window.face) := by
  unfold evaluateExpression
  dsimp only
  split <;> rfl

/-! ### What lasts while settings are changed -/

/-- What holds of a desktop goes on to hold when settings are saved, and when settings are given effect. -/
structure Lasting (holds : Desktop → Prop) : Prop where
  saved {desktop : Desktop} (file : SettingsFile) : holds desktop → holds { desktop with settingsFile := file }
  applied {desktop : Desktop} (settings : Settings) : holds desktop →
    holds { desktop with
      window := { desktop.window with settings := settings }
      log := desktop.log.setLevel Log.programLogger (levelFor settings) }

section

variable {holds : Desktop → Prop} (lasting : Lasting holds) {desktop : Desktop}
include lasting

theorem Lasting.applySettings (now : holds desktop) : holds (applySettings desktop).desktop := by
  unfold Window.applySettings
  split
  next => exact now
  next => exact lasting.applied _ now

theorem Lasting.pressOk (now : holds desktop) (opened : OpenDialog) :
    holds (pressOk desktop opened).1.desktop := by
  unfold Window.pressOk
  dsimp only
  split
  next => exact now
  next =>
    split
    next => exact lasting.saved _ now
    next => exact lasting.saved _ now
    next => exact lasting.applySettings (lasting.saved _ now)

theorem Lasting.act (now : holds desktop) (opened : OpenDialog) (action : DialogAction) :
    holds (act desktop opened action).1.desktop := by
  cases action with
  | check key on | fill key text => exact now
  | ok =>
    rw [Window.act]
    split
    next => exact now
    next => exact lasting.pressOk now opened
  | cancel =>
    rw [Window.act]
    split <;> exact now

theorem Lasting.actAll {reaction : Reaction} (now : holds reaction.desktop) (opened : OpenDialog)
    (actions : List DialogAction) : holds (actAll reaction opened actions).1.desktop := by
  induction actions generalizing reaction opened with
  | nil => exact now
  | cons action rest ih =>
    rw [Window.actAll]
    split
    next => exact now
    next goes =>
      apply ih
      rw [Reaction.andThen, if_neg goes]
      exact lasting.act now opened action

theorem Lasting.openSettings (now : holds desktop) (actions : List DialogAction) :
    holds (openSettings desktop actions).1.desktop := by
  unfold Window.openSettings
  split
  next => exact now
  next => exact now
  next settings _ descriptions _ _ _ =>
    have told : holds (tellSkipped desktop (plan descriptions settings).skipped).desktop := by
      rw [(tellSkipped_leavesAlone desktop _).desktop]
      exact now
    dsimp only
    split
    next => exact told
    next => exact lasting.actAll told _ actions

end

/-- What holds of a desktop goes on to hold in all that may happen to it: also when the window shows, keeps or
holds something else, and when others change the clipboard or the descriptions. -/
structure Steady (holds : Desktop → Prop) : Prop extends Lasting holds where
  window {desktop : Desktop} {window : State} (same : window.settings = desktop.window.settings) :
    holds desktop → holds (desktop.setWindow window)
  clipboard {desktop : Desktop} (clipboard : Clipboard) : holds desktop → holds { desktop with clipboard := clipboard }
  described {desktop : Desktop} (file : SettingsFile) : holds desktop → holds { desktop with descriptionsFile := file }

section

variable {holds : Desktop → Prop} (steady : Steady holds) {desktop : Desktop}
include steady

theorem Steady.evaluateExpression (now : holds desktop) : holds (evaluateExpression desktop).desktop := by
  rw [evaluateExpression_desktop]
  exact steady.window rfl now

theorem Steady.copy (now : holds desktop) : holds (copy desktop).desktop := by
  unfold Window.copy
  split
  next => exact now
  next =>
    split
    next => exact now
    next => exact steady.clipboard _ now

theorem Steady.paste (now : holds desktop) : holds (paste desktop).desktop := by
  -- What is pasted goes into the expression alone.
  have typed (text : String) : holds (insert desktop text) := steady.window rfl now
  unfold Window.paste
  split
  next => exact now
  next =>
    dsimp only
    split_ifs
    · exact now
    · exact steady.evaluateExpression (typed _)
    · exact typed _

theorem Steady.pressButton (now : holds desktop) (text : String) : holds (pressButton desktop text).desktop := by
  unfold Window.pressButton useClipboard
  split_ifs
  · exact steady.window rfl now
  · exact steady.window rfl now
  · exact steady.evaluateExpression now
  · exact steady.openSettings now []
  · exact steady.paste now
  · exact steady.copy now
  · exact steady.window rfl now

theorem Steady.next (now : holds desktop) (event : Event) : holds (desktop.next event) := by
  cases event with
  | retyped => exact steady.window rfl now
  | clipboardChanged clipboard => exact steady.clipboard clipboard now
  | filesChanged settingsFile descriptionsFile =>
    -- A file that others change is like one that is saved.
    exact steady.described descriptionsFile (steady.saved settingsFile now)
  | user one =>
    cases one with
    | button text => exact steady.pressButton now text
    | typed text => exact steady.window rfl now
    | entered => exact steady.evaluateExpression now
    | keyDown key focused =>
      cases key with
      | shift => exact steady.window rfl now
      | other => exact now
      | enter =>
        cases focused with
        | true => exact now
        | false => exact steady.evaluateExpression now
      | backspace =>
        cases focused with
        | true => exact now
        | false => exact steady.pressButton now deleteKey
    | keyUp key =>
      cases key with
      | shift => exact steady.window rfl now
      | enter | backspace | other => exact now
    | changeSettings actions => exact steady.openSettings now actions

theorem Steady.run (now : holds desktop) (events : List Event) : holds (desktop.run events) := by
  induction events generalizing desktop with
  | nil => exact now
  | cons event rest ih => exact ih (steady.next now event)

end

/-- Settings leave the results alone. -/
theorem face_openSettings (desktop : Desktop) (actions : List DialogAction) :
    (openSettings desktop actions).1.desktop.window.face = desktop.window.face := by
  have lasting : Lasting fun later => later.window.face = desktop.window.face :=
    ⟨fun _ same => same, fun _ same => same⟩
  exact lasting.openSettings rfl actions

/-! ### Every event is one of these -/

theorem face_copy (desktop : Desktop) : (copy desktop).desktop.window.face = desktop.window.face := by
  unfold copy
  split
  next => rfl
  next => split <;> rfl

/-- The evaluation of a paste is that of the expression with the pasted text. -/
theorem turns_useClipboard (desktop : Desktop) :
    Turns (desktop.pasting?.bind (·.evaluation.mark?)) desktop.window.face
      (useClipboard desktop).desktop.window.face := by
  have unmarked (idle : desktop.pasting? = none) : desktop.pasting?.bind (·.evaluation.mark?) = none := by
    rw [idle, Option.bind_none]
  cases held : desktop.shiftDown with
  | false =>
    have idle : desktop.pasting? = none := if_neg fun all => Bool.false_ne_true (held.symm.trans all.1)
    have copies : useClipboard desktop = copy desktop := by simp [useClipboard, held]
    rw [copies]
    exact .of_unmarked (unmarked idle) (face_copy desktop)
  | true =>
    have pastes : useClipboard desktop = paste desktop := by simp [useClipboard, held]
    rw [pastes, paste]
    split
    next complaint broken =>
      have idle : desktop.pasting? = none := by simp [Desktop.pasting?, broken]
      exact .of_unmarked (unmarked idle) rfl
    next works =>
      dsimp only
      split
      next nothing =>
        have idle : desktop.pasting? = none := if_neg fun all => all.2.2.1 nothing
        exact .of_unmarked (unmarked idle) rfl
      next something =>
        split
        next wanted =>
          have ready : desktop.pasting? = some (insert desktop (Text.trim desktop.clipboard.text)) :=
            if_pos ⟨held, works, something, wanted⟩
          rw [ready]
          exact turns_evaluateExpression (insert desktop (Text.trim desktop.clipboard.text))
        next unwanted =>
          have idle : desktop.pasting? = none := if_neg fun all => unwanted all.2.2.2
          exact .of_unmarked (unmarked idle) rfl

theorem turns_pressButton (desktop : Desktop) (text : String) :
    Turns (desktop.mark? (.user (.button text))) desktop.window.face
      (pressButton desktop text).desktop.window.face := by
  -- Every text that is no command is typed.
  by_cases command : text ∈ [deleteKey, clearKey, equalsKey, settingsKey, copyKey]
  · simp only [List.mem_cons, List.not_mem_nil, or_false] at command
    rcases command with rfl | rfl | rfl | rfl | rfl
    · exact .unmarked _
    · exact .cleared _
    · exact turns_evaluateExpression desktop
    · exact .of_unmarked rfl (face_openSettings desktop [])
    · exact turns_useClipboard desktop
  · simp only [List.mem_cons, List.not_mem_nil, or_false, not_or] at command
    obtain ⟨notDelete, notClear, notEquals, notSettings, notCopy⟩ := command
    have unmarked : desktop.mark? (.user (.button text)) = none := by
      simp [Desktop.mark?, Desktop.evaluating?, notClear, notEquals, notCopy]
    have inserts : pressButton desktop text = .quiet (insert desktop text) := by
      simp [pressButton, notDelete, notClear, notEquals, notSettings, notCopy]
    rw [inserts]
    exact .of_unmarked unmarked rfl

/-- An event turns the face of the window as its mark says. -/
theorem turns_next (desktop : Desktop) (event : Event) :
    Turns (desktop.mark? event) desktop.window.face (desktop.next event).window.face := by
  cases event with
  | retyped | clipboardChanged | filesChanged => exact .unmarked _
  | user one =>
    cases one with
    | button text => exact turns_pressButton desktop text
    | typed text => exact .unmarked _
    | entered => exact turns_evaluateExpression desktop
    | keyDown key focused =>
      cases key with
      | shift | other => exact .unmarked _
      | enter =>
        cases focused with
        | true => exact .unmarked _
        | false => exact turns_evaluateExpression desktop
      | backspace => cases focused <;> exact .unmarked _
    | keyUp key => cases key <;> exact .unmarked _
    | changeSettings actions =>
      exact .of_unmarked rfl (face_openSettings desktop actions)

/-! ### What the face tells -/

theorem tooltipOf_ne_empty (diagnosis : Diagnosis) : tooltipOf diagnosis ≠ "" := by
  intro empty
  simp only [tooltipOf, String.append_eq_empty_iff] at empty
  obtain ⟨⟨⟨⟨⟨word, -⟩, -⟩, -⟩, -⟩, -⟩ := empty
  exact absurd word (by decide)

/-- What is shown of a result ends in its number. -/
theorem resultText_ends (settings : Settings) (expression : String) (display : Display) :
    ∃ front, resultText settings expression display = front ++ display.text := by
  obtain ⟨sign, answered⟩ : ∃ sign, display.answer = sign ++ display.text := ⟨_, rfl⟩
  unfold resultText
  split
  next =>
    refine ⟨Text.trim expression ++ " " ++ sign, ?_⟩
    rw [answered, ← String.append_assoc]
  next =>
    split
    next => exact ⟨sign, answered⟩
    next => exact ⟨"", (String.empty_append).symm⟩

theorem Evaluation.shows_resultText {evaluation : Evaluation} {display : Display}
    (answered : evaluation.outcome = .ok display) :
    evaluation.Shows (resultText evaluation.settings evaluation.expression display) := by
  unfold resultText
  cases wanted : evaluation.settings.isOn Settings.showExpressionKey with
  | true => exact .equation answered wanted
  | false =>
    cases mark : display.rounded with
    | true =>
      rw [answer_of_rounded mark]
      exact .approximate answered wanted mark
    | false => exact .number answered wanted mark

theorem lastEvaluation?_evaluated (marks : List Mark) (evaluation : Evaluation) :
    lastEvaluation? (marks ++ [.evaluated evaluation]) = some evaluation := by
  simp [lastEvaluation?, Mark.evaluation?]

theorem lastEvaluation?_cleared (marks : List Mark) :
    lastEvaluation? (marks ++ [.cleared]) = lastEvaluation? marks := by
  simp [lastEvaluation?, Mark.evaluation?]

/-- The face of a window is that of its history. The number of the last evaluation is kept, and the tooltip is
there if it failed. The result box shows the last evaluation, with the number at its end, if the window was not
cleared since then. -/
structure Reflects (marks : List Mark) (face : Face) : Prop where
  lastResult : face.lastResult = ((lastEvaluation? marks).map Evaluation.number).getD ""
  tooltip : face.tooltip ≠ "" ↔ ∃ evaluation, lastEvaluation? marks = some evaluation ∧ evaluation.failed = true
  result :
    match marks.getLast? with
    | some (.evaluated evaluation) =>
      evaluation.Shows face.result ∧ ∃ front, face.result = front ++ face.lastResult
    | _ => face.result = ""

variable {marks : List Mark} {face later : Face} {mark? : Option Mark}

theorem Reflects.turns (reflects : Reflects marks face) (turns : Turns mark? face later) :
    Reflects (marks ++ mark?.toList) later := by
  cases turns with
  | unmarked =>
    rw [Option.toList_none, List.append_nil]
    exact reflects
  | cleared =>
    rw [Option.toList_some]
    refine ⟨?_, ?_, ?_⟩
    · rw [lastEvaluation?_cleared]
      exact reflects.lastResult
    · rw [lastEvaluation?_cleared]
      exact reflects.tooltip
    · rw [List.getLast?_concat]
  | @answered evaluation display answered =>
    rw [Option.toList_some]
    refine ⟨?_, ?_, ?_⟩
    · simp [lastEvaluation?_evaluated, Evaluation.number, answered]
    · simp [lastEvaluation?_evaluated, Evaluation.failed, answered]
    · rw [List.getLast?_concat]
      exact ⟨evaluation.shows_resultText answered, resultText_ends _ _ _⟩
  | @rejected evaluation fault failed diagnosis =>
    rw [Option.toList_some]
    refine ⟨?_, ?_, ?_⟩
    · simp [lastEvaluation?_evaluated, Evaluation.number, failed]
    · simp [lastEvaluation?_evaluated, Evaluation.failed, failed, tooltipOf_ne_empty]
    · rw [List.getLast?_concat]
      exact ⟨.invalid failed, invalidMessage, (String.append_empty).symm⟩

/-- A run adds its history to what the face of the window tells. -/
theorem reflects_run {desktop : Desktop} (reflects : Reflects marks desktop.window.face) (events : List Event) :
    Reflects (marks ++ desktop.history events) (desktop.run events).window.face := by
  induction events generalizing desktop marks with
  | nil =>
    rw [Desktop.history, List.append_nil]
    exact reflects
  | cons event rest ih =>
    rw [Desktop.history, ← List.append_assoc]
    exact ih (reflects.turns (turns_next desktop event))

/-- The clipboard with a text. One that is broken takes none. -/
def Clipboard.take (clipboard : Clipboard) (text : String) : Clipboard :=
  if clipboard.broken.isSome then clipboard else { clipboard with text := text }

/-- Without Shift, the clipboard button copies the last number, if there is one, and does nothing else. -/
theorem copy_step {desktop : Desktop} (released : desktop.shiftDown = false) :
    (step desktop (.button copyKey)).desktop =
      { desktop with
        clipboard :=
          if desktop.window.lastResult = "" then desktop.clipboard
          else desktop.clipboard.take desktop.window.lastResult } := by
  have copies : step desktop (.button copyKey) = useClipboard desktop := rfl
  rw [copies, useClipboard, released]
  unfold copy Clipboard.take
  by_cases nothing : desktop.window.lastResult = ""
  · simp [nothing, Reaction.quiet]
  · cases broken : desktop.clipboard.broken with
    | some complaint =>
      simp only [nothing, if_false]
      rfl
    | none => simp [nothing, broken, Reaction.quiet]

/-! ### The window and its history -/

section

variable {settingsFile descriptionsFile : SettingsFile} {clipboard : String} {keyboard : Keyboard}
  {log : Log.Hierarchy} {desktop : Desktop}

theorem face_and_keyboard_of_start (started : Desktop.start settingsFile descriptionsFile clipboard keyboard log = .ok desktop) :
    desktop.window.face = ⟨"", "", ""⟩ ∧ desktop.keyboard = keyboard := by
  unfold Desktop.start at started
  cases loaded : settingsFile.load Settings.defaults with
  | error cause =>
    rw [loaded] at started
    cases started
  | ok found =>
    rw [loaded] at started
    cases started
    exact ⟨rfl, rfl⟩

/-- A window that was started has the face of its history. -/
theorem reflects_of_start
    (started : Desktop.start settingsFile descriptionsFile clipboard keyboard log = .ok desktop)
    (events : List Event) : Reflects (desktop.history events) (desktop.run events).window.face := by
  have begins : Reflects [] desktop.window.face := by
    rw [(face_and_keyboard_of_start started).1]
    exact ⟨rfl, by simp [lastEvaluation?], rfl⟩
  exact reflects_run begins events

/-- With a keyboard that does as it should, Shift is down for the window exactly while it has seen it held: a new
controller tells of no key. -/
theorem shiftDown_run
    (started : Desktop.start settingsFile descriptionsFile clipboard keyboard log = .ok desktop)
    (documented : keyboard.TellsOwnKeys) (events : List Event) :
    (desktop.run events).shiftDown = (desktop.run events).window.shiftHeld := by
  -- Nothing that happens to the window exchanges its keyboard.
  have steady : Steady fun later => later.keyboard = keyboard :=
    ⟨⟨fun _ same => same, fun _ same => same⟩, fun _ same => same, fun _ same => same, fun _ same => same⟩
  have same := steady.run (face_and_keyboard_of_start started).2 events
  rw [Desktop.shiftDown, same, documented]
  exact Bool.or_false _

/-- After any events, a window that was started shows and keeps of results what its history says. Its clipboard
button copies the number that is kept unless Shift is held, for a keyboard whose controllers tell of their own keys
alone. -/
theorem window_tells_history
    (started : Desktop.start settingsFile descriptionsFile clipboard keyboard log = .ok desktop)
    (documented : keyboard.TellsOwnKeys) (events : List Event) :
    let after := desktop.run events
    Reflects (desktop.history events) after.window.face ∧
      (after.window.shiftHeld = false →
        (step after (.button copyKey)).desktop =
          { after with
            clipboard :=
              if after.window.lastResult = "" then after.clipboard
              else after.clipboard.take after.window.lastResult }) :=
  ⟨reflects_of_start started events,
    fun released => copy_step ((shiftDown_run started documented events).trans released)⟩

end

/-- A new window without files. -/
def plainDesktop : Desktop :=
  ⟨⟨Settings.defaults, .ofText "", "", "", "", false⟩, .absent, .absent, ⟨"", none⟩, .usual, .initial⟩

/-- A third, with the settings of a window without files. -/
def third : Evaluation := ⟨.absent, Settings.defaults, "1/3"⟩

theorem outcome_third : third.outcome = .ok ⟨"0.3333333333", true⟩ := by
  have one : Literal ['1'] _ := .whole (by simp) (by simp)
  have three : Literal ['3'] _ := .whole (by simp) (by simp)
  have derived : Infix .sum "1/3".toList _ :=
    .tighter (.operation .div (.tighter (.tighter (.literal one))) (.tighter (.literal three)))
  have shown : (Operation.div.apply (Decimal.toBinary64 false ⟨digitsValue ['1'], 0⟩)
      (Decimal.toBinary64 false ⟨digitsValue ['3'], 0⟩)).display (some 10) = ⟨"0.3333333333", true⟩ := by
    decide +kernel
  obtain ⟨tokens, scanned, phrase⟩ := derived.scan_eq
  have evaluated := phrase.value
  have effective : SettingsFile.absent.PlacesInEffect 10 := SettingsFile.resolve_eq_ok_iff.mp rfl
  rw [third, Evaluation.outcome, calculate_eq effective, evaluate, scanned]
  simp only [evaluated, shown]

theorem mark?_third : third.mark? = some (.evaluated third) := by simp [Evaluation.mark?, outcome_third]

/-- The user types a third and presses Enter. Then the clipboard button is pressed. -/
theorem window_tells_history_third :
    let after := plainDesktop.run [.user (.typed "1/3"), .user .entered]
    after.window.face = ⟨"1/3 ≈ 0.3333333333", "", "0.3333333333"⟩ ∧
      (step after (.button copyKey)).desktop.clipboard.text = "0.3333333333" := by
  intro after
  have marks : plainDesktop.history [.user (.typed "1/3"), .user .entered] = [.evaluated third] := by
    show third.mark?.toList ++ [] = _
    rw [mark?_third]
    rfl
  have started : Desktop.start .absent .absent "" .usual .initial = .ok plainDesktop := rfl
  obtain ⟨reflects, copies⟩ := window_tells_history started Keyboard.usual_tellsOwnKeys [.user (.typed "1/3"), .user .entered]
  rw [marks] at reflects
  have shown : after.window.face.result = "1/3 ≈ 0.3333333333" :=
    reflects.result.1.unique (.equation outcome_third rfl)
  have kept : after.window.face.lastResult = "0.3333333333" := by
    rw [reflects.lastResult]
    simp [lastEvaluation?, Mark.evaluation?, Evaluation.number, outcome_third]
  have silent : after.window.face.tooltip = "" := by
    have speaks := reflects.tooltip
    simpa [lastEvaluation?, Mark.evaluation?, Evaluation.failed, outcome_third] using speaks
  have face : after.window.face = ⟨"1/3 ≈ 0.3333333333", "", "0.3333333333"⟩ := by
    rw [← shown, ← kept, ← silent]
  have same : after = (insert plainDesktop "1/3").setWindow
      ((insert plainDesktop "1/3").window.withFace after.window.face) := evaluateExpression_desktop _
  have released : after.window.shiftHeld = false := by
    rw [same]
    rfl
  have copied := congrArg (·.clipboard.text) (copies released)
  refine ⟨face, copied.trans ?_⟩
  show (if after.window.face.lastResult = "" then after.clipboard
    else after.clipboard.take after.window.face.lastResult).text = _
  rw [kept, same]
  rfl

end Reckoner.Window
