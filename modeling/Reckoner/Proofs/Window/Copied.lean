import Reckoner.Proofs.Calculation
import Reckoner.Proofs.Window.History

/-!
# What is copied and what is shown

Without Shift the clipboard button copies the number at the end of the result box. The message about an invalid
expression is never copied. When the window was cleared the box is empty, but the number of an evaluation that
succeeded before is still kept, and is copied.

Main results: `Evaluation.Shows.names`, `copied_after_run`.
-/

namespace Reckoner

/-! ### Numbers and messages -/

/-- A number is shown as a text that is not empty and is not the message about an invalid expression. -/
theorem Binary64.shown_apart (x : Binary64) : x.shown ≠ "" ∧ x.shown ≠ Window.invalidMessage := by
  cases x with
  | nan => exact ⟨by decide, by decide⟩
  | infinite negative => cases negative <;> exact ⟨by decide, by decide⟩
  | finite negative rank inRange =>
    -- The text reads as a number, and neither of the two does.
    obtain ⟨y, read, -⟩ := read?_shown (x := .finite negative rank inRange) rfl
    have empty : read? "".toList = none := by decide
    have message : read? Window.invalidMessage.toList = none := by decide
    constructor
    · intro same
      rw [same, empty] at read
      cases read
    · intro same
      rw [same, message] at read
      cases read

/-- The text of an answer is that of a number. -/
theorem calculate_shown {file : SettingsFile} {problem : String} {display : Display}
    (answered : calculate file (.text problem) = .ok display) : ∃ x : Binary64, display.text = x.shown := by
  obtain ⟨places, -, rounded⟩ := bind_eq_ok.mp answered
  rw [calculateTo] at rounded
  cases evaluated : evaluate problem with
  | ok value =>
    rw [evaluated] at rounded
    cases rounded
    exact ⟨_, rfl⟩
  | error fault =>
    rw [evaluated] at rounded
    cases rounded

namespace Window

/-- The text is the number, or ends in it behind a sign. -/
def Names (text number : String) : Prop :=
  text = number ∨ ∃ front sign, (sign = "= " ∨ sign = "≈ ") ∧ text = front ++ sign ++ number

/-- A text with a sign in it is no message. -/
theorem names_signed (front number : String) {sign : String} (signs : sign = "= " ∨ sign = "≈ ") :
    Names (front ++ sign ++ number) number ∧ front ++ sign ++ number ≠ "" ∧
      front ++ sign ++ number ≠ invalidMessage := by
  refine ⟨.inr ⟨front, sign, signs, rfl⟩, ?_⟩
  obtain ⟨c, mark, here⟩ : ∃ c, (c = '=' ∨ c = '≈') ∧ c ∈ (front ++ sign ++ number).toList := by
    rcases signs with rfl | rfl
    · exact ⟨'=', .inl rfl, by simp⟩
    · exact ⟨'≈', .inr rfl, by simp⟩
  have absent : c ∉ "".toList ∧ c ∉ invalidMessage.toList := by
    rcases mark with rfl | rfl <;> decide
  constructor
  · intro empty
    exact absent.1 (empty ▸ here)
  · intro message
    exact absent.2 (message ▸ here)

/-- Exactly the evaluations that failed have no number. -/
theorem Evaluation.number_eq_empty {evaluation : Evaluation} : evaluation.number = "" ↔ evaluation.failed = true := by
  unfold Evaluation.number Evaluation.failed
  cases answered : evaluation.outcome with
  | error fault => simp
  | ok display =>
    obtain ⟨x, shown⟩ := calculate_shown answered
    simp [shown, x.shown_apart.1]

/-- What is shown of an evaluation is the message if it failed. Else it is the number or ends in it behind the
sign, and it is neither empty nor the message. -/
theorem Evaluation.Shows.names {evaluation : Evaluation} {text : String} (shows : evaluation.Shows text) :
    (evaluation.failed = true ∧ text = invalidMessage) ∨
      evaluation.failed = false ∧ Names text evaluation.number ∧ text ≠ "" ∧ text ≠ invalidMessage := by
  cases shows with
  | invalid failed => exact .inl ⟨by rw [Evaluation.failed, failed], rfl⟩
  | @equation display answered =>
    refine .inr ⟨by rw [Evaluation.failed, answered], ?_⟩
    rw [Evaluation.number, answered]
    rcases display.answer_cases with answer | answer
    · rw [answer, ← String.append_assoc]
      exact names_signed _ _ (.inl rfl)
    · rw [answer, ← String.append_assoc]
      exact names_signed _ _ (.inr rfl)
  | number answered =>
    refine .inr ⟨by rw [Evaluation.failed, answered], ?_⟩
    rw [Evaluation.number, answered]
    obtain ⟨x, shown⟩ := calculate_shown answered
    exact ⟨.inl rfl, shown ▸ x.shown_apart⟩
  | approximate answered =>
    refine .inr ⟨by rw [Evaluation.failed, answered], ?_⟩
    rw [Evaluation.number, answered]
    exact names_signed "" _ (.inr rfl)

/-! ### What is kept and what is shown -/

theorem lastEvaluation?_of_getLast? {marks : List Mark} {evaluation : Evaluation}
    (last : marks.getLast? = some (.evaluated evaluation)) : lastEvaluation? marks = some evaluation := by
  obtain ⟨before, rfl⟩ := List.getLast?_eq_some_iff.mp last
  exact lastEvaluation?_evaluated before evaluation

/-- The number of the last evaluation, if it succeeded and the window was cleared since then. -/
def clearedNumber? (marks : List Mark) : Option String :=
  match marks.getLast?, lastEvaluation? marks with
  | some .cleared, some evaluation => if evaluation.failed then none else some evaluation.number
  | _, _ => none

theorem ne_empty_of_clearedNumber? {marks : List Mark} {number : String}
    (found : clearedNumber? marks = some number) : number ≠ "" := by
  unfold clearedNumber? at found
  split at found
  next evaluation _ _ =>
    split at found
    next => cases found
    next succeeded =>
      cases found
      exact fun empty => succeeded (Evaluation.number_eq_empty.mp empty)
  next => cases found

/-- What the box shows and what is kept. An empty box shows no number, but one may be kept from before the window
was cleared. With the message nothing is kept. Every other box names the number that is kept. -/
inductive Agrees (marks : List Mark) (face : Face) : Prop
  | empty (nothing : face.result = "") (kept : face.lastResult = (clearedNumber? marks).getD "")
  | message (invalid : face.result = invalidMessage) (kept : face.lastResult = "")
  | number (something : face.result ≠ "") (valid : face.result ≠ invalidMessage) (kept : face.lastResult ≠ "")
    (names : Names face.result face.lastResult)

theorem Reflects.agrees {marks : List Mark} {face : Face} (reflects : Reflects marks face) : Agrees marks face := by
  obtain ⟨kept, -, shown⟩ := reflects
  cases last : marks.getLast? with
  | none =>
    cases List.getLast?_eq_none_iff.mp last
    exact .empty shown kept
  | some mark =>
    rw [last] at shown
    cases mark with
    | cleared =>
      -- The evaluation before is still the last one, and its number is kept.
      refine .empty shown (kept.trans ?_)
      rw [clearedNumber?, last]
      cases lastEvaluation? marks with
      | none => rfl
      | some evaluation =>
        cases failed : evaluation.failed with
        | true => simp [failed, Evaluation.number_eq_empty]
        | false => simp [failed]
    | evaluated evaluation =>
      have number : face.lastResult = evaluation.number := by rw [kept, lastEvaluation?_of_getLast? last]; rfl
      rcases shown.1.names with ⟨failed, message⟩ | ⟨succeeded, names, something, valid⟩
      · exact .message message (number.trans (Evaluation.number_eq_empty.mpr failed))
      · rw [← number] at names
        refine .number something valid (fun empty => ?_) names
        rw [number, Evaluation.number_eq_empty, succeeded] at empty
        cases empty

/-- Without Shift the clipboard button copies what the box shows: if it shows a result, the number that it names is
copied, and if it shows the message, nothing is. From an empty box nothing is copied, unless the window was
cleared after an evaluation that succeeded. Then the number of this evaluation is copied. -/
theorem copied_after_run {settingsFile descriptionsFile : SettingsFile} {clipboard : String} {keyboard : Keyboard}
    {log : Log.Hierarchy} {desktop : Desktop}
    (started : Desktop.start settingsFile descriptionsFile clipboard keyboard log = .ok desktop)
    (documented : keyboard.TellsOwnKeys) (events : List Event)
    (released : (desktop.run events).window.shiftHeld = false) :
    let after := desktop.run events
    let copied := (step after (.button copyKey)).desktop
    (after.window.result ≠ "" → after.window.result ≠ invalidMessage →
        ∃ number, number ≠ "" ∧ Names after.window.result number ∧
          copied = { after with clipboard := after.clipboard.take number }) ∧
      (after.window.result = invalidMessage → copied = after) ∧
      (after.window.result = "" →
        (clearedNumber? (desktop.history events) = none → copied = after) ∧
          ∀ number, clearedNumber? (desktop.history events) = some number →
            number ≠ "" ∧ copied = { after with clipboard := after.clipboard.take number }) := by
  intro after copied
  have copies : copied = _ := copy_step ((shiftDown_run started documented events).trans released)
  have unkept (none : after.window.lastResult = "") : copied = after := by
    rw [copies, if_pos none]
  have kept (some : after.window.lastResult ≠ "") :
      copied = { after with clipboard := after.clipboard.take after.window.lastResult } := by
    rw [copies, if_neg some]
  have apart : invalidMessage ≠ "" := by decide
  cases (reflects_of_start started events).agrees with
  | empty nothing number =>
    have number : after.window.lastResult = _ := number
    refine ⟨fun something => absurd nothing something, fun message => ?_, fun _ => ⟨fun none => ?_, ?_⟩⟩
    · exact absurd (message.symm.trans nothing) apart
    · rw [none] at number
      exact unkept number
    · intro cleared found
      have numeric := ne_empty_of_clearedNumber? found
      rw [found] at number
      have number : after.window.lastResult = cleared := number
      rw [number] at kept
      exact ⟨numeric, kept numeric⟩
  | message invalid number =>
    refine ⟨fun _ valid => absurd invalid valid, fun _ => unkept number, fun nothing => ?_⟩
    exact absurd (invalid.symm.trans nothing) apart
  | number something valid number names =>
    refine ⟨fun _ _ => ⟨_, number, names, kept number⟩, ?_, ?_⟩
    · exact fun message => absurd message valid
    · exact fun nothing => absurd nothing something

/-- The user evaluates a third and clears the window. The number that is no longer shown is copied. -/
theorem copied_after_run_cleared :
    let after := plainDesktop.run [.user (.typed "1/3"), .user .entered, .user (.button clearKey)]
    after.window.result = "" ∧ after.window.shiftHeld = false ∧
      (step after (.button copyKey)).desktop.clipboard.text = "0.3333333333" := by
  intro after
  have started : Desktop.start .absent .absent "" .usual .initial = .ok plainDesktop := rfl
  have marks : plainDesktop.history [.user (.typed "1/3"), .user .entered, .user (.button clearKey)] =
      [.evaluated third, .cleared] := by
    show third.mark?.toList ++ [.cleared] = _
    rw [mark?_third]
    rfl
  have number : clearedNumber? [.evaluated third, .cleared] = some "0.3333333333" := by
    show (if third.failed = true then none else some third.number) = _
    rw [Evaluation.failed, Evaluation.number, outcome_third]
    rfl
  -- Only the face of the window is another since the expression was typed and cleared.
  obtain ⟨face, same⟩ : ∃ face : Face, after = plainDesktop.setWindow (plainDesktop.window.withFace face) :=
    ⟨{ (evaluateExpression (insert plainDesktop "1/3")).desktop.window.face with result := "" },
      congrArg clear (evaluateExpression_desktop (insert plainDesktop "1/3"))⟩
  have released : after.window.shiftHeld = false := by
    rw [same]
    rfl
  obtain ⟨-, -, empty⟩ := copied_after_run started Keyboard.usual_tellsOwnKeys _ released
  have copied := ((empty rfl).2 "0.3333333333" (marks ▸ number)).2
  refine ⟨rfl, released, (congrArg (·.clipboard.text) copied).trans ?_⟩
  show (after.clipboard.take "0.3333333333").text = _
  rw [same]
  rfl

end Window

end Reckoner
