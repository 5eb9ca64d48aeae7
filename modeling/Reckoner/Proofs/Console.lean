import Reckoner.Console
import Reckoner.Proofs.Expression.Spacing

/-!
# The course of a console session

The console trims a line before it is answered. Blanks at the ends of a text move positions at most, and no
answer names a position, so the line is answered as it was typed. A session is then a matter of the first exit
command among the lines: what stands before it is answered line by line, blank lines apart, and what stands
behind it is not read.

Main results: `answer_trim`, `loop_eq`, `run_trace`.
-/

namespace Reckoner

/-! ### Trimmed texts -/

/-- Trimming takes blanks off both ends of a text, and nothing else. -/
theorem Text.trim_split (text : String) :
    ∃ front back : String, text = front ++ (trim text ++ back) ∧
      (∀ c ∈ front.toList, isBlank c = true) ∧ ∀ c ∈ back.toList, isBlank c = true := by
  let inner := text.toList.dropWhile isBlank
  refine ⟨String.ofList (text.toList.takeWhile isBlank),
    String.ofList (inner.reverse.takeWhile isBlank).reverse, ?_, ?_, ?_⟩
  · -- The rest behind the first blanks is split from its end.
    have ends : (inner.reverse.dropWhile isBlank).reverse ++ (inner.reverse.takeWhile isBlank).reverse = inner := by
      rw [← List.reverse_append, List.takeWhile_append_dropWhile, List.reverse_reverse]
    apply String.toList_inj.mp
    simp only [trim, trimBoth, String.toList_append, String.toList_ofList]
    rw [ends, List.takeWhile_append_dropWhile]
  · rw [String.toList_ofList]
    exact List.all_eq_true.mp List.all_takeWhile
  · intro c member
    rw [String.toList_ofList, List.mem_reverse] at member
    exact List.all_eq_true.mp List.all_takeWhile c member

/-- Positions do not matter for the value of a text. -/
theorem evaluate_toOption_spaced {text other : String} {spacing : Spacing}
    (scanned : scan text = (scan other).spaced spacing) :
    (evaluate text).toOption = (evaluate other).toOption := by
  rw [evaluate, scanned, postfixRow_spaced, evaluate]
  cases postfixRow (scan other) with
  | error fault => rfl
  | ok row => exact congrArg Except.toOption (postfixValue_spaced spacing row)

/-- Blanks before and behind a text make no difference to its value. -/
theorem evaluate_toOption_padded {front back : String} (text : String)
    (blankFront : ∀ c ∈ front.toList, Text.isBlank c = true)
    (blankBack : ∀ c ∈ back.toList, Text.isBlank c = true) :
    (evaluate (front ++ (text ++ back))).toOption = (evaluate text).toOption := by
  -- No number goes on across the end of a text.
  have first : ¬ InsideNumber "".toList (text ++ back).toList := by
    rintro ⟨before, c, d, after, same, -⟩
    rw [String.toList_empty] at same
    exact List.cons_ne_nil c [] (List.append_eq_nil_iff.mp same.symm).2
  have second : ¬ InsideNumber text.toList "".toList := by
    rintro ⟨before, c, d, after, -, same, -⟩
    rw [String.toList_empty] at same
    cases same
  have behind := evaluate_toOption_spaced (scan_spaced blankFront first)
  have ahead := evaluate_toOption_spaced (scan_spaced blankBack second)
  rw [String.empty_append, String.empty_append] at behind
  rw [String.append_empty, String.append_empty] at ahead
  exact behind.trans ahead

theorem evaluate_toOption_trim (text : String) :
    (evaluate (Text.trim text)).toOption = (evaluate text).toOption := by
  obtain ⟨front, back, split, blankFront, blankBack⟩ := Text.trim_split text
  calc
    (evaluate (Text.trim text)).toOption = (evaluate (front ++ (Text.trim text ++ back))).toOption :=
      (evaluate_toOption_padded _ blankFront blankBack).symm
    _ = (evaluate text).toOption := congrArg (fun text => (evaluate text).toOption) split.symm

namespace Console

/-- An answer depends on the value alone. -/
theorem answer_eq_of_toOption {first second : String}
    (same : (evaluate first).toOption = (evaluate second).toOption) : answer first = answer second := by
  unfold answer
  cases one : evaluate first <;> cases other : evaluate second <;> simp_all [Except.toOption]

/-- A line is answered as it was typed. -/
theorem answer_trim (line : String) : answer (Text.trim line) = answer line :=
  answer_eq_of_toOption (evaluate_toOption_trim line)

/-! ### The first exit command -/

/-- Is there nothing but blanks on the line? -/
def isBlankLine (line : String) : Bool := Text.trim line == ""

/-- Is the line an exit command, in letters of either case and between blanks? -/
def isExit (line : String) : Bool := exitCommands.contains (Text.trim line).toLower

theorem reply_leave {line : String} (exits : isExit line = true) : reply line = .leave := by
  have solid : Text.trim line ≠ "" := by
    intro blank
    rw [isExit, blank] at exits
    have lower : "".toLower = "" := by
      change "".map Char.toLower = ""
      simp
    rw [lower] at exits
    exact absurd exits (by decide)
  rw [isExit] at exits
  simp only [reply, if_neg solid, exits, if_true]

theorem reply_goesOn {line : String} (goesOn : isExit line = false) :
    reply line = if isBlankLine line then .ignore else .answer (Text.trim line) := by
  rw [isExit] at goesOn
  simp only [reply, goesOn, Bool.false_eq_true, if_false, isBlankLine, beq_iff_eq]

/-- What happens at a line that is no exit command. -/
def events (line : String) : List Event :=
  .prompted :: if isBlankLine line then [] else [.answered (Text.trim line)]

/-- A line that is no exit command is heard, and the loop goes on behind it. -/
theorem loop_goesOn (ending : Ending) {line : String} (goesOn : isExit line = false) (rest : List String) :
    loop ending (line :: rest) = (loop ending rest).after (events line) := by
  rw [loop, reply_goesOn goesOn, events]
  cases isBlankLine line <;> rfl

/-- At an exit command the loop ends, and the lines behind it are left. -/
theorem loop_exit (ending : Ending) {line : String} (exits : isExit line = true) (rest : List String) :
    loop ending (line :: rest) = ⟨[.prompted], rest, false⟩ := by
  rw [loop, reply_leave exits]

/-- Where the lines end, in whatever way, the loop ends with an empty line. -/
theorem loop_nil (ending : Ending) : loop ending [] = ⟨[.prompted, .said ""], [], false⟩ := by
  cases ending <;> rfl

/-- How many lines are heard: those in front of the first exit command, or all. -/
def heardCount (lines : List String) : Nat := (lines.findIdx? isExit).getD lines.length

/-- What the loop says where it ends: nothing at an exit command, else an empty line. -/
def farewell (lines : List String) : List String := if (lines.findIdx? isExit).isSome then [] else [""]

theorem heardCount_goesOn {line : String} (goesOn : isExit line = false) (rest : List String) :
    heardCount (line :: rest) = heardCount rest + 1 := by
  rw [heardCount, heardCount, List.findIdx?_cons, goesOn]
  cases rest.findIdx? isExit <;> rfl

theorem farewell_goesOn {line : String} (goesOn : isExit line = false) (rest : List String) :
    farewell (line :: rest) = farewell rest := by
  rw [farewell, farewell, List.findIdx?_cons, goesOn]
  cases rest.findIdx? isExit <;> rfl

/-- The loop hears the lines in front of the first exit command, one more prompt, and leaves what is behind. -/
theorem loop_eq (ending : Ending) (lines : List String) :
    loop ending lines =
      ⟨(lines.take (heardCount lines)).flatMap events ++ .prompted :: (farewell lines).map .said,
        lines.drop (heardCount lines + 1), false⟩ := by
  induction lines with
  | nil => exact loop_nil ending
  | cons line rest ih =>
    cases exits : isExit line with
    | true =>
      rw [loop_exit ending exits]
      simp [heardCount, farewell, List.findIdx?_cons, exits]
    | false =>
      rw [loop_goesOn ending exits, ih, heardCount_goesOn exits, farewell_goesOn exits]
      simp [Session.after]

/-! ### What is written and prompted -/

/-- Of the lines that are heard, each that is not blank is answered by one line. -/
theorem output_events (heard : List String) :
    (heard.flatMap events).filterMap Event.output? = (heard.filter (!isBlankLine ·)).map answer := by
  induction heard with
  | nil => rfl
  | cons line heard ih =>
    rw [List.flatMap_cons, List.filterMap_append, ih]
    cases blank : isBlankLine line with
    | true => simp [events, blank, Event.output?]
    | false => simp [events, blank, Event.output?, List.filterMap_cons, answer_trim]

/-- Every line that is heard is prompted for. -/
theorem prompts_events (heard : List String) :
    (heard.flatMap events).filterMap (fun event => if event = .prompted then some prompt else none) =
      List.replicate heard.length prompt := by
  induction heard with
  | nil => rfl
  | cons line heard ih =>
    rw [List.flatMap_cons, List.filterMap_append, ih]
    cases blank : isBlankLine line <;> simp [events, blank, List.replicate_succ]

theorem heardCount_le (lines : List String) : heardCount lines ≤ lines.length := by
  unfold heardCount
  cases found : lines.findIdx? isExit with
  | none => exact Nat.le_refl _
  | some place => exact (List.findIdx?_eq_some_iff_getElem.mp found).1.le

/-- A session says what it is for, answers each line that is not blank up to the first exit command by one line,
as the line was typed, and says good-bye by an empty line if there is no exit command. It prompts once for every
line that it reads, the exit command or the end of the lines included, leaves exactly the lines behind the exit
command, and returns zero. Each line gets the answer that it gets as the only one. -/
theorem run_trace (lines : List String) (ending : Ending) :
    let exit? := lines.findIdx? isExit
    let heard := lines.take (exit?.getD lines.length)
    let session := run lines ending
    session.output =
        banner :: ((heard.filter (!isBlankLine ·)).map answer ++ if exit?.isSome then [] else [""]) ∧
      session.prompts = List.replicate (exit?.getD lines.length + 1) prompt ∧
      session.unread = lines.drop (exit?.getD lines.length + 1) ∧
      session.status? = some 0 ∧
      ∀ line rest other, (runOnce (line :: rest) other).output = [banner, answer line] := by
  intro exit? heard session
  have whole : session =
      ⟨.said banner :: (heard.flatMap events ++ .prompted :: (farewell lines).map .said),
        lines.drop (heardCount lines + 1), false⟩ := by
    show (loop ending lines).after [.said banner] = _
    rw [loop_eq]
    rfl
  have count : heard.length = heardCount lines := List.length_take_of_le (heardCount_le lines)
  have closing : ((farewell lines).map Event.said).filterMap Event.output? = farewell lines := by
    unfold farewell
    split <;> rfl
  have silent : ((farewell lines).map Event.said).filterMap
      (fun event => if event = .prompted then some prompt else none) = [] := by
    unfold farewell
    split <;> rfl
  rw [whole]
  refine ⟨?_, ?_, rfl, rfl, fun line rest other => rfl⟩
  · simp only [Session.output, List.filterMap_cons, List.filterMap_append, Event.output?, output_events, closing]
    rfl
  · simp only [Session.prompts, List.filterMap_cons, List.filterMap_append, prompts_events, silent, count]
    rw [List.replicate_succ']
    rfl

end Console

end Reckoner
