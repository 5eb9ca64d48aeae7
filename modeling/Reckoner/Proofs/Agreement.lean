import Reckoner.Console
import Reckoner.Proofs.Calculation
import Reckoner.Proofs.Display
import Reckoner.Proofs.Expression.Accepted

/-!
# The two front ends

The console shows every result with all its digits, a calculation rounds it as the settings say. They refuse
the same expressions, and they show the same text unless rounding changed the result; then the calculation
says so, and the two texts read back as different numbers.

Main result: `calculate_agrees`.
-/

namespace Reckoner

/-- The text is read as a double of this value; the zeros are equal. -/
def ReadsAs (text : String) (value : Binary64) : Prop :=
  ∃ x, Binary64.read? text.toList = some x ∧ x.sameValue value = true

/-! ### Signs of an answer -/

theorem answer_of_exact {display : Display} (exact_mark : display.rounded = false) :
    display.answer = "= " ++ display.text := by
  rw [Display.answer, exact_mark]
  rfl

theorem answer_of_rounded {display : Display} (marked : display.rounded = true) :
    display.answer = "≈ " ++ display.text := by
  rw [Display.answer, marked]
  rfl

/-- The sign of an answer tells an exact result from a rounded one. -/
theorem signs_apart (text other : String) : "= " ++ text ≠ "≈ " ++ other := by
  intro same
  have chars := congrArg String.toList same
  simp [String.toList_append] at chars

/-- No answer with a result is the message about an invalid expression. -/
theorem exact_ne_invalid (text : String) : "= " ++ text ≠ Console.invalidMessage := by
  intro same
  have chars := congrArg String.toList same
  simp [String.toList_append, Console.invalidMessage] at chars

theorem answer_eq_exact {display : Display} {text : String} (answered : display.answer = "= " ++ text) :
    display.rounded = false ∧ display.text = text := by
  cases mark : display.rounded with
  | true =>
    rw [answer_of_rounded mark] at answered
    exact absurd answered.symm (signs_apart text display.text)
  | false =>
    rw [answer_of_exact mark] at answered
    exact ⟨rfl, (String.append_right_inj _).mp answered⟩

theorem answer_eq_rounded {display : Display} {text : String} (answered : display.answer = "≈ " ++ text) :
    display.rounded = true ∧ display.text = text := by
  cases mark : display.rounded with
  | true =>
    rw [answer_of_rounded mark] at answered
    exact ⟨rfl, (String.append_right_inj _).mp answered⟩
  | false =>
    rw [answer_of_exact mark] at answered
    exact absurd answered (signs_apart display.text text)

/-! ### Calculations and the console -/

/-- With a number of places in effect, the expression alone decides what the calculation comes to. -/
theorem calculate_eq {file : SettingsFile} {places : Int} (effective : file.PlacesInEffect places)
    (problem : String) :
    calculate file (.text problem) =
      match evaluate problem with
      | .ok value => .ok (value.display (some places))
      | .error fault => .error (.fault problem fault) := by
  rw [calculate, SettingsFile.resolve_eq_ok_iff.mpr effective]
  rfl

/-- The console answers with the result as it is, or with the one message. -/
theorem console_answer_eq (problem : String) :
    Console.answer problem =
      match evaluate problem with
      | .ok value => "= " ++ value.shown
      | .error _ => Console.invalidMessage := rfl

theorem console_answer_eq_invalid {problem : String} :
    Console.answer problem = Console.invalidMessage ↔ ∃ fault, evaluate problem = .error fault := by
  rw [console_answer_eq]
  cases evaluate problem with
  | error fault => simp
  | ok value => simp [exact_ne_invalid]

/-- A calculation that gives an answer has evaluated the expression. -/
theorem calculate_answer_eq {file : SettingsFile} {places : Int}
    (effective : file.PlacesInEffect places) {problem answer : String}
    (calculated : (calculate file (.text problem)).map Display.answer = .ok answer) :
    ∃ value, evaluate problem = .ok value ∧ (value.display (some places)).answer = answer := by
  rw [calculate_eq effective] at calculated
  cases evaluated : evaluate problem with
  | error fault =>
    rw [evaluated] at calculated
    cases calculated
  | ok value =>
    rw [evaluated] at calculated
    exact ⟨value, rfl, Except.ok.inj calculated⟩

/-- With any number of places in effect, the calculation fails exactly if the console calls the
expression invalid, and then with the fault of the expression. An exact answer is that of the console,
character for character. For a rounded answer the console shows digits that read back as the result itself,
while the text of the answer reads back as the result rounded to the places, a negative number of them
counting as none; the two are different numbers. -/
theorem calculate_agrees {file : SettingsFile} {places : Int} (effective : file.PlacesInEffect places)
    (problem : String) :
    ((∃ cause, calculate file (.text problem) = .error cause) ↔
      Console.answer problem = Console.invalidMessage) ∧
    (∀ cause, calculate file (.text problem) = .error cause →
      ∃ fault, evaluate problem = .error fault ∧ cause = .fault problem fault) ∧
    (∀ text, (calculate file (.text problem)).map Display.answer = .ok ("= " ++ text) →
      Console.answer problem = "= " ++ text) ∧
    ∀ text, (calculate file (.text problem)).map Display.answer = .ok ("≈ " ++ text) →
      ∃ value digits, evaluate problem = .ok value ∧ Console.answer problem = "= " ++ digits ∧
        Binary64.read? digits.toList = some value ∧
        ReadsAs text (value.roundToPlaces places.toNat) ∧ ¬ ReadsAs text value ∧ text ≠ digits := by
  refine ⟨?_, ?_, ?_, ?_⟩
  · rw [calculate_eq effective, console_answer_eq_invalid]
    cases evaluate problem <;> simp
  · intro cause failed
    rw [calculate_eq effective] at failed
    cases evaluated : evaluate problem with
    | ok value =>
      rw [evaluated] at failed
      cases failed
    | error fault =>
      rw [evaluated] at failed
      exact ⟨fault, rfl, (Except.error.inj failed).symm⟩
  · intro text calculated
    obtain ⟨value, evaluated, answered⟩ := calculate_answer_eq effective calculated
    obtain ⟨exact_mark, rfl⟩ := answer_eq_exact answered
    -- Without the mark, the number that is shown is the result.
    have same : value.displayed (some places) = value := Binary64.displayed_of_exact exact_mark
    rw [console_answer_eq, evaluated]
    simp only [Binary64.display, same]
  · intro text calculated
    obtain ⟨value, evaluated, answered⟩ := calculate_answer_eq effective calculated
    obtain ⟨marked, rfl⟩ := answer_eq_rounded answered
    obtain ⟨finite, fraction, n, some_places, shown, other⟩ := Binary64.rounded_cases marked
    cases some_places
    have digits : value.shown = value.text := Binary64.shown_of_fraction finite fraction
    have back := Binary64.read?_text value
    rw [← digits] at back
    -- Rounded, the result is still a finite number, so what is shown reads back.
    have rounded : ReadsAs (value.display (some places)).text (value.roundToPlaces places.toNat) := by
      have finite' := Binary64.isFinite_roundToPlaces finite fraction places.toNat
      rw [← shown] at finite' ⊢
      exact Binary64.read?_shown finite'
    have apart : ¬ ReadsAs (value.display (some places)).text value := by
      rintro ⟨x, read, same⟩
      obtain ⟨y, read', same'⟩ := rounded
      cases read.symm.trans read'
      rw [Binary64.sameValue_join same' same] at other
      cases other
    refine ⟨value, value.shown, evaluated, ?_, back, rounded, apart, ?_⟩
    · rw [console_answer_eq, evaluated]
    · intro same
      refine apart ⟨value, ?_, Binary64.sameValue_refl finite⟩
      rw [same]
      exact back

/-- The thirteenth power of a half has more places than are shown of it. -/
theorem calculate_agrees_half_power :
    SettingsFile.absent.PlacesInEffect 10 ∧
      ∃ value digits, evaluate "0.0001220703125" = .ok value ∧
        Console.answer "0.0001220703125" = "= " ++ digits ∧ Binary64.read? digits.toList = some value ∧
        ReadsAs "0.0001220703" (value.roundToPlaces 10) ∧ ¬ ReadsAs "0.0001220703" value ∧
        "0.0001220703" ≠ digits := by
  have effective : SettingsFile.absent.PlacesInEffect 10 :=
    .given (rfl : SettingsFile.absent.load Settings.defaults = .ok (Settings.defaults, [.notUsable .missing])) rfl rfl
  refine ⟨effective, (calculate_agrees effective "0.0001220703125").2.2.2 "0.0001220703" ?_⟩
  have literal : Literal (['0'] ++ '.' :: "0001220703125".toList) _ :=
    .pointed (by simp) (List.all_eq_true.mp rfl)
  have derived : Infix .sum "0.0001220703125".toList _ :=
    .tighter (.tighter (.tighter (.literal literal)))
  have shown : (Decimal.toBinary64 false ⟨1220703125, -13⟩).display (some 10) = ⟨"0.0001220703", true⟩ := by
    decide +kernel
  obtain ⟨tokens, scanned, phrase⟩ := derived.scan_eq
  have evaluated : evaluate "0.0001220703125" = .ok (Decimal.toBinary64 false ⟨1220703125, -13⟩) := by
    rw [evaluate, scanned]
    exact phrase.value
  rw [calculate_eq effective, evaluated]
  simp only [shown]
  rfl

end Reckoner
