import Reckoner.Console
import Reckoner.Proofs.Checked.Value
import Reckoner.Proofs.Display
import Reckoner.Proofs.Expression.Blame

/-!
# Results without breakdowns

The front ends over checked operations: rounding can leave the range, only a finite number has a whole part,
and an integer can be too long for a text. None of this happens to the value of a text.

* `formatResult_eq`, every value can be shown.
* `nothing_breaks_down`, every text has a value or one of the faults that it can be blamed for.
-/

namespace Reckoner

/-! ### One line -/

/-- A text without blanks other than spaces, so without anything that ends a line. -/
def OneLine (text : List Char) : Prop := ∀ c ∈ text, Text.isBlank c = true → c = ' '

theorem oneLine_of_all {text : List Char} (all : (text.all fun c => !Text.isBlank c || c == ' ') = true) :
    OneLine text := by
  intro c member blank
  have space := List.all_eq_true.mp all c member
  simpa [blank] using space

theorem OneLine.append {first second : List Char} (left : OneLine first) (right : OneLine second) :
    OneLine (first ++ second) :=
  List.forall_mem_append.mpr ⟨left, right⟩

theorem IsDigits.oneLine {digits : List Char} (all : IsDigits digits) : OneLine digits := by
  intro c member blank
  have number : isNumberChar c = true := by simp [isNumberChar, all c member]
  rw [isBlank_of_isNumberChar number] at blank
  cases blank

theorem oneLine_minusSign (negative : Bool) : OneLine (minusSign negative) := by
  cases negative <;> exact oneLine_of_all (by decide)

theorem Numeral.Spelled.oneLine {numeral : Numeral} {text : List Char} (spelled : numeral.Spelled text) :
    OneLine text := by
  cases spelled with
  | parts front middle back =>
    refine front.all.oneLine.append (.append ?_ ?_)
    · cases middle with
      | absent => exact fun _ member => nomatch member
      | present _ all => exact List.forall_mem_cons.mpr ⟨by decide, all.oneLine⟩
    · cases back with
      | absent => exact fun _ member => nomatch member
      | present negative _ all =>
        refine List.forall_mem_cons.mpr ⟨by decide, List.forall_mem_cons.mpr ⟨?_, all.oneLine⟩⟩
        cases negative <;> decide

theorem Binary64.oneLine_shown (x : Binary64) : OneLine x.shown.toList := by
  unfold shown
  split
  · exact oneLine_of_all (by decide)
  · exact oneLine_of_all (by decide)
  · exact oneLine_of_all (by decide)
  · next negative rank inRange =>
    simp only
    split
    · rw [toList_toString_int]
      exact (oneLine_minusSign _).append (isDigits_decimalDigits _).oneLine
    · obtain ⟨numeral, spelled, -⟩ := finite_spelled inRange
      rw [text, String.toList_ofList, toChars]
      exact (oneLine_minusSign negative).append spelled.oneLine

theorem Console.oneLine_answer (text : String) : OneLine (answer text).toList := by
  unfold answer
  split
  · rw [String.toList_append]
    exact (oneLine_of_all (by decide)).append (Binary64.oneLine_shown _)
  · exact oneLine_of_all (by decide)

namespace Checked

open Binary64

/-! ### Showing a value -/

/-- The whole part, which only a finite number has. -/
def wholeNumber : Binary64 → Checked Int
  | nan => throw (.breakdown ⟨.domain, "cannot convert float NaN to integer"⟩)
  | infinite _ => throw (.breakdown ⟨.range, unboundedMessage⟩)
  | finite negative rank _ => return signed negative (wholePart rank)

def integerText (n : Int) : Checked String :=
  if digitCount n.natAbs ≤ Text.digitLimit then return toString n
  else throw (.breakdown ⟨.domain, Text.unwrittenMessage⟩)

/-- The number rounded to decimal places, if that is finite. -/
def roundTo (x : Binary64) (places : Nat) : Checked Binary64 :=
  let result := x.roundToPlaces places
  if x.isFinite && !result.isFinite then
    throw (.breakdown ⟨.range, "rounded value too large to represent"⟩)
  else return result

def isBelow (bound : Nat) : Binary64 → Bool
  | finite _ rank _ => wholePart rank < bound
  | _ => false

/-- What is to be shown, and whether it differs from the value. -/
def roundResult (x : Binary64) : Option Int → Checked (Binary64 × Bool)
  | some places =>
    if x.isInteger then return (x, false)
    else do
      let result ← roundTo x (max places 0).toNat
      return (result, !result.sameValue x)
  | none => return (x, false)

/-- A number as it is shown: as an integer, if it is a whole number and not too large. -/
def showNumber (x : Binary64) : Checked String :=
  if x.isInteger && isBelow integerBound x then do integerText (← wholeNumber x) else return x.text

def formatResult (value : Option Binary64) (places : Option Int) : Checked Display := do
  let x ← needed value
  if x = nan then return ⟨"NaN", false⟩
  else if !x.isFinite then return ⟨if x.isNegative then "-Infinity" else "Infinity", false⟩
  else
    let (shown, marked) ← roundResult x places
    return ⟨← showNumber shown, marked⟩

/-! ### The front ends -/

def answer (text : String) : Checked String :=
  match evaluate text with
  | .ok value => do
    let display ← formatResult value none
    return "= " ++ display.text
  | .error (.fault _) => return Console.invalidMessage
  | .error (.breakdown breakdown) => throw (.breakdown breakdown)

/-- How a calculation fails: because of the settings, with a report, or by a breakdown that nothing catches. -/
inductive Failure
  | settings (fault : CalculationFault)
  | report (diagnosis : Diagnosis)
  | uncaught (stop : Stop)

/-- The report of a breakdown. -/
def crash (text : String) (breakdown : Breakdown) : Diagnosis :=
  ⟨.general, unexpectedCode, s!"Unexpected crash: {breakdown.message}", .text text⟩

def calculateTo (places : Int) (text : String) : Except Failure Display :=
  match evaluate text with
  | .ok value => (formatResult value (some places)).mapError .uncaught
  | .error (.fault fault) => .error (.report (.ofFault (.text text) fault))
  | .error (.breakdown breakdown) => .error (.report (crash text breakdown))

def calculate (file : SettingsFile) (text : String) : Except Failure Display :=
  match file.places.resolve with
  | .ok places => calculateTo places text
  | .error fault => .error (.settings fault)

theorem integerText_of_lt {n : Int} (small : n.natAbs < integerBound) : integerText n = .ok (toString n) := by
  have few : digitCount n.natAbs ≤ 16 := (Nat.length_toDigits_le_iff (by decide) (by decide)).mpr small
  exact if_pos (few.trans (by decide))

theorem showNumber_eq {x : Binary64} (finite : x.isFinite = true) : showNumber x = .ok x.shown := by
  cases x with
  | nan | infinite => cases finite
  | finite negative rank inRange =>
    rw [showNumber, shown, isBelow]
    split
    · next whole =>
      have small : wholePart rank < integerBound := by simpa using (Bool.and_eq_true_iff.mp whole).2
      rw [wholeNumber, pure_eq_ok, ok_bind, integerText_of_lt (by rwa [natAbs_signed])]
    · rfl

theorem isFinite_displayed {x : Binary64} (finite : x.isFinite = true) (places : Option Int) :
    (x.displayed places).isFinite = true := by
  cases places with
  | none => exact finite
  | some n =>
    rw [displayed]
    split
    · exact finite
    · next fraction => exact isFinite_roundToPlaces finite (by simpa using fraction) n.toNat

/-- Rounding to decimal places stays in the range, since only fractions are rounded. -/
theorem roundResult_eq {x : Binary64} (finite : x.isFinite = true) (places : Option Int) :
    roundResult x places = .ok (x.displayed places, (x.display places).rounded) := by
  cases places with
  | none => simp [roundResult, display, displayed, sameValue_refl finite]
  | some n =>
    cases whole : x.isInteger with
    | true => simp [roundResult, display, displayed, whole, sameValue_refl finite]
    | false =>
      have inRange := isFinite_roundToPlaces finite whole n.toNat
      have places : (max n 0).toNat = n.toNat := by omega
      simp [roundResult, roundTo, display, displayed, whole, places, finite, inRange]

/-- Every value can be shown, with all digits or rounded. -/
theorem formatResult_eq (x : Binary64) (places : Option Int) :
    formatResult (some x) places = .ok (x.display places) := by
  cases x with
  | nan => cases places <;> rfl
  | infinite negative => cases negative <;> cases places <;> rfl
  | finite negative rank inRange =>
    -- From here on it only matters that the number is finite.
    have finite : (Binary64.finite negative rank inRange).isFinite = true := rfl
    generalize Binary64.finite negative rank inRange = x at finite
    have number : x ≠ nan := by
      rintro rfl
      cases finite
    rw [formatResult, needed, pure_eq_ok, ok_bind, if_neg number, if_neg (by simp [finite]),
      roundResult_eq finite, ok_bind]
    simp only [showNumber_eq (isFinite_displayed finite places)]
    rfl

theorem answer_eq (text : String) : answer text = .ok (Console.answer text) := by
  rw [answer, evaluate_eq, Console.answer]
  cases Reckoner.evaluate text with
  | error fault => rfl
  | ok value =>
    simp only [lift_ok, formatResult_eq]
    rfl

/-- How a failed calculation appears: as the report of its fault, but for a fault of the settings. -/
def Failure.of : CalculationFault → Failure
  | .fault text fault => report (.ofFault (.text text) fault)
  | .unboundedPlaces => settings .unboundedPlaces
  | .notText expression => report (notTextDiagnosis expression)

theorem calculateTo_eq (places : Int) (text : String) :
    calculateTo places text = (Reckoner.calculateTo places (.text text)).mapError .of := by
  rw [calculateTo, evaluate_eq, Reckoner.calculateTo.eq_def]
  cases evaluated : Reckoner.evaluate text with
  | error fault =>
    simp only [lift_error, evaluated]
    rfl
  | ok value =>
    simp only [lift_ok, formatResult_eq, evaluated]
    rfl

theorem calculate_eq (file : SettingsFile) (text : String) :
    calculate file text = (Reckoner.calculate file (.text text)).mapError .of := by
  rw [calculate, Reckoner.calculate]
  cases file.places with
  | unbounded => rfl
  | given places => exact calculateTo_eq places text
  | unusable => exact calculateTo_eq Settings.defaultPlaces text

end Checked

theorem report_of_calculate {file : SettingsFile} {text : String} {diagnosis : Diagnosis}
    (failed : Checked.calculate file text = .error (.report diagnosis)) :
    ∃ fault, evaluate text = .error fault ∧ diagnosis = .ofFault (.text text) fault := by
  rw [Checked.calculate] at failed
  cases resolved : file.places.resolve with
  | error fault => simp [resolved] at failed
  | ok places =>
    rw [resolved] at failed
    simp only [Checked.calculateTo, Checked.evaluate_eq] at failed
    cases evaluated : evaluate text with
    | ok value => simp [evaluated, Checked.formatResult_eq, Except.mapError] at failed
    | error fault =>
      simp only [evaluated, Checked.lift_error] at failed
      cases failed
      exact ⟨fault, rfl, rfl⟩

/-- Whatever the text, no operation breaks down on the way to its value, or to the fault that the text is to
be blamed for. The console has one line to answer with, and no calculation reports the unexpected. -/
theorem nothing_breaks_down (text : String) :
    ((∃ value, Checked.evaluate text = .ok (some value) ∧ evaluate text = .ok value) ∨
      ∃ fault, Checked.evaluate text = .error (.fault fault) ∧ evaluate text = .error fault ∧ OfText fault) ∧
    (Checked.answer text = .ok (Console.answer text) ∧ OneLine (Console.answer text).toList) ∧
    ∀ file, Checked.calculate file text = (calculate file (.text text)).mapError .of ∧
      ∀ diagnosis, Checked.calculate file text = .error (.report diagnosis) → diagnosis.code ≠ unexpectedCode := by
  refine ⟨?_, ⟨Checked.answer_eq text, Console.oneLine_answer text⟩, fun file => ?_⟩
  · have checked := Checked.evaluate_eq text
    cases evaluated : evaluate text with
    | ok value => exact .inl ⟨value, by rw [checked, evaluated, Checked.lift_ok], rfl⟩
    | error fault =>
      exact .inr ⟨fault, by rw [checked, evaluated, Checked.lift_error], rfl, evaluate_ofText evaluated⟩
  · refine ⟨Checked.calculate_eq file text, fun diagnosis failed => ?_⟩
    obtain ⟨fault, evaluated, rfl⟩ := report_of_calculate failed
    exact (evaluate_ofText evaluated).code_ne _

end Reckoner
