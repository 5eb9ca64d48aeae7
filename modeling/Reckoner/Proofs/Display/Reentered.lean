import Reckoner.Proofs.Agreement
import Reckoner.Proofs.Decimal.Leading
import Reckoner.Proofs.Display.Rounded

/-!
# Results that are entered again

A result that is shown with digits and a point is a literal, perhaps behind a sign that belongs to it, and
evaluates to itself. An exponent is not part of a literal, so reading stops at its mark. Which of the two it is
depends on the value alone: a power of ten bounds the shown digits where it bounds the value.

* `evaluate_numeral`, `evaluate_exponent`, both kinds of texts.
* `shown_spelled`, which numbers are shown without an exponent.
* `display_reentered`, what a shown result evaluates to.
-/

namespace Reckoner

/-! ### Literals and exponents -/

theorem IsDigits.not_mem {digits : List Char} (all : IsDigits digits) {c : Char} (other : c.isDigit = false) :
    c ∉ digits := fun member => ne_of_isDigit (all c member) other rfl

/-- Only an exponent has a letter. -/
theorem Numeral.Spelled.mem_mark {numeral : Numeral} {text : List Char} (spelled : numeral.Spelled text) :
    'e' ∈ text ↔ numeral.exponent ≠ none := by
  cases spelled with
  | @parts whole fraction exponent places power front middle back =>
    have first : 'e' ∉ whole := front.all.not_mem rfl
    have second : 'e' ∉ fraction := by
      cases middle with
      | absent => exact List.not_mem_nil
      | present _ all =>
        have digits := all.not_mem (c := 'e') rfl
        simp [digits]
    cases back with
    | absent => simp [first, second]
    | present => simp

/-- Without an exponent, a numeral is a literal. -/
theorem Numeral.FractionSpelled.literal {whole fraction : List Char} {places : Option (List Char)}
    (middle : FractionSpelled places fraction) (front : IsWhole whole) :
    Literal (whole ++ fraction) (toDecimal ⟨whole, places, none⟩ |>.toBinary64 false) := by
  cases middle with
  | absent => simpa [toDecimal] using Literal.whole front.nonempty front.all
  | present nonempty all =>
    simpa [toDecimal] using Literal.pointed (List.append_ne_nil_of_left_ne_nil front.nonempty _) (front.all.append all)

section

variable {run rest : List Char} (negative : Bool) {value : Binary64}

/-- A sign in front of a literal negates it. -/
theorem Literal.number?_signed {d : Decimal} (literal : Literal run (d.toBinary64 false)) :
    number? (minusSign negative ++ run) = some (d.toBinary64 negative) := by
  cases negative with
  | true => exact (Reckoner.number?_signed run _).mpr ⟨_, literal, toBinary64_neg d⟩
  | false => exact (number?_unsigned (literal.maximalRun numberGoesOn_nil).numeric _).mpr literal

/-- At the start of a text, a sign belongs to the literal behind it. -/
theorem Literal.numberAt_start (literal : Literal run value) (ends : numberGoesOn rest = false) :
    NumberAt [] (minusSign negative ++ run) rest where
  boundary := isBoundary_nil _
  shape := by
    have whole := literal.maximalRun ends
    cases negative with
    | true => exact .inr ⟨run, rfl, operandBegins_nil, whole⟩
    | false => exact .inl whole

end

/-- A literal, perhaps behind a sign, and a power of ten behind a mark at this place. -/
inductive HasExponentAt : List Char → Nat → Prop
  | parts (negative down : Bool) {mantissa power : List Char} {d : Decimal}
    (literal : Literal mantissa (d.toBinary64 false)) (nonempty : power ≠ []) (all : IsDigits power) :
    HasExponentAt (minusSign negative ++ mantissa ++ 'e' :: (if down then '-' else '+') :: power)
      (minusSign negative ++ mantissa).length

theorem HasExponentAt.mem {text : List Char} {place : Nat} (exponent : HasExponentAt text place) : 'e' ∈ text := by
  cases exponent
  simp

/-- A literal behind its sign is one token, and its own value. -/
theorem evaluate_numeral {text : String} {negative : Bool} {run : List Char} {d : Decimal}
    (literal : Literal run (d.toBinary64 false)) (spelled : text.toList = minusSign negative ++ run) :
    scan text = .cons ⟨.number text (d.toBinary64 negative), some 0⟩ .done ∧
      evaluate text = .ok (d.toBinary64 negative) := by
  have reads : Reads [] (minusSign negative ++ run ++ []) _ :=
    .number (literal.numberAt_start negative numberGoesOn_nil) (literal.number?_signed negative) .done
  rw [List.append_nil, ← spelled, String.ofList_toList] at reads
  have scanned := reads.scan_eq
  refine ⟨scanned, ?_⟩
  rw [evaluate, scanned]
  rfl

/-- The mark of an exponent is no character of an expression. -/
theorem evaluate_exponent {text : String} {place : Nat} (exponent : HasExponentAt text.toList place) :
    evaluate text = .error (.invalidCharacter 'e' place) := by
  generalize spelled : text.toList = chars at exponent
  cases exponent with
  | @parts negative down mantissa power d literal nonempty all =>
    have ends : numberGoesOn ('e' :: (if down then '-' else '+') :: power) = false := rfl
    have reads : Reads [] (minusSign negative ++ mantissa ++ 'e' :: (if down then '-' else '+') :: power) _ :=
      .number (literal.numberAt_start negative ends) (literal.number?_signed negative) (.stray (by decide))
    rw [← spelled] at reads
    rw [evaluate, reads.scan_eq]
    rfl

/-- A numeral with an exponent has the mark of the exponent behind its literal. -/
theorem Numeral.Spelled.hasExponentAt {numeral : Numeral} {text : List Char} (spelled : numeral.Spelled text)
    (exponent : numeral.exponent ≠ none) (negative : Bool) : ∃ place, HasExponentAt (minusSign negative ++ text) place := by
  cases spelled with
  | @parts whole fraction _ _ _ front middle back =>
    cases back with
    | absent => exact absurd rfl exponent
    | present down nonempty all =>
      have exponent := HasExponentAt.parts negative down (middle.literal front) nonempty all
      rw [List.append_assoc, List.append_assoc] at exponent
      exact ⟨_, exponent⟩

/-! ### Layouts with and without an exponent -/

theorem mark_not_mem_positional {digits : List Char} (all : IsDigits digits) (point : ℤ) :
    'e' ∉ positional digits point := by
  have zeros (count : Nat) : 'e' ∉ List.replicate count '0' := (isDigits_zeros count).not_mem rfl
  have none : 'e' ∉ digits := all.not_mem rfl
  have front (count : Nat) : 'e' ∉ digits.take count := mt List.mem_of_mem_take none
  have back (count : Nat) : 'e' ∉ digits.drop count := mt List.mem_of_mem_drop none
  unfold positional
  split
  · simp [zeros, none]
  · simp only
    split <;> simp [zeros, none, front, back]

theorem Layout.mem_mark_write (layout : Layout) (d : Decimal) :
    'e' ∈ layout.write d ↔
      ¬ (layout.positionalFrom ≤ d.pointPosition - 1 ∧ d.pointPosition - 1 < layout.positionalBelow) := by
  unfold write
  simp only
  split
  next inside => exact iff_of_false (mark_not_mem_positional d.isDigits_significantDigits _) (not_not.mpr inside)
  next outside => exact iff_of_true (by simp [scientific]) outside

namespace Binary64

/-- Zero, and all numbers from one ten-thousandth up to sixteen digits before the point. -/
def IsPositional (x : Binary64) : Prop := x.toRat = 0 ∨ 1 / 10 ^ 4 ≤ |x.toRat| ∧ |x.toRat| < 10 ^ 16

/-- The bounds of the layout are bounds of the value, as no double nearest to one of them lies below it. -/
theorem shortest_positional_iff {rank : Nat} (positive : rank ≠ 0) :
    (Layout.standard.positionalFrom ≤ (shortest rank).pointPosition - 1 ∧
      (shortest rank).pointPosition - 1 < Layout.standard.positionalBelow) ↔
    1 / 10 ^ 4 ≤ magnitude rank ∧ magnitude rank < 10 ^ 16 := by
  have first : (10 : ℚ) ^ (-4 : ℤ) ≤ magnitude (Decimal.rank ⟨1, -4⟩) := by
    have bound : unitsPerOne ≤ 10 ^ 4 * units (Decimal.rank ⟨1, -4⟩) := by decide +kernel
    rw [zpow_neg, magnitude, le_div_iff₀ grid_pos, inv_mul_le_iff₀ (by norm_num)]
    generalize units (Decimal.rank ⟨1, -4⟩) = count, unitsPerOne = unit at bound ⊢
    exact_mod_cast bound
  have last : (10 : ℚ) ^ (16 : ℤ) ≤ magnitude (Decimal.rank ⟨1, 16⟩) := by
    have bound : 10 ^ 16 * unitsPerOne ≤ units (Decimal.rank ⟨1, 16⟩) := by decide +kernel
    rw [magnitude, le_div_iff₀ grid_pos]
    generalize units (Decimal.rank ⟨1, 16⟩) = count, unitsPerOne = unit at bound ⊢
    exact_mod_cast bound
  have lower := lt_pointPosition_shortest_iff positive first
  have upper := not_congr (lt_pointPosition_shortest_iff positive last)
  have ten_thousandth : (10 : ℚ) ^ (-4 : ℤ) = 1 / 10 ^ 4 := by norm_num
  have front : Layout.standard.positionalFrom = -4 := rfl
  have back : Layout.standard.positionalBelow = 16 := rfl
  rw [not_le, zpow_ofNat] at upper
  rw [← ten_thousandth, ← lower, ← upper, front, back]
  omega

/-- The shortest digits of a number have an exponent outside the bounds only. -/
theorem text_spelled (negative : Bool) {rank : Nat} (inRange : rank < rankCount) (positive : rank ≠ 0) :
    ∃ (numeral : Numeral) (run : List Char),
      (finite negative rank inRange).text.toList = minusSign negative ++ run ∧ numeral.Spelled run ∧
        (numeral.exponent = none ↔ (finite negative rank inRange).IsPositional) := by
  obtain ⟨numeral, spelled, -⟩ := finite_spelled inRange
  rw [if_neg positive] at spelled
  have nonzero : (finite negative rank inRange).toRat ≠ 0 := by
    rw [← abs_pos, abs_toRat]
    exact magnitude_pos (Nat.pos_of_ne_zero positive)
  refine ⟨numeral, _, ?_, spelled, ?_⟩
  · rw [text, String.toList_ofList, toChars, if_neg positive]
  · rw [IsPositional, or_iff_right nonzero, abs_toRat, ← shortest_positional_iff positive, ← not_iff_not,
      ← Layout.mem_mark_write, spelled.mem_mark]

/-- Whole numbers that are shown as integers lie within the bounds. -/
theorem isPositional_of_isInteger {negative : Bool} {rank : Nat} {inRange : rank < rankCount}
    (integral : (finite negative rank inRange).isInteger = true) (below : wholePart rank < integerBound) :
    (finite negative rank inRange).IsPositional := by
  have value := abs_toRat_of_isInteger integral
  have bound : (wholePart rank : ℚ) < 10 ^ 16 := by exact_mod_cast below
  rcases Nat.eq_zero_or_pos (wholePart rank) with none | some_units
  · left
    rwa [none, Nat.cast_zero, abs_eq_zero] at value
  · right
    have one : (1 : ℚ) ≤ wholePart rank := by exact_mod_cast some_units
    rw [value]
    exact ⟨le_trans (by norm_num) one, bound⟩

/-- A shown number is a numeral, perhaps behind a sign, and has an exponent outside the bounds only. -/
theorem shown_spelled {x : Binary64} (finite : x.isFinite = true) :
    ∃ (negative : Bool) (numeral : Numeral) (run : List Char), x.shown.toList = minusSign negative ++ run ∧
      numeral.Spelled run ∧ (numeral.exponent = none ↔ x.IsPositional) := by
  cases x with
  | nan | infinite => cases finite
  | finite negative rank inRange =>
    rw [shown]
    split
    next small =>
      obtain ⟨integral, below⟩ := Bool.and_eq_true_iff.mp small
      exact ⟨_, _, _, toList_toString_int _, .digits (isWhole_decimalDigits _),
        iff_of_true rfl (isPositional_of_isInteger integral (of_decide_eq_true below))⟩
    next other =>
      -- A zero is a whole number, so this is none.
      have positive : rank ≠ 0 := by
        rintro rfl
        have nothing : wholePart 0 < integerBound := by decide +kernel
        exact other (Bool.and_eq_true_iff.mpr ⟨isInteger_of_isZero rfl, decide_eq_true nothing⟩)
      exact ⟨negative, text_spelled negative inRange positive⟩

/-- A result that is shown with all its digits and entered again. If it is zero, or one ten-thousandth or more
with at most sixteen digits before the point, it is one token of its own value, and the same text is answered.
Every other one is shown with an exponent, at whose mark reading stops. -/
theorem display_reentered {x : Binary64} (finite : x.isFinite = true) {text : String}
    (shown : (x.display none).text = text) :
    (x.IsPositional → ∃ y, scan text = .cons ⟨.number text y, some 0⟩ .done ∧ evaluate text = .ok y ∧
      y.sameValue x = true ∧ Console.answer text = "= " ++ text) ∧
    (¬ x.IsPositional → ∃ place, HasExponentAt text.toList place ∧
      evaluate text = .error (.invalidCharacter 'e' place)) := by
  obtain ⟨negative, numeral, run, chars, spelled, positional⟩ := shown_spelled finite
  have same : x.shown = text := shown
  rw [same] at chars
  rw [← positional]
  constructor
  · intro plain
    have literal : Literal run (numeral.toDecimal.toBinary64 false) := by
      cases spelled with
      | parts front middle back =>
        cases back with
        | present => cases plain
        | absent => simpa using middle.literal front
    obtain ⟨scanned, evaluated⟩ := evaluate_numeral literal chars
    -- It reads back as the result, so it has the value of the result and is shown like it.
    obtain ⟨y, back, value⟩ := read?_shown finite
    rw [same, chars, read?_spelled spelled] at back
    cases back
    refine ⟨_, scanned, evaluated, value, ?_⟩
    rw [console_answer_eq, evaluated]
    exact congrArg ("= " ++ ·) ((shown_of_sameValue value).trans same)
  · intro exponent
    obtain ⟨place, found⟩ := spelled.hasExponentAt exponent negative
    rw [← chars] at found
    exact ⟨place, found, evaluate_exponent found⟩

/-- The least positive number that is entered again as it is shown, and a number on the far side of the other
bound: the double nearest to its power of ten lies below the power. -/
theorem display_reentered_bounds :
    let x := Decimal.toBinary64 false ⟨1, -4⟩
    let z := Decimal.toBinary64 true ⟨1, 23⟩
    (x.isFinite = true ∧ (x.display none).text = "0.0001" ∧ x.IsPositional ∧
      ∃ y, scan "0.0001" = .cons ⟨.number "0.0001" y, some 0⟩ .done ∧ evaluate "0.0001" = .ok y ∧
        y.sameValue x = true ∧ Console.answer "0.0001" = "= " ++ "0.0001") ∧
    (z.isFinite = true ∧ (z.display none).text = "-1e+23" ∧ ¬ z.IsPositional ∧
      ∃ place, HasExponentAt "-1e+23".toList place ∧ evaluate "-1e+23" = .error (.invalidCharacter 'e' place)) := by
  intro x z
  have finite : x.isFinite = true := by decide +kernel
  have finite' : z.isFinite = true := by decide +kernel
  have shown : (x.display none).text = "0.0001" := by decide +kernel
  have shown' : (z.display none).text = "-1e+23" := by decide +kernel
  obtain ⟨same, marked⟩ := display_reentered finite shown
  obtain ⟨same', marked'⟩ := display_reentered finite' shown'
  have plain : x.IsPositional := by
    by_contra outside
    obtain ⟨place, found, -⟩ := marked outside
    exact absurd found.mem (by decide)
  have outside : ¬ z.IsPositional := by
    intro plain
    obtain ⟨y, -, evaluated, -⟩ := same' plain
    have failed : evaluate "-1e+23" = .error (.invalidCharacter 'e' 2) := by decide +kernel
    rw [failed] at evaluated
    cases evaluated
  exact ⟨⟨finite, shown, plain, same plain⟩, finite', shown', outside, marked' outside⟩

end Binary64

end Reckoner
