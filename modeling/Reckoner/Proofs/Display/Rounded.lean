import Mathlib.Tactic.FieldSimp
import Reckoner.Proofs.Binary64.Exact
import Reckoner.Proofs.Display

/-!
# Rounded results

A result is rounded twice: to the nearest multiple of the last decimal place, and that multiple to the nearest
double. The second step leads no further away from the multiple than the result itself was, so what is shown is
rounded to itself when it is rounded again.

* `RoundsTo.unique`, `RoundsTo.again`, what rounding leads to, and that it is kept.
* `display_settled`, what is shown for a number and for what it was rounded to.
-/

namespace Reckoner

/-- Digits, perhaps behind a minus sign. -/
def IsIntegerNumeral (text : String) : Prop :=
  ∃ (negative : Bool) (digits : List Char),
    text.toList = minusSign negative ++ digits ∧ digits ≠ [] ∧ IsDigits digits

theorem isIntegerNumeral_toString (n : ℤ) : IsIntegerNumeral (toString n) :=
  ⟨_, _, Binary64.toList_toString_int n, Nat.toDigits_ne_nil, isDigits_decimalDigits _⟩

/-- A numeral that is not whole has a point or an exponent. -/
theorem Numeral.Spelled.exists_mark {numeral : Numeral} {text : List Char} (spelled : numeral.Spelled text)
    (broken : numeral.isWhole = false) : ∃ c ∈ text, c = '.' ∨ c = 'e' := by
  cases spelled with
  | parts front middle back =>
    cases middle with
    | present => exact ⟨'.', by simp, .inl rfl⟩
    | absent =>
      cases back with
      | present => exact ⟨'e', by simp, .inr rfl⟩
      | absent => cases broken

namespace Binary64

/-! ### What a number is rounded to -/

/-- The unit of the last of so many decimal places. -/
def lastPlace (places : ℤ) : ℚ := 10 ^ (-max places 0)

/-- Whole numbers are kept, and all are if no places are given. Other ones become the double nearest to the
nearest multiple of the last place. -/
inductive RoundsTo (x : Binary64) : Option ℤ → Binary64 → Prop
  | exact : RoundsTo x none x
  | whole {places n : ℤ} (integral : x.toRat = n) : RoundsTo x (some places) x
  | rounded {places count : ℤ} {r : Binary64} (fraction : ∀ n : ℤ, x.toRat ≠ n)
    (multiple : IsNearestCount (lastPlace places) x.toRat count)
    (nearest : IsNearestDouble (count * lastPlace places) r) : RoundsTo x (some places) r

theorem lastPlace_eq (places : ℤ) : lastPlace places = 1 / 10 ^ places.toNat := by
  have exponent : -max places 0 = -(places.toNat : ℤ) := by omega
  rw [lastPlace, exponent, zpow_neg, zpow_natCast, one_div]

theorem lastPlace_pos (places : ℤ) : 0 < lastPlace places := zpow_pos (by norm_num) _

/-! ### What is displayed -/

/-- Counted in the last of the places, a magnitude is rounded to the nearest multiple. -/
theorem magnitude_isNearestCount (rank places : Nat) :
    IsNearestCount (1 / 10 ^ places) (magnitude rank) (divRoundEven (units rank * Nat.pow 10 places) unitsPerOne) := by
  have grid := grid_pos.ne'
  have pieces : (0 : ℚ) < 1 / (unitsPerOne * 10 ^ places) :=
    one_div_pos.mpr (mul_pos grid_pos (pow_pos (by norm_num) places))
  have counted := (divRoundEven_isNearestCount (units rank * Nat.pow 10 places) unitsPerOne_pos).scale pieces
  have step : (1 / (unitsPerOne * 10 ^ places) * unitsPerOne : ℚ) = 1 / 10 ^ places := by field_simp
  have value : (1 / (unitsPerOne * 10 ^ places) * (units rank * Nat.pow 10 places : Nat) : ℚ) = magnitude rank := by
    rw [magnitude, Nat.pow_eq]
    push_cast
    field_simp
  rwa [step, value] at counted

/-- A fraction is rounded to the double nearest to its nearest multiple. -/
theorem roundToPlaces_nearest {x : Binary64} (finite : x.isFinite = true) (fraction : x.isInteger = false)
    (places : Nat) : ∃ count : ℤ, IsNearestCount (1 / 10 ^ min places gridPlaces) x.toRat count ∧
      IsNearestDouble (count * (1 / 10 ^ min places gridPlaces)) (x.roundToPlaces places) := by
  have inRange := isFinite_roundToPlaces finite fraction places
  cases x with
  | nan | infinite => cases finite
  | finite negative rank bounded =>
    rw [roundToPlaces] at inRange ⊢
    generalize min places gridPlaces = places at inRange ⊢
    have nearest := magnitude_isNearestCount rank places
    generalize divRoundEven (units rank * Nat.pow 10 places) unitsPerOne = coefficient at inRange nearest ⊢
    refine ⟨signed negative coefficient, ?_, ?_⟩
    · cases negative with
      | false => exact nearest
      | true => exact nearest.neg
    · have double := toBinary64_isNearestDouble inRange
      have ratio : (⟨coefficient, -places⟩ : Decimal).ratio = (coefficient, 10 ^ places) := by
        simp [Decimal.ratio]
      rw [ratio] at double
      push_cast at double
      rwa [mul_one_div]

/-- A finite number has no more decimal places than the grid. -/
theorem exists_multiple (x : Binary64) {places : Nat} (deep : gridPlaces ≤ places) :
    ∃ count : ℤ, x.toRat = count * (1 / 10 ^ places) := by
  cases x with
  | nan | infinite => exact ⟨0, by simp [toRat]⟩
  | finite negative rank inRange =>
    obtain ⟨more, rfl⟩ := Nat.exists_eq_add_of_le deep
    refine ⟨signed negative (units rank) * (5 ^ gridPlaces * 10 ^ more), ?_⟩
    rw [toRat_finite]
    unfold unitsPerOne
    generalize gridPlaces = places
    have split : (10 : ℚ) ^ (places + more) = 2 ^ places * (5 ^ places * 10 ^ more) := by
      rw [pow_add, ← mul_assoc, ← mul_pow]
      norm_num
    rw [split, Nat.pow_eq]
    push_cast
    field_simp

theorem displayed_roundsTo {x : Binary64} (finite : x.isFinite = true) (places : Option ℤ) :
    RoundsTo x places (x.displayed places) := by
  cases places with
  | none => exact .exact
  | some n =>
    rw [displayed]
    split
    next integral =>
      obtain ⟨whole, same⟩ := (isInteger_iff finite).mp integral
      exact .whole same
    next fraction =>
      have broken (whole : ℤ) : x.toRat ≠ whole := fun same =>
        fraction ((isInteger_iff finite).mpr ⟨whole, same⟩)
      obtain ⟨count, multiple, nearest⟩ :=
        roundToPlaces_nearest finite (by simpa using fraction) n.toNat
      rcases Nat.le_total n.toNat gridPlaces with shallow | deep
      · rw [Nat.min_eq_left shallow, ← lastPlace_eq] at multiple nearest
        exact .rounded broken multiple nearest
      · -- The number itself is a multiple of the last place of the grid, and so of every place behind.
        rw [Nat.min_eq_right deep] at multiple nearest
        obtain ⟨coarse, same⟩ := x.exists_multiple (Nat.le_refl gridPlaces)
        obtain ⟨fine, same'⟩ := x.exists_multiple deep
        rw [← lastPlace_eq] at same'
        have unit : (0 : ℚ) < 1 / 10 ^ gridPlaces := one_div_pos.mpr (pow_pos (by norm_num) gridPlaces)
        rw [multiple.unique unit (.of_eq unit same), ← same, same'] at nearest
        exact .rounded broken (.of_eq (lastPlace_pos n) same') nearest

namespace RoundsTo

variable {x r : Binary64} {places : Option ℤ}

theorem isFinite (rounds : RoundsTo x places r) (finite : x.isFinite = true) : r.isFinite = true := by
  cases rounds with
  | exact | whole => exact finite
  | rounded _ _ nearest => exact nearest.finite

theorem unique (rounds : RoundsTo x places r) {r' : Binary64} (rounds' : RoundsTo x places r') :
    r.place = r'.place := by
  cases rounds with
  | exact =>
    cases rounds'
    rfl
  | whole integral =>
    cases rounds' with
    | whole => rfl
    | rounded fraction => exact absurd integral (fraction _)
  | @rounded n _ _ fraction multiple nearest =>
    cases rounds' with
    | whole integral => exact absurd integral (fraction _)
    | rounded _ multiple' nearest' =>
      rw [multiple.unique (lastPlace_pos n) multiple'] at nearest
      exact nearest.unique nearest'

/-- What a number is rounded to is rounded to itself. -/
theorem again (rounds : RoundsTo x places r) (finite : x.isFinite = true) : RoundsTo r places r := by
  cases rounds with
  | exact => exact .exact
  | whole integral => exact .whole integral
  | rounded _ multiple nearest =>
    by_cases integral : ∃ n : ℤ, r.toRat = n
    · obtain ⟨n, same⟩ := integral
      exact .whole same
    · -- The number is a double, too, so the multiple has none that is nearer to it than the nearest one.
      have closer := nearest.near x finite
      rw [abs_sub_comm, abs_sub_comm _ x.toRat] at closer
      exact .rounded (not_exists.mp integral) (multiple.of_nearer closer) nearest

end RoundsTo

/-! ### The text of what is displayed -/

section

variable {x y : Binary64} (left : x.isFinite = true) (right : y.isFinite = true)
include left right

theorem sameValue_of_place (same : x.place = y.place) : x.sameValue y = true := by
  cases x with
  | nan | infinite => cases left
  | finite s m =>
  cases y with
  | nan | infinite => cases right
  | finite t n =>
  cases s <;> cases t <;> simp [place, signed, sameValue] at same ⊢ <;> omega

theorem sameValue_iff : x.sameValue y = true ↔ x.toRat = y.toRat := by
  constructor
  · intro same
    cases x with
    | nan | infinite => cases left
    | finite s m =>
    cases y with
    | nan | infinite => cases right
    | finite t n =>
    simp only [sameValue, Bool.and_eq_true, Bool.or_eq_true, beq_iff_eq] at same
    obtain ⟨rfl, rfl | rfl⟩ := same
    · rfl
    · simp [toRat]
  · exact fun same => sameValue_of_place left right (place_eq_of_toRat_eq left right same)

end

/-- Numbers of the same value are shown alike. -/
theorem shown_of_sameValue {x y : Binary64} (same : x.sameValue y = true) : x.shown = y.shown := by
  have zero {z : Binary64} (none : z.isZero = true) : z.shown = "0" := by
    cases z with
    | nan | infinite => cases none
    | finite negative rank inRange =>
      obtain rfl : rank = 0 := by simpa [isZero] using none
      have whole : wholePart 0 = 0 := by simp [wholePart, units, binade_eq]
      have integral : (finite negative 0 inRange).isInteger = true := isInteger_of_isZero none
      have below : 0 < integerBound := by decide
      simp only [shown, integral, whole, below, decide_true, Bool.and_self, if_true]
      cases negative <;> rfl
  rcases eq_or_isZero_of_sameValue same with rfl | ⟨none, none'⟩
  · rfl
  · rw [zero none, zero none']

/-- The magnitude of a whole number is its whole part. -/
theorem abs_toRat_of_isInteger {negative : Bool} {rank : Nat} {inRange : rank < rankCount}
    (integral : (finite negative rank inRange).isInteger = true) :
    |(finite negative rank inRange).toRat| = wholePart rank := by
  have whole : units rank % unitsPerOne = 0 := by simpa [isInteger] using integral
  have parts : (wholePart rank * unitsPerOne : ℚ) = units rank := by
    exact_mod_cast Nat.div_mul_cancel (Nat.dvd_of_mod_eq_zero whole)
  rw [abs_toRat, magnitude, ← parts, mul_div_cancel_right₀ _ grid_pos.ne']

/-- The shortest digits of a number stand with a point or an exponent. -/
theorem not_isIntegerNumeral_text {x : Binary64} (finite : x.isFinite = true) : ¬ IsIntegerNumeral x.text := by
  rintro ⟨negative, digits, same, -, all⟩
  cases x with
  | nan | infinite => cases finite
  | finite sign rank inRange =>
    obtain ⟨numeral, spelled, broken, -⟩ := finite_spelled inRange
    obtain ⟨c, member, mark⟩ := spelled.exists_mark broken
    rw [text, String.toList_ofList, toChars] at same
    have found : c ∈ minusSign negative ++ digits := same ▸ List.mem_append_right _ member
    have plain : c = '-' ∨ c.isDigit = true := by
      rcases List.mem_append.mp found with front | behind
      · cases negative
        · cases front
        · exact .inl (List.mem_singleton.mp front)
      · exact .inr (all c behind)
    rcases mark with rfl | rfl <;> revert plain <;> decide

/-- Whole numbers below the bound are shown as plain integers, and no others are. -/
theorem isIntegerNumeral_shown {x : Binary64} (finite : x.isFinite = true) :
    IsIntegerNumeral x.shown ↔ (∃ n : ℤ, x.toRat = n) ∧ |x.toRat| < 10 ^ 16 := by
  rw [← isInteger_iff finite]
  have plain := not_isIntegerNumeral_text finite
  cases x with
  | nan | infinite => cases finite
  | finite negative rank inRange =>
    have bound : (integerBound : ℚ) = 10 ^ 16 := by norm_num [integerBound]
    rw [← bound, shown]
    split
    next small =>
      obtain ⟨integral, below⟩ := Bool.and_eq_true_iff.mp small
      rw [abs_toRat_of_isInteger integral, Nat.cast_lt]
      exact ⟨fun _ => ⟨integral, of_decide_eq_true below⟩, fun _ => isIntegerNumeral_toString _⟩
    next large =>
      refine ⟨fun found => absurd found plain, ?_⟩
      rintro ⟨integral, below⟩
      refine absurd ?_ large
      rw [abs_toRat_of_isInteger integral, Nat.cast_lt] at below
      exact Bool.and_eq_true_iff.mpr ⟨integral, decide_eq_true below⟩

/-- A finite number is displayed as what it is rounded to: the text reads back as that, except for the sign of a
zero, it is marked if the value is another one, it is a plain integer exactly for the whole ones below the
bound, and it does not change when it is rounded again. -/
theorem display_settled {x : Binary64} (finite : x.isFinite = true) (places : Option ℤ) :
    (∃ r, RoundsTo x places r) ∧ ∀ r, RoundsTo x places r →
      (∃ y, read? (x.display places).text.toList = some y ∧ y.sameValue r = true) ∧
      ((x.display places).rounded = true ↔ r.toRat ≠ x.toRat) ∧
      (IsIntegerNumeral (x.display places).text ↔ (∃ n : ℤ, r.toRat = n) ∧ |r.toRat| < 10 ^ 16) ∧
      r.display places = ⟨(x.display places).text, false⟩ := by
  have found := displayed_roundsTo finite places
  refine ⟨⟨_, found⟩, fun r rounds => ?_⟩
  have range := found.isFinite finite
  have range' := rounds.isFinite finite
  -- Zeros apart, nothing but the displayed number is what the number is rounded to.
  have same := sameValue_of_place range range' (found.unique rounds)
  have value := (sameValue_iff range range').mp same
  have text : (x.display places).text = r.shown := shown_of_sameValue same
  refine ⟨?_, ?_, ?_, ?_⟩
  · rw [text]
    exact read?_shown range'
  · rw [← value, Ne, ← sameValue_iff range finite]
    simp [display, finite]
  · rw [text]
    exact isIntegerNumeral_shown range'
  · have kept := displayed_roundsTo range' places
    have same' := sameValue_of_place (kept.isFinite range') range' (kept.unique (rounds.again finite))
    rw [text, display]
    simp [same', shown_of_sameValue same']

/-- Two and a half is displayed as the even one of its neighbours, and that one as itself. -/
theorem display_half :
    let x := Decimal.toBinary64 false ⟨25, -1⟩
    x.isFinite = true ∧ x.display (some 0) = ⟨"2", true⟩ ∧
      ∃ r, RoundsTo x (some 0) r ∧ r.toRat ≠ x.toRat ∧ r.display (some 0) = ⟨"2", false⟩ := by
  intro x
  have finite : x.isFinite = true := by decide +kernel
  have half : x.display (some 0) = ⟨"2", true⟩ := by decide +kernel
  obtain ⟨⟨r, rounds⟩, settled⟩ := display_settled finite (some 0)
  obtain ⟨-, marked, -, again⟩ := settled r rounds
  rw [half] at marked again
  exact ⟨finite, half, r, rounds, marked.mp rfl, again⟩

end Binary64

end Reckoner
