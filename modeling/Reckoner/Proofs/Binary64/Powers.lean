import Mathlib.Algebra.Ring.Int.Parity
import Reckoner.Binary64.Power
import Reckoner.Proofs.Binary64.Exact

/-!
# Powers

A power of a zero or an infinity is a zero or an infinity, depending on the sign of the exponent, and an infinite
exponent drives the powers of a base to zero or to infinity, depending on which side of one the base is. Apart
from that, a power of finite numbers has the magnitude of the power of the base's magnitude. It is negative for a
negative base with an odd exponent, zeros and infinities included.

* `isOddInteger_iff`, the exponents which keep the sign of the base are the odd integers.
* `isPower_iff`, the power is what the rules for powers say.
-/

namespace Reckoner

namespace Binary64

/-! ### Exponents and their signs -/

/-- The value is an odd integer. -/
def IsOdd (x : Binary64) : Prop := x.isFinite = true ∧ ∃ n : ℤ, Odd n ∧ x.toRat = n

def IsBelowZero (x : Binary64) : Prop := x.isNegative = true ∧ x.isZero = false

def IsAboveZero (x : Binary64) : Prop := x ≠ nan ∧ x.isNegative = false ∧ x.isZero = false

theorem IsBelowZero.ne_nan {x : Binary64} (below : x.IsBelowZero) : x ≠ nan := by
  rintro rfl
  cases below.1

theorem isOddInteger_iff {x : Binary64} : x.isOddInteger = true ↔ x.IsOdd := by
  cases x with
  | nan | infinite => exact iff_of_false Bool.false_ne_true (fun odd => Bool.false_ne_true odd.1)
  | finite negative rank inRange =>
    have scaled (n : ℤ) : (finite negative rank inRange).toRat = n ↔
        signed negative (units rank) = n * unitsPerOne := by
      rw [toRat_finite, div_eq_iff grid_pos.ne']
      exact_mod_cast Iff.rfl
    simp only [isOddInteger, Bool.and_eq_true, beq_iff_eq, IsOdd, isFinite, true_and, scaled]
    -- The sign makes no difference to what is odd.
    constructor
    · rintro ⟨whole, odd⟩
      refine ⟨signed negative (units rank / unitsPerOne), ?_, ?_⟩
      · rwa [← Int.natAbs_odd, natAbs_signed, Nat.odd_iff]
      · have exact_units := Nat.div_mul_cancel (Nat.dvd_of_mod_eq_zero whole)
        rw [← signed_mul, exact_units]
    · rintro ⟨n, odd, same⟩
      have size : units rank = n.natAbs * unitsPerOne := by
        rw [← natAbs_signed negative (units rank), same, Int.natAbs_mul, Int.natAbs_natCast]
      rw [size, Nat.mul_mod_left, Nat.mul_div_cancel _ unitsPerOne_pos]
      exact ⟨rfl, Nat.odd_iff.mp (Int.natAbs_odd.mpr odd)⟩

theorem units_one : units rankOfOne = unitsPerOne := by decide +kernel

theorem magnitude_one : magnitude rankOfOne = 1 := by rw [magnitude, units_one, div_self grid_pos.ne']

/-- The sign that a power has, if it is a number. -/
def PowerSign (a b : Binary64) (negative : Bool) : Prop := negative = true ↔ a.isNegative = true ∧ b.IsOdd

theorem powerSign_iff {a b : Binary64} {negative : Bool} :
    PowerSign a b negative ↔ negative = (a.isNegative && b.isOddInteger) := by
  rw [PowerSign, ← isOddInteger_iff, ← Bool.and_eq_true]
  exact Bool.eq_iff_iff.symm

/-- Powers of this size go up as the exponent goes to its infinity. -/
def Grows (size : ℚ) (down : Bool) : Prop := if down then size < 1 else 1 < size

instance (size : ℚ) (down : Bool) : Decidable (Grows size down) :=
  inferInstanceAs (Decidable (if down then size < 1 else 1 < size))

theorem Grows.ne_one {size : ℚ} {down : Bool} (grows : Grows size down) : size ≠ 1 := by
  rintro rfl
  cases down <;> exact lt_irrefl _ grows

theorem Grows.not_down {size : ℚ} {down : Bool} (grows : Grows size !down) : ¬ Grows size down := by
  intro other
  cases down <;> exact lt_asymm grows other

/-! ### The rules -/

/-- The rules for powers. The power of finite numbers is left to the machine, for the magnitude of the base. -/
inductive IsPower : Binary64 → Binary64 → Binary64 → Prop
  -- These two hold even of not-a-number.
  | exponentZero (a : Binary64) {b : Binary64} (exponent : b.isZero = true) : IsPower a b one
  | baseOne (b : Binary64) : IsPower one b one
  | nanBase {b : Binary64} (exponent : b.isZero = false) : IsPower nan b nan
  | nanExponent {a : Binary64} (base : a ≠ one) : IsPower a nan nan
  -- Zeros and infinities keep their sign under odd exponents.
  | zeroDown {a b : Binary64} {negative : Bool} (base : a.isZero = true) (exponent : b.IsBelowZero)
    (sign : PowerSign a b negative) : IsPower a b (infinite negative)
  | zeroUp {a b : Binary64} {negative : Bool} (base : a.isZero = true) (exponent : b.IsAboveZero)
    (sign : PowerSign a b negative) : IsPower a b (zero negative)
  | infiniteDown {s : Bool} {b : Binary64} {negative : Bool} (exponent : b.IsBelowZero)
    (sign : PowerSign (infinite s) b negative) : IsPower (infinite s) b (zero negative)
  | infiniteUp {s : Bool} {b : Binary64} {negative : Bool} (exponent : b.IsAboveZero)
    (sign : PowerSign (infinite s) b negative) : IsPower (infinite s) b (infinite negative)
  -- An infinite exponent is neither odd nor a fraction, so the sign of the base does not matter.
  | constant {a : Binary64} (down : Bool) (base : a.isFinite = true) (size : |a.toRat| = 1) :
    IsPower a (infinite down) one
  | growing {a : Binary64} {down : Bool} (base : a.isFinite = true) (size : Grows |a.toRat| down) :
    IsPower a (infinite down) (infinite false)
  | shrinking {a : Binary64} {down : Bool} (base : a.isFinite = true) (size : Grows |a.toRat| !down) :
    IsPower a (infinite down) (zero false)
  | notReal {a b : Binary64} (base : a.isFinite = true) (negative : a.IsBelowZero) (exponent : b.isFinite = true)
    (fraction : ∀ n : ℤ, b.toRat ≠ n) : IsPower a b nan
  | finite {a b : Binary64} {negative : Bool} (base : a.isFinite = true) (nonzero : a.isZero = false)
    (different : a ≠ one) (exponent : b.isFinite = true) (nonzero' : b.isZero = false)
    (real : a.IsBelowZero → ∃ n : ℤ, b.toRat = n) (sign : PowerSign a b negative) :
    IsPower a b (withSign negative (machinePower a.abs b))

section

variable {a b p : Binary64} {s negative : Bool} {m : Nat} {inRange : m < rankCount}

/-! ### Magnitudes of powers -/

theorem powerMagnitude_zero (base : a.isZero = true) (number : b ≠ nan) :
    powerMagnitude a.abs b = if b.isNegative then infinite false else zero false := by
  cases a with
  | nan | infinite => cases base
  | finite s m =>
    obtain rfl := isZero_finite.mp base
    cases b with
    | nan => exact absurd rfl number
    | infinite t => cases t <;> rfl
    | finite t n => cases t <;> rfl

theorem powerMagnitude_infinite (number : b ≠ nan) :
    powerMagnitude (infinite s) b = if b.isNegative then zero false else infinite false := by
  cases b with
  | nan => exact absurd rfl number
  | infinite t => cases t <;> rfl
  | finite t n => cases t <;> rfl

/-- An infinite exponent compares the base with one. -/
theorem powerMagnitude_of_infinite (down : Bool) :
    powerMagnitude (finite s m inRange) (infinite down) =
      if magnitude m = 1 then one
      else if Grows (magnitude m) down then infinite false else zero false := by
  have same : m = rankOfOne ↔ magnitude m = 1 := by
    rw [← magnitude_one, magnitude_strictMono.injective.eq_iff]
  have above : rankOfOne < m ↔ 1 < magnitude m := by rw [← magnitude_one, magnitude_strictMono.lt_iff_lt]
  have below : m < rankOfOne ↔ magnitude m < 1 := by rw [← magnitude_one, magnitude_strictMono.lt_iff_lt]
  rw [powerMagnitude]
  by_cases one_base : m = rankOfOne
  · rw [if_pos one_base, if_pos (same.mp one_base)]
  · have other : ¬ rankOfOne < m ↔ m < rankOfOne := by omega
    rw [if_neg one_base, if_neg (mt same.mpr one_base)]
    cases down <;> simp [Grows, ← above, ← below, ← other]

/-! ### Signs of powers -/

theorem pow_of_isZero (exponent : b.isZero = true) : pow a b = one := by simp [pow, exponent]

theorem one_pow (b : Binary64) : pow one b = one := by simp [pow]

/-- Unless it has no real value, the power is the signed power of the magnitude. -/
theorem pow_eq_magnitude (exponent : b.isZero = false) (base : a ≠ one)
    (real : a.isFinite = true → b.isFinite = true → a.IsBelowZero → b.isInteger = true) :
    pow a b = withSign (a.isNegative && b.isOddInteger) (powerMagnitude a.abs b) := by
  have general : ¬ (b.isZero || decide (a = one)) = true := by simp [exponent, base]
  unfold pow
  rw [if_neg general]
  cases a with
  | nan => rfl
  | infinite s => cases b <;> rfl
  | finite s m inRange =>
    cases b with
    | nan => cases s <;> rfl
    | infinite t => cases s <;> rfl
    | finite t n inRange' =>
      -- Only a negative number asks for a whole exponent.
      cases s with
      | false => rfl
      | true =>
        by_cases none : m = 0
        · simp [none, isNegative]
        · have whole := real rfl rfl ⟨rfl, by simpa [isZero] using none⟩
          simp [whole, isNegative]

theorem pow_of_unbounded (exponent : b.isZero = false) (base : a ≠ one)
    (unbounded : (a.isFinite && b.isFinite) = false) :
    pow a b = withSign (a.isNegative && b.isOddInteger) (powerMagnitude a.abs b) :=
  pow_eq_magnitude exponent base fun left right => by simp [left, right] at unbounded

/-- A negative number has no power with a fractional exponent. -/
theorem pow_eq_nan (base : a.isFinite = true) (below : a.IsBelowZero) (exponent : b.isFinite = true)
    (fraction : b.isInteger = false) : pow a b = nan := by
  have nonzero : b.isZero = false := Bool.eq_false_iff.mpr fun none =>
    Bool.false_ne_true (fraction.symm.trans (isInteger_of_isZero none))
  have different : a ≠ one := by
    rintro rfl
    cases below.1
  have general : ¬ (b.isZero || decide (a = one)) = true := by simp [nonzero, different]
  unfold pow
  rw [if_neg general]
  cases a with
  | nan | infinite => cases base
  | finite s m inRange =>
    cases b with
    | nan | infinite => cases exponent
    | finite t n inRange' =>
      obtain rfl : s = true := below.1
      have some_rank : m ≠ 0 := by simpa [isZero] using below.2
      simp [some_rank, fraction]

/-! ### The power keeps the rules -/

theorem isInteger_eq_false_iff (exponent : b.isFinite = true) : b.isInteger = false ↔ ∀ n : ℤ, b.toRat ≠ n := by
  rw [← Bool.not_eq_true, isInteger_iff exponent, not_exists]

theorem ne_one_of_isFinite (unbounded : a.isFinite = false) : a ≠ one := by
  rintro rfl
  cases unbounded

theorem pow_zero_base (base : a.isZero = true) (exponent : b.isZero = false) (number : b ≠ nan)
    (sign : PowerSign a b negative) :
    pow a b = if b.isNegative then infinite negative else zero negative := by
  have different : a ≠ one := by
    rintro rfl
    cases base
  have real : a.isFinite = true → b.isFinite = true → a.IsBelowZero → b.isInteger = true := fun _ _ below =>
    absurd (base.symm.trans below.2) Bool.noConfusion
  rw [pow_eq_magnitude exponent different real, ← powerSign_iff.mp sign, powerMagnitude_zero base number]
  cases b.isNegative <;> rfl

theorem pow_infinite_base (exponent : b.isZero = false) (number : b ≠ nan)
    (sign : PowerSign (infinite s) b negative) :
    pow (infinite s) b = if b.isNegative then zero negative else infinite negative := by
  rw [pow_of_unbounded exponent (ne_one_of_isFinite rfl) rfl, ← powerSign_iff.mp sign, abs,
    powerMagnitude_infinite number]
  cases b.isNegative <;> rfl

theorem pow_infinite_exponent (base : a.isFinite = true) (down : Bool) :
    pow a (infinite down) =
      if |a.toRat| = 1 then one
      else if Grows |a.toRat| down then infinite false else zero false := by
  by_cases same : a = one
  · have size : |a.toRat| = 1 := by
      rw [same]
      exact (abs_toRat _ _).trans magnitude_one
    rw [if_pos size, same, one_pow]
  · rw [pow_of_unbounded rfl same (Bool.and_false _)]
    cases a with
    | nan | infinite => cases base
    | finite s m inRange =>
      have even : (infinite down).isOddInteger = false := rfl
      rw [abs_toRat, abs, powerMagnitude_of_infinite, even, Bool.and_false]
      -- No power with an infinite exponent is negative.
      split_ifs <;> rfl

theorem IsPower.eq_pow (power : IsPower a b p) : p = pow a b := by
  cases power with
  | exponentZero a exponent => exact (pow_of_isZero exponent).symm
  | baseOne b => exact (one_pow b).symm
  | nanBase exponent =>
    rw [pow_of_unbounded exponent (ne_one_of_isFinite rfl) rfl]
    rfl
  | nanExponent base =>
    rw [pow_of_unbounded rfl base (Bool.and_false _)]
    cases a <;> rfl
  | zeroDown base exponent sign => rw [pow_zero_base base exponent.2 exponent.ne_nan sign, if_pos exponent.1]
  | zeroUp base exponent sign =>
    obtain ⟨number, positive, nonzero⟩ := exponent
    rw [pow_zero_base base nonzero number sign, positive, if_neg Bool.false_ne_true]
  | infiniteDown exponent sign =>
    rw [pow_infinite_base exponent.2 exponent.ne_nan sign, if_pos exponent.1]
  | infiniteUp exponent sign =>
    obtain ⟨number, positive, nonzero⟩ := exponent
    rw [pow_infinite_base nonzero number sign, positive, if_neg Bool.false_ne_true]
  | constant down base size => rw [pow_infinite_exponent base, if_pos size]
  | growing base size => rw [pow_infinite_exponent base, if_neg size.ne_one, if_pos size]
  | shrinking base size => rw [pow_infinite_exponent base, if_neg size.ne_one, if_neg size.not_down]
  | notReal base below exponent fraction =>
    exact (pow_eq_nan base below exponent ((isInteger_eq_false_iff exponent).mpr fraction)).symm
  | finite base nonzero different exponent nonzero' real sign =>
    rw [pow_eq_magnitude nonzero' different fun _ _ below => (isInteger_iff exponent).mpr (real below),
      ← powerSign_iff.mp sign]
    cases a with
    | nan | infinite => cases base
    | finite s m =>
    cases b with
    | nan | infinite => cases exponent
    | finite t n =>
      have rank : m ≠ 0 := mt isZero_finite.mpr (Bool.eq_false_iff.mp nonzero)
      rw [abs, powerMagnitude, if_neg rank]

/-- There is a rule for every base and every exponent. -/
theorem exists_isPower (a b : Binary64) : ∃ p, IsPower a b p := by
  by_cases trivial : b.isZero = true
  · exact ⟨one, .exponentZero a trivial⟩
  by_cases unit : a = one
  · exact ⟨one, unit ▸ .baseOne b⟩
  by_cases number : b = nan
  · exact ⟨nan, number ▸ .nanExponent unit⟩
  rw [Bool.not_eq_true] at trivial
  have sign : PowerSign a b (a.isNegative && b.isOddInteger) := powerSign_iff.mpr rfl
  have side : b.IsBelowZero ∨ b.IsAboveZero := by
    cases negative : b.isNegative with
    | true => exact .inl ⟨negative, trivial⟩
    | false => exact .inr ⟨number, negative, trivial⟩
  cases a with
  | nan => exact ⟨nan, .nanBase trivial⟩
  | infinite s =>
    rcases side with down | up
    · exact ⟨_, .infiniteDown down sign⟩
    · exact ⟨_, .infiniteUp up sign⟩
  | finite s m inRange =>
    by_cases nothing : (finite s m inRange).isZero = true
    · rcases side with down | up
      · exact ⟨_, .zeroDown nothing down sign⟩
      · exact ⟨_, .zeroUp nothing up sign⟩
    rw [Bool.not_eq_true] at nothing
    cases b with
    | nan => exact absurd rfl number
    | infinite down =>
      -- It depends on the side of one where the base is.
      rcases lt_trichotomy |(finite s m inRange).toRat| 1 with small | one_size | large
      · cases down
        · exact ⟨_, .shrinking rfl small⟩
        · exact ⟨_, .growing rfl small⟩
      · exact ⟨_, .constant down rfl one_size⟩
      · cases down
        · exact ⟨_, .growing rfl large⟩
        · exact ⟨_, .shrinking rfl large⟩
    | finite t n inRange' =>
      by_cases real : (finite s m inRange).IsBelowZero → ∃ k : ℤ, (finite t n inRange').toRat = k
      · exact ⟨_, .finite rfl nothing unit rfl trivial real sign⟩
      · rw [Classical.not_imp, not_exists] at real
        exact ⟨nan, .notReal rfl real.1 rfl real.2⟩

/-- The power is what the rules say, and nothing else is. -/
theorem isPower_iff (a b p : Binary64) : IsPower a b p ↔ p = pow a b := by
  refine ⟨IsPower.eq_pow, ?_⟩
  rintro rfl
  obtain ⟨p, power⟩ := exists_isPower a b
  rwa [← power.eq_pow]

theorem withSign_eq_infinite {sign : Bool} (infinity : withSign sign a = infinite negative) : negative = sign := by
  cases a <;> cases infinity
  rfl

/-- All infinite powers have the sign of powers, those without a real limit included. -/
theorem PowerSign.of_infinite (infinity : pow a b = infinite negative) : PowerSign a b negative := by
  have power := (isPower_iff a b _).mpr rfl
  generalize pow a b = p at infinity power
  cases power with
  | exponentZero | baseOne | constant => cases infinity
  | nanBase | nanExponent | notReal => cases infinity
  | zeroUp | infiniteDown | shrinking => cases infinity
  | zeroDown base exponent sign | infiniteUp exponent sign =>
    cases infinity
    exact sign
  | growing =>
    -- An infinite exponent is not odd.
    cases infinity
    exact iff_of_false Bool.false_ne_true fun odd => Bool.false_ne_true odd.2.1
  | finite base nonzero different exponent nonzero' real sign =>
    rwa [withSign_eq_infinite infinity]

end

end Binary64

end Reckoner
