import Mathlib.Algebra.Order.Field.Basic
import Reckoner.Proofs.Binary64.Grid
import Reckoner.Proofs.Decimal.Digits

/-!
# Doubles as exact numbers

A finite double is a ratio, and the finite doubles are ordered like their places, counted from zero in both
directions. The nearest one to a ratio is the double to which the ratio is rounded; of two that are as near,
it is the one in an even place, and between two even places there is always another double.

* `IsNearestDouble.unique`, there is one nearest double, up to the sign of zero.
* `toBinary64_isNearestDouble`, decimals are rounded to it.
-/

namespace Reckoner

namespace Binary64

/-! ### Values and places -/

/-- The value of a finite magnitude. -/
def magnitude (rank : Nat) : ℚ := units rank / unitsPerOne

/-- The value of a finite number. -/
def toRat : Binary64 → ℚ
  | finite negative rank _ => if negative then -magnitude rank else magnitude rank
  | _ => 0

/-- The place of a finite number among all finite ones, counted from zero. -/
def place : Binary64 → ℤ
  | finite negative rank _ => signed negative rank
  | _ => 0

@[simp] theorem cast_signed_false (n : Nat) : (signed false n : ℚ) = n := Int.cast_natCast n

@[simp] theorem cast_signed_true (n : Nat) : (signed true n : ℚ) = -n := by simp [signed]

theorem grid_pos : (0 : ℚ) < unitsPerOne := Nat.cast_pos.mpr unitsPerOne_pos

@[simp] theorem magnitude_zero : magnitude 0 = 0 := by
  have none : units 0 = 0 := by simp [units, binade_eq]
  rw [magnitude, none, Nat.cast_zero, zero_div]

theorem magnitude_strictMono : StrictMono magnitude := fun _ _ below =>
  div_lt_div_of_pos_right (Nat.cast_lt.mpr (units_strictMono below)) grid_pos

theorem magnitude_nonneg (rank : Nat) : 0 ≤ magnitude rank :=
  magnitude_zero ▸ magnitude_strictMono.monotone (Nat.zero_le rank)

theorem magnitude_pos {rank : Nat} (positive : 0 < rank) : 0 < magnitude rank :=
  magnitude_zero ▸ magnitude_strictMono positive

theorem abs_toRat (negative : Bool) {rank : Nat} (inRange : rank < rankCount) :
    |(finite negative rank inRange).toRat| = magnitude rank := by
  cases negative <;> simp [toRat, abs_of_nonneg (magnitude_nonneg rank)]

theorem toRat_finite (negative : Bool) {rank : Nat} (inRange : rank < rankCount) :
    (finite negative rank inRange).toRat = signed negative (units rank) / unitsPerOne := by
  cases negative with
  | false =>
    rw [cast_signed_false]
    rfl
  | true =>
    rw [cast_signed_true, neg_div]
    rfl

theorem isZero_finite {negative : Bool} {rank : Nat} {inRange : rank < rankCount} :
    (finite negative rank inRange).isZero = true ↔ rank = 0 := by simp [isZero]

theorem isInteger_of_isZero {x : Binary64} (zero : x.isZero = true) : x.isInteger = true := by
  cases x with
  | nan | infinite => cases zero
  | finite negative rank inRange => simp [isInteger, isZero_finite.mp zero, units, binade_eq]

/-- Only a whole number of grid units that is a multiple of one stands for an integer. -/
theorem isInteger_iff {x : Binary64} (finite : x.isFinite = true) :
    x.isInteger = true ↔ ∃ n : ℤ, x.toRat = n := by
  cases x with
  | nan | infinite => cases finite
  | finite negative rank inRange =>
    have divides : (unitsPerOne : ℤ) ∣ signed negative (units rank) ↔ units rank % unitsPerOne = 0 := by
      rw [← Int.dvd_natAbs, natAbs_signed, Int.natCast_dvd_natCast, Nat.dvd_iff_mod_eq_zero]
    simp only [isInteger, beq_iff_eq, ← divides, toRat_finite, div_eq_iff grid_pos.ne', dvd_iff_exists_eq_mul_left]
    exact_mod_cast Iff.rfl

@[simp] theorem toRat_neg (x : Binary64) : (-x).toRat = -x.toRat := by
  cases x with
  | nan | infinite => exact neg_zero.symm
  | finite negative rank inRange =>
    change (finite (!negative) rank inRange).toRat = _
    cases negative <;> simp [toRat]

@[simp] theorem place_neg (x : Binary64) : (-x).place = -x.place := by
  cases x with
  | nan | infinite => rfl
  | finite negative rank inRange =>
    change (finite (!negative) rank inRange).place = _
    cases negative <;> simp [place, signed]

@[simp] theorem isFinite_neg (x : Binary64) : (-x).isFinite = x.isFinite := by
  cases x <;> rfl

theorem exists_magnitude {x : Binary64} (finite : x.isFinite = true) :
    ∃ rank, x.toRat = magnitude rank ∨ x.toRat = -magnitude rank := by
  cases x with
  | nan | infinite => cases finite
  | finite negative rank =>
    cases negative
    · exact ⟨rank, .inl rfl⟩
    · exact ⟨rank, .inr rfl⟩

section

variable {x y : Binary64} (left : x.isFinite = true) (right : y.isFinite = true)
include left right

theorem toRat_lt_of_place_lt (before : x.place < y.place) : x.toRat < y.toRat := by
  cases x with
  | nan | infinite => cases left
  | finite s m =>
  cases y with
  | nan | infinite => cases right
  | finite t n =>
  have nonneg := magnitude_nonneg m
  have nonneg' := magnitude_nonneg n
  -- Of two numbers with different signs, one at least is not zero.
  cases s <;> cases t <;> simp only [place, signed, toRat, if_true, if_false, Bool.false_eq_true] at before ⊢
  · exact magnitude_strictMono (by omega)
  · omega
  · by_cases nothing : m = 0
    · have positive : 0 < magnitude n := magnitude_pos (by omega)
      linarith
    · have positive := magnitude_pos (Nat.pos_of_ne_zero nothing)
      linarith
  · exact neg_lt_neg (magnitude_strictMono (by omega))

theorem place_eq_of_toRat_eq (same : x.toRat = y.toRat) : x.place = y.place := by
  rcases lt_trichotomy x.place y.place with before | equal | after
  · exact absurd same (toRat_lt_of_place_lt left right before).ne
  · exact equal
  · exact absurd same (toRat_lt_of_place_lt right left after).ne'

end

/-- Between two finite numbers every place is taken. -/
theorem exists_place {x y : Binary64} (left : x.isFinite = true) (right : y.isFinite = true) {between : ℤ}
    (after : x.place < between) (before : between < y.place) :
    ∃ z : Binary64, z.isFinite = true ∧ z.place = between := by
  cases x with
  | nan | infinite => cases left
  | finite s m inRange =>
  cases y with
  | nan | infinite => cases right
  | finite t n inRange' =>
  have inside : between.natAbs < rankCount := by
    cases s <;> cases t <;> simp only [place, signed, if_true, if_false, Bool.false_eq_true] at after before <;>
      omega
  exact ⟨.finite (between < 0) between.natAbs inside, rfl, signed_natAbs between⟩

/-! ### The nearest double -/

/-- The number is the nearest finite one to the value, in an even place if another one is as near. -/
structure IsNearestDouble (value : ℚ) (x : Binary64) : Prop where
  finite : x.isFinite = true
  near (y : Binary64) : y.isFinite = true → |value - x.toRat| ≤ |value - y.toRat|
  even (y : Binary64) : y.isFinite = true → y.toRat ≠ x.toRat → |value - y.toRat| = |value - x.toRat| →
    Even x.place

namespace IsNearestDouble

variable {value : ℚ} {x : Binary64}

/-- Two nearest doubles in different places would both be in even places, with a nearer one between them. -/
private theorem not_before (nearest : IsNearestDouble value x) {y : Binary64}
    (nearest' : IsNearestDouble value y) : ¬ x.place < y.place := by
  intro before
  have apart := toRat_lt_of_place_lt nearest.finite nearest'.finite before
  have tie : |value - x.toRat| = |value - y.toRat| :=
    le_antisymm (nearest.near y nearest'.finite) (nearest'.near x nearest.finite)
  obtain ⟨half, even⟩ := nearest.even y nearest'.finite apart.ne' tie.symm
  obtain ⟨half', even'⟩ := nearest'.even x nearest.finite apart.ne tie
  obtain ⟨z, finite, next⟩ := exists_place nearest.finite nearest'.finite (lt_add_one x.place) (by omega)
  have after := toRat_lt_of_place_lt nearest.finite finite (by omega)
  have before' := toRat_lt_of_place_lt finite nearest'.finite (by omega)
  have closer : |value - z.toRat| < |value - x.toRat| := by
    have above := le_abs_self (value - x.toRat)
    have below := neg_abs_le (value - y.toRat)
    rw [← tie] at below
    exact abs_lt.mpr ⟨by linarith, by linarith⟩
  exact absurd (nearest.near z finite) (not_le.mpr closer)

theorem unique (nearest : IsNearestDouble value x) {y : Binary64} (nearest' : IsNearestDouble value y) :
    x.place = y.place :=
  le_antisymm (not_lt.mp (nearest'.not_before nearest)) (not_lt.mp (nearest.not_before nearest'))

theorem neg (nearest : IsNearestDouble value x) : IsNearestDouble (-value) (-x) := by
  have distance (y : Binary64) : |-value - y.toRat| = |value - (-y).toRat| := by
    rw [toRat_neg, ← abs_neg]
    ring_nf
  refine ⟨by simpa using nearest.finite, fun y finite => ?_, fun y finite different tie => ?_⟩
  · rw [distance, distance, neg_neg]
    exact nearest.near (-y) (by simpa using finite)
  · rw [distance, distance, neg_neg] at tie
    rw [place_neg]
    refine (nearest.even (-y) (by simpa using finite) (fun same => different ?_) tie).neg
    rw [toRat_neg, ← same, toRat_neg]
    exact (neg_involutive y.toRat).symm

end IsNearestDouble

/-- The nearest magnitude to a nonnegative value is the nearest double, as negative ones are further away. -/
theorem isNearestDouble_of_magnitudes {value : ℚ} (nonneg : 0 ≤ value) {rank : Nat} (inRange : rank < rankCount)
    (near : ∀ other, |value - magnitude rank| ≤ |value - magnitude other|)
    (even : ∀ other, |value - magnitude other| = |value - magnitude rank| → other ≠ rank → rank % 2 = 0) :
    IsNearestDouble value (.finite false rank inRange) := by
  have inward : |value - magnitude rank| ≤ value := by
    have zero := near 0
    rwa [magnitude_zero, sub_zero, abs_of_nonneg nonneg] at zero
  have outward (other : Nat) : |value - -magnitude other| = value + magnitude other := by
    rw [sub_neg_eq_add, abs_of_nonneg (add_nonneg nonneg (magnitude_nonneg other))]
  have even_rank (none : rank % 2 = 0) : Even (finite false rank inRange).place :=
    (Int.even_coe_nat rank).mpr (Nat.even_iff.mpr none)
  refine ⟨rfl, fun y finite => ?_, fun y finite different tie => ?_⟩ <;>
    obtain ⟨other, same | opposite⟩ := exists_magnitude finite
  · rw [same]
    exact near other
  · rw [opposite, outward]
    exact inward.trans (le_add_of_nonneg_right (magnitude_nonneg other))
  · rw [same] at different tie
    exact even_rank (even other tie fun equal => different (congrArg magnitude equal))
  · -- Only zero is no further away than its opposite.
    rw [opposite, outward] at tie
    have zero : magnitude other = 0 := by
      have below : value + magnitude other ≤ value := tie.trans_le inward
      exact le_antisymm (by linarith) (magnitude_nonneg other)
    rw [opposite, zero, neg_zero] at different
    rw [zero, add_zero] at tie
    have tie_zero : |value - magnitude 0| = |value - magnitude rank| := by
      rwa [magnitude_zero, sub_zero, abs_of_nonneg nonneg]
    refine even_rank (even 0 tie_zero fun equal => different ?_)
    exact magnitude_zero.symm.trans (congrArg magnitude equal)

/-- How far a ratio of grid units lies from a magnitude. -/
theorem abs_ratio_sub_magnitude (num : Nat) {den : Nat} (positive : 0 < den) (rank : Nat) :
    |(num : ℚ) / (den * unitsPerOne) - magnitude rank| =
      |(num : ℚ) - units rank * den| / (den * unitsPerOne) := by
  have pieces : (0 : ℚ) < den * unitsPerOne := mul_pos (Nat.cast_pos.mpr positive) grid_pos
  rw [magnitude, ← mul_div_mul_left (units rank : ℚ) _ (Nat.cast_pos.mpr positive).ne', ← sub_div, abs_div,
    abs_of_pos pieces, mul_comm (den : ℚ) (units rank)]

/-- A ratio of grid units is rounded to the nearest double. -/
theorem nearest_isNearestDouble (negative : Bool) (num : Nat) {den : Nat} (positive : 0 < den)
    (bounded : nearestRank num den < rankCount) :
    IsNearestDouble (signed negative num / (den * unitsPerOne)) (nearest negative num den) := by
  have nearest_positive : IsNearestDouble ((num : ℚ) / (den * unitsPerOne)) (nearest false num den) := by
    have pieces : (0 : ℚ) < den * unitsPerOne := mul_pos (Nat.cast_pos.mpr positive) grid_pos
    rw [nearest, ofRank, dif_pos bounded]
    refine isNearestDouble_of_magnitudes (div_nonneg (Nat.cast_nonneg num) pieces.le) bounded
      (fun rank => ?_) (fun rank tie different => ?_)
    · rw [abs_ratio_sub_magnitude num positive, abs_ratio_sub_magnitude num positive]
      exact div_le_div_of_nonneg_right (nearestRank_nearest num positive rank).1 pieces.le
    · rw [abs_ratio_sub_magnitude num positive, abs_ratio_sub_magnitude num positive,
        div_left_inj' pieces.ne'] at tie
      exact (nearestRank_nearest num positive rank).2 tie different
  -- What is negative is the opposite of what is positive.
  cases negative with
  | false =>
    rw [cast_signed_false]
    exact nearest_positive
  | true =>
    have opposite : nearest true num den = -nearest false num den := by
      simp only [nearest, ofRank, dif_pos bounded]
      rfl
    rw [opposite, cast_signed_true, neg_div]
    exact nearest_positive.neg

/-- A decimal in the range of the doubles is rounded to the nearest one. -/
theorem toBinary64_isNearestDouble {negative : Bool} {d : Decimal}
    (finite : (d.toBinary64 negative).isFinite = true) :
    IsNearestDouble (signed negative d.ratio.1 / d.ratio.2) (d.toBinary64 negative) := by
  rw [Decimal.toBinary64_eq] at finite ⊢
  have bounded : d.rank < rankCount := by
    by_contra outside
    rw [ofRank, dif_neg outside] at finite
    cases finite
  have positive : 0 < d.ratio.2 := Nat.pow_pos (by decide)
  have grid : (signed negative (d.ratio.1 * unitsPerOne) / (d.ratio.2 * unitsPerOne) : ℚ) =
      signed negative d.ratio.1 / d.ratio.2 := by
    rw [signed_mul, Int.cast_mul, Int.cast_natCast, mul_div_mul_right _ _ grid_pos.ne']
  rw [← grid]
  exact nearest_isNearestDouble negative _ positive bounded

end Binary64

end Reckoner
