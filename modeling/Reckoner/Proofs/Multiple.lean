import Mathlib.Algebra.Order.Field.Rat
import Mathlib.Algebra.Order.Ring.Abs
import Mathlib.Algebra.Ring.Parity
import Mathlib.Tactic.Linarith
import Mathlib.Tactic.Ring
import Reckoner.Binary64.Rounding

/-!
# The nearest multiple

Of the multiples of a step, the nearest one to a value is at most half a step away. Two are as near only if
the value lies half way between them, and then the even one counts as the nearest.

* `IsNearestCount.unique`, there is one nearest multiple.
* `IsNearestCount.of_nearer`, it is also the nearest to every value that lies no further away from it.
* `divRoundEven_isNearestCount`, whole numbers are rounded to it.
-/

namespace Reckoner

/-- The multiple `count * step` is the nearest one to the value. -/
structure IsNearestCount (step value : ℚ) (count : ℤ) : Prop where
  near : 2 * |value - count * step| ≤ step
  even : 2 * |value - count * step| = step → Even count

/-- Multiples of different counts are at least a step apart. -/
theorem step_le_abs {step : ℚ} (positive : 0 < step) {one other : ℤ} (different : one ≠ other) :
    step ≤ |one * step - other * step| := by
  have apart : (1 : ℚ) ≤ |((one - other : ℤ) : ℚ)| := by
    have whole : 1 ≤ |one - other| := Int.one_le_abs (sub_ne_zero.mpr different)
    exact_mod_cast whole
  calc step = 1 * step := (one_mul step).symm
    _ ≤ |((one - other : ℤ) : ℚ)| * step := mul_le_mul_of_nonneg_right apart positive.le
    _ = |((one - other : ℤ) : ℚ) * step| := by rw [abs_mul, abs_of_pos positive]
    _ = |one * step - other * step| := by rw [Int.cast_sub, sub_mul]

namespace IsNearestCount

variable {step value : ℚ} {count : ℤ}

/-- Another multiple is at least half a step away. -/
theorem step_le_of_ne (nearest : IsNearestCount step value count) (positive : 0 < step) {other : ℤ}
    (different : other ≠ count) : step ≤ 2 * |value - other * step| := by
  have apart := step_le_abs positive different
  have through := abs_sub_le (other * step : ℚ) value (count * step)
  rw [abs_sub_comm (other * step : ℚ) value] at through
  have near := nearest.near
  linarith

theorem le_other (nearest : IsNearestCount step value count) (positive : 0 < step) (other : ℤ) :
    |value - count * step| ≤ |value - other * step| := by
  by_cases same : other = count
  · rw [same]
  · have far := nearest.step_le_of_ne positive same
    have near := nearest.near
    linarith

/-- If another multiple is as near, both are half a step away. -/
theorem even_of_tie (nearest : IsNearestCount step value count) (positive : 0 < step) {other : ℤ}
    (different : other ≠ count) (tie : |value - other * step| = |value - count * step|) : Even count := by
  have far := nearest.step_le_of_ne positive different
  have near := nearest.near
  exact nearest.even (by linarith)

theorem unique (nearest : IsNearestCount step value count) (positive : 0 < step) {other : ℤ}
    (nearest' : IsNearestCount step value other) : count = other := by
  by_contra different
  -- Both are exactly half a step away, so both are even, and whole steps lie between them.
  have far := nearest.step_le_of_ne positive (Ne.symm different)
  have far' := nearest'.step_le_of_ne positive different
  have even := nearest.even (le_antisymm nearest.near far')
  have even' := nearest'.even (le_antisymm nearest'.near far)
  obtain ⟨half, whole⟩ := even.sub even'
  have apart : 2 ≤ |count - other| := by
    have some_steps := Int.one_le_abs (sub_ne_zero.mpr different)
    rcases abs_cases (count - other) with ⟨same, -⟩ | ⟨same, -⟩ <;> omega
  have steps : 2 * step ≤ |(count * step - other * step : ℚ)| := by
    have apart' : (2 : ℚ) ≤ |((count - other : ℤ) : ℚ)| := by exact_mod_cast apart
    rw [← sub_mul, abs_mul, abs_of_pos positive, ← Int.cast_sub]
    exact mul_le_mul_of_nonneg_right apart' positive.le
  have through := abs_sub_le (count * step : ℚ) value (other * step)
  rw [abs_sub_comm (count * step : ℚ) value] at through
  have near := nearest.near
  have near' := nearest'.near
  linarith

/-- The nearest multiple to a value is the nearest one to every value that is no further away from it. -/
theorem of_nearer (nearest : IsNearestCount step value count) {nearer : ℚ}
    (closer : |nearer - count * step| ≤ |value - count * step|) : IsNearestCount step nearer count where
  near := by
    have near := nearest.near
    linarith
  even half := by
    have near := nearest.near
    exact nearest.even (by linarith)

theorem scale (nearest : IsNearestCount step value count) {factor : ℚ} (positive : 0 < factor) :
    IsNearestCount (factor * step) (factor * value) count := by
  have distance : |factor * value - count * (factor * step)| = factor * |value - count * step| := by
    rw [← abs_of_pos positive, ← abs_mul, abs_of_pos positive]
    ring_nf
  refine ⟨?_, fun half => nearest.even ?_⟩ <;> rw [distance] at *
  · have near := mul_le_mul_of_nonneg_left nearest.near positive.le
    linarith
  · rw [mul_left_comm] at half
    exact mul_left_cancel₀ positive.ne' half

theorem neg (nearest : IsNearestCount step value count) : IsNearestCount step (-value) (-count) := by
  have distance : |-value - ((-count : ℤ) : ℚ) * step| = |value - count * step| := by
    rw [← abs_neg]
    push_cast
    ring_nf
  refine ⟨?_, fun half => (nearest.even ?_).neg⟩ <;> rw [distance] at *
  · exact nearest.near
  · exact half

/-- A multiple is the nearest one to itself. -/
theorem of_eq (positive : 0 < step) (same : value = count * step) : IsNearestCount step value count where
  near := by simpa [same] using positive.le
  even half := by
    rw [same, sub_self, abs_zero, mul_zero] at half
    exact absurd half positive.ne

end IsNearestCount

/-- A half is rounded to the even neighbour. -/
theorem even_divRoundEven (num : Nat) {den : Nat} (positive : 0 < den) :
    2 * num = 2 * (divRoundEven num den * den) + den ∨ 2 * num + den = 2 * (divRoundEven num den * den) →
      divRoundEven num den % 2 = 0 := by
  have split := Nat.div_add_mod num den
  have part := Nat.mod_lt num positive
  rw [Nat.mul_comm] at split
  unfold divRoundEven
  simp only
  split
  · omega
  · split
    · rw [Nat.add_mul]
      omega
    · split
      · next even => exact fun _ => even
      · omega

/-- Whole numbers are rounded to the nearest multiple. -/
theorem divRoundEven_isNearestCount (num : Nat) {den : Nat} (positive : 0 < den) :
    IsNearestCount den num (divRoundEven num den) := by
  obtain ⟨above, below⟩ := divRoundEven_near num positive
  have even := even_divRoundEven num positive
  generalize divRoundEven num den = count at above below even
  have above' : (2 * num : ℚ) ≤ 2 * (count * den) + den := by exact_mod_cast above
  have below' : (2 * (count * den) : ℚ) ≤ 2 * num + den := by exact_mod_cast below
  constructor
  · rw [Int.cast_natCast]
    rcases abs_cases ((num : ℚ) - count * den) with ⟨same, -⟩ | ⟨same, -⟩ <;> linarith
  · rw [Int.cast_natCast]
    intro half
    have tie : 2 * num = 2 * (count * den) + den ∨ 2 * num + den = 2 * (count * den) := by
      rcases abs_cases ((num : ℚ) - count * den) with ⟨same, -⟩ | ⟨same, -⟩
      · left
        have level : (2 * num : ℚ) = 2 * (count * den) + den := by linarith
        exact_mod_cast level
      · right
        have level : (2 * num + den : ℚ) = 2 * (count * den) := by linarith
        exact_mod_cast level
    exact_mod_cast Nat.even_iff.mpr (even tie)

end Reckoner
