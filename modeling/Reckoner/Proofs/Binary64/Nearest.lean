import Reckoner.Binary64.Rounding

/-!
# Rounding of ratios

The rank nearest to a ratio depends on its value only, and a ratio that has the value of a magnitude is
rounded to that magnitude. Ratios far outside the range of the magnitudes are rounded to zero or to infinity.

* `nearestRank_eq_of_ratio`, equal ratios have the same nearest rank.
* `nearestRank_units`, a magnitude is nearest to itself.
-/

namespace Reckoner

/-- A ratio may be expanded before it is rounded. -/
theorem divRoundEven_scale (num den : Nat) {factor : Nat} (positive : 0 < factor) :
    divRoundEven (factor * num) (factor * den) = divRoundEven num den := by
  have twice : 2 * (factor * num % (factor * den)) = factor * (2 * (num % den)) := by
    rw [Nat.mul_mod_mul_left, Nat.mul_left_comm]
  simp only [divRoundEven, Nat.mul_div_mul_left _ _ positive, twice, Nat.mul_lt_mul_left positive]

namespace Binary64

theorem nearestRank_scale (num den : Nat) {factor : Nat} (positive : 0 < factor) :
    nearestRank (factor * num) (factor * den) = nearestRank num den := by
  simp only [nearestRank, Nat.mul_div_mul_left _ _ positive, Nat.mul_assoc, divRoundEven_scale _ _ positive]

/-- Equal ratios have the same nearest rank. -/
theorem nearestRank_eq_of_ratio {num den num' den' : Nat} (positive : 0 < den) (positive' : 0 < den')
    (same : num * den' = num' * den) : nearestRank num den = nearestRank num' den' := by
  rw [← nearestRank_scale num den positive', ← nearestRank_scale num' den' positive, Nat.mul_comm den' num,
    same, Nat.mul_comm num' den, Nat.mul_comm den' den]

@[simp] theorem nearestRank_zero (den : Nat) : nearestRank 0 den = 0 := by
  simp [nearestRank, divRoundEven]

/-- The significand and the step of the grid of a rank past the first binade. -/
theorem rank_split {rank : Nat} (high : binade ≤ rank) :
    ∃ step significand, rank = step * binade + significand ∧ binade ≤ significand ∧
      significand < 2 * binade := by
  refine ⟨rank / binade - 1, binade + rank % binade, ?_⟩
  rw [binade_eq] at high ⊢
  omega

private theorem log2_significand {significand : Nat} (low : binade ≤ significand)
    (high : significand < 2 * binade) (step : Nat) : (significand * Nat.pow 2 step).log2 = 52 + step := by
  have positive : 0 < 2 ^ step := Nat.two_pow_pos step
  have nonzero : significand * 2 ^ step ≠ 0 := by
    rw [binade_eq] at low
    have some_bit : 0 < significand := by omega
    exact Nat.ne_of_gt (Nat.mul_pos some_bit positive)
  have first : 2 ^ 52 ≤ significand := low
  have last : significand < 2 ^ 53 := high
  refine (Nat.log2_eq_iff nonzero).mpr ⟨?_, ?_⟩
  · rw [Nat.pow_add]
    exact Nat.mul_le_mul_right _ first
  · rw [Nat.add_right_comm, Nat.pow_add]
    exact Nat.mul_lt_mul_of_pos_right last positive

/-- A magnitude is nearest to itself, in whatever terms it is given. -/
theorem nearestRank_units (rank : Nat) {den : Nat} (positive : 0 < den) :
    nearestRank (units rank * den) den = rank := by
  unfold nearestRank
  rw [Nat.mul_div_cancel _ positive]
  by_cases low : rank < binade
  · -- Up to the first binade the ranks count grid units.
    have same : units rank = rank := if_pos low
    have fine : rank.log2 - 52 = 0 := by
      by_cases nothing : rank = 0
      · rw [nothing]
        rfl
      · have short := (Nat.log2_lt nothing).mpr low
        omega
    have whole : Nat.pow 2 0 = 1 := rfl
    simp only [same, fine, whole, Nat.zero_mul, Nat.mul_one, divRoundEven_mul rank positive, Nat.zero_add]
  · obtain ⟨step, significand, rfl, first, last⟩ := rank_split (Nat.le_of_not_lt low)
    have coarse : (significand * Nat.pow 2 step).log2 - 52 = step := by
      rw [log2_significand first last]
      omega
    have pieces : 0 < den * Nat.pow 2 step := Nat.mul_pos positive (Nat.two_pow_pos step)
    -- The bits of the significand are all that rounding keeps.
    rw [units_of_carry first last]
    simp only [coarse, Nat.mul_assoc, Nat.mul_comm (Nat.pow 2 step) den, divRoundEven_mul _ pieces]

theorem rank_eq_zero {rank : Nat} (none : units rank = 0) : rank = 0 := by
  have same := nearestRank_units rank Nat.one_pos
  rw [none, Nat.zero_mul, nearestRank_zero] at same
  exact same.symm

/-- Less than half a grid unit is rounded to zero. -/
theorem nearestRank_tiny {num den : Nat} (tiny : 2 * num < den) : nearestRank num den = 0 := by
  have below : num < den := by omega
  have whole : num / den = 0 := Nat.div_eq_of_lt below
  have part : num % den = num := Nat.mod_eq_of_lt below
  simp [nearestRank, divRoundEven, whole, part, tiny]

/-- A number of more bits than the magnitudes have is rounded to infinity. -/
theorem nearestRank_huge {num bits : Nat} (many : 2100 ≤ bits) (huge : Nat.pow 2 bits ≤ num) :
    rankCount ≤ nearestRank num 1 := by
  have nonzero : num ≠ 0 := by
    rintro rfl
    exact absurd huge (Nat.not_le.mpr (Nat.two_pow_pos bits))
  have long : bits ≤ num.log2 := (Nat.le_log2 nonzero).mpr huge
  have steps : 2047 ≤ num.log2 - 52 := by omega
  rw [nearestRank, Nat.div_one, rankCount]
  exact Nat.le_add_right_of_le (Nat.mul_le_mul_right binade steps)

end Binary64

end Reckoner
