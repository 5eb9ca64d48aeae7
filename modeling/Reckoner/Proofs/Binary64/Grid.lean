import Mathlib.Order.Monotone.Basic
import Reckoner.Proofs.Decimal.Places
import Reckoner.Proofs.Multiple

/-!
# The grid of magnitudes

The magnitudes increase with their ranks, and from a binade on they are multiples of its spacing. So the
magnitude to which a ratio is rounded is nearer to it than all others: those of its binade and above are
multiples of the step that it is rounded to, and those below lie on the far side of the binade's first one.

Main result: `nearestRank_nearest`.
-/

namespace Reckoner

/-- What is at least a whole number is not rounded below it. -/
theorem le_divRoundEven {num den bound : Nat} (positive : 0 < den) (above : bound * den ≤ num) :
    bound ≤ divRoundEven num den := by
  have near := (divRoundEven_near num positive).1
  refine Nat.le_of_not_lt fun below => ?_
  have next : (divRoundEven num den + 1) * den ≤ bound * den := Nat.mul_le_mul_right den below
  rw [Nat.succ_mul] at next
  omega

namespace Binary64

/-! ### Magnitudes on the grid of a step -/

/-- The magnitude of a significand on the grid of a step, a carry out of its bits included. -/
theorem units_steps {step significand : Nat} (low : step = 0 ∨ binade ≤ significand)
    (high : significand ≤ 2 * binade) : units (step * binade + significand) = significand * 2 ^ step := by
  rcases Nat.eq_or_lt_of_le high with rfl | inside
  · -- The carry leads to the first magnitude of the next binade.
    have carry : step * binade + 2 * binade = (step + 1) * binade + binade := by
      rw [binade_eq]
      omega
    have doubled : binade < 2 * binade := by decide
    rw [carry, units_of_carry (Nat.le_refl binade) doubled, Nat.pow_eq, Nat.pow_succ]
    ac_rfl
  · by_cases first : binade ≤ significand
    · exact units_of_carry first inside
    · obtain rfl := low.resolve_right first
      rw [Nat.zero_mul, Nat.zero_add, units, if_pos (Nat.lt_of_not_le first), Nat.pow_zero, Nat.mul_one]

/-- From the first magnitude of a binade on, all are multiples of its spacing. -/
theorem units_coarse {step rank : Nat} (above : step * binade + binade ≤ rank) :
    ∃ count, units rank = count * 2 ^ step := by
  have high : binade ≤ rank := Nat.le_trans (Nat.le_add_left _ _) above
  obtain ⟨coarser, significand, rfl, first, last⟩ := rank_split high
  have further : step ≤ coarser := by
    rw [binade_eq] at above last
    omega
  obtain ⟨more, rfl⟩ := Nat.exists_eq_add_of_le further
  refine ⟨significand * 2 ^ more, ?_⟩
  rw [units_of_carry first last, Nat.pow_eq, Nat.pow_add]
  ac_rfl

theorem units_lt_succ (rank : Nat) : units rank < units (rank + 1) := by
  by_cases low : rank < binade
  · -- In the first binade ranks count grid units.
    have here : units (0 * binade + rank) = rank * 2 ^ 0 := units_steps (.inl rfl) (by omega)
    have next : units (0 * binade + (rank + 1)) = (rank + 1) * 2 ^ 0 := units_steps (.inl rfl) (by omega)
    rw [Nat.zero_mul, Nat.zero_add, Nat.pow_zero, Nat.mul_one] at here next
    omega
  · obtain ⟨step, significand, rfl, first, last⟩ := rank_split (Nat.le_of_not_lt low)
    rw [Nat.add_assoc, units_steps (.inr first) last.le, units_steps (.inr (Nat.le_succ_of_le first)) last]
    exact Nat.mul_lt_mul_of_pos_right (Nat.lt_succ_self significand) (Nat.two_pow_pos step)

theorem units_strictMono : StrictMono units := strictMono_nat_of_lt_succ units_lt_succ

/-! ### The nearest magnitude -/

/-- The step of the grid on which a ratio is rounded is one, or the ratio has 53 bits before the step. -/
theorem binade_le_of_step {num den step : Nat} (coarse : (num / den).log2 - 52 = step) (steps : step ≠ 0) :
    binade * (den * 2 ^ step) ≤ num := by
  have large : num / den ≠ 0 := by
    intro none
    rw [none] at coarse
    exact steps coarse.symm
  have bits : 2 ^ (52 + step) ≤ num / den := by
    have exact_bits : 52 + step = (num / den).log2 := by omega
    rw [exact_bits]
    exact Nat.log2_self_le large
  calc binade * (den * 2 ^ step)
      = 2 ^ (52 + step) * den := by rw [Nat.pow_add]; change 2 ^ 52 * (den * 2 ^ step) = _; ac_rfl
    _ ≤ num / den * den := Nat.mul_le_mul_right den bits
    _ ≤ num := Nat.div_mul_le_self num den

/-- A ratio is rounded to the nearest multiple of a step, and the magnitudes that are no multiples of it lie
below all that is rounded to this step. -/
theorem nearestRank_steps (num : Nat) {den : Nat} (positive : 0 < den) :
    ∃ step significand : Nat, nearestRank num den = step * binade + significand ∧
      units (nearestRank num den) = significand * 2 ^ step ∧
      IsNearestCount (den * 2 ^ step) num significand ∧
      (step ≠ 0 → binade * (den * 2 ^ step) ≤ num) := by
  generalize coarse : (num / den).log2 - 52 = step
  have whole : nearestRank num den = step * binade + divRoundEven num (den * 2 ^ step) := by
    rw [nearestRank, coarse]
    rfl
  have pieces : 0 < den * 2 ^ step := Nat.mul_pos positive (Nat.two_pow_pos step)
  have bits := significand_le num positive
  rw [coarse] at bits
  have large := binade_le_of_step coarse
  have low : step = 0 ∨ binade ≤ divRoundEven num (den * 2 ^ step) := by
    by_cases fine : step = 0
    · exact .inl fine
    · exact .inr (le_divRoundEven pieces (large fine))
  have nearest := divRoundEven_isNearestCount num pieces
  push_cast at nearest
  exact ⟨step, _, whole, by rw [whole, units_steps low bits], nearest, large⟩

/-- No magnitude is nearer to a ratio than the one to which it is rounded, and another one is as near only if
that one has an even rank. The ratio and the magnitudes are compared in units of `1 / den`. -/
theorem nearestRank_nearest (num : Nat) {den : Nat} (positive : 0 < den) (rank : Nat) :
    |(num : ℚ) - units (nearestRank num den) * den| ≤ |(num : ℚ) - units rank * den| ∧
      (|(num : ℚ) - units rank * den| = |(num : ℚ) - units (nearestRank num den) * den| →
        rank ≠ nearestRank num den → nearestRank num den % 2 = 0) := by
  obtain ⟨step, significand, whole, exact_units, nearest, large⟩ := nearestRank_steps num positive
  have pieces : (0 : ℚ) < den * 2 ^ step := by positivity
  have same : (units (nearestRank num den) * den : ℚ) = (significand : ℤ) * (den * 2 ^ step) := by
    rw [exact_units]
    push_cast
    ring
  rw [same]
  by_cases above : step = 0 ∨ step * binade + binade ≤ rank
  · -- The other magnitude is a multiple of the step, too.
    obtain ⟨count, multiple⟩ : ∃ count, units rank = count * 2 ^ step := by
      rcases above with rfl | above
      · exact ⟨units rank, by rw [Nat.pow_zero, Nat.mul_one]⟩
      · exact units_coarse above
    have other : (units rank * den : ℚ) = (count : ℤ) * (den * 2 ^ step) := by
      rw [multiple]
      push_cast
      ring
    rw [other]
    refine ⟨nearest.le_other pieces count, fun tie different => ?_⟩
    have apart : (count : ℤ) ≠ significand := by
      intro equal
      refine different (units_strictMono.injective ?_)
      rw [exact_units, multiple, Int.ofNat_inj.mp equal]
    have even : significand % 2 = 0 := by
      have found := nearest.even_of_tie pieces apart tie
      exact Nat.even_iff.mp (by exact_mod_cast found)
    rw [whole, Nat.add_mod, even, Nat.mul_mod]
    simp [binade_eq]
  · -- The other magnitude lies below the first one of the binade, which lies below the ratio.
    obtain ⟨steps, below⟩ := not_or.mp above
    have first : units (step * binade + binade) = binade * 2 ^ step :=
      units_of_carry (Nat.le_refl binade) (by decide)
    have lower : units rank < binade * 2 ^ step := first ▸ units_strictMono (Nat.lt_of_not_le below)
    have lower' : (units rank * den : ℚ) < (binade : ℤ) * (den * 2 ^ step) := by
      have scaled : (units rank : ℚ) < binade * 2 ^ step := by exact_mod_cast lower
      have grid : (0 : ℚ) < den := by exact_mod_cast positive
      calc (units rank * den : ℚ) < binade * 2 ^ step * den := mul_lt_mul_of_pos_right scaled grid
        _ = (binade : ℤ) * (den * 2 ^ step) := by push_cast; ring
    have large' : ((binade : ℤ) * (den * 2 ^ step) : ℚ) ≤ num := by exact_mod_cast large steps
    have between := nearest.le_other pieces binade
    rw [abs_of_nonneg (sub_nonneg.mpr large')] at between
    have further : |(num : ℚ) - significand * (den * 2 ^ step)| < |(num : ℚ) - units rank * den| := by
      rw [abs_of_nonneg (by linarith : (0 : ℚ) ≤ num - units rank * den)]
      exact lt_of_le_of_lt between (by linarith)
    exact ⟨further.le, fun tie => absurd tie further.ne'⟩

end Binary64

end Reckoner
