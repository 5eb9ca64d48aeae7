import Mathlib.Algebra.Group.Nat.Defs
import Reckoner.Proofs.Decimal.Shortest

/-!
# Rounding to decimal places

Only numbers with a fraction are rounded to places. They are small, and a ratio below a power of two is not
rounded past it by much, so rounding never leads out of the finite numbers.

Main result: `Binary64.isFinite_roundToPlaces`.
-/

namespace Reckoner

/-- A ratio below a whole number is not rounded past it. -/
theorem divRoundEven_le {num den bound : Nat} (positive : 0 < den) (below : num ≤ bound * den) :
    divRoundEven num den ≤ bound := by
  have near := (divRoundEven_near num positive).2
  refine Nat.le_of_not_lt fun above => ?_
  have next : (bound + 1) * den ≤ divRoundEven num den * den :=
    Nat.mul_le_mul_right den above
  rw [Nat.succ_mul] at next
  omega

namespace Binary64

/-- In units of the step of the grid on which it is rounded, a ratio has at most 53 bits. -/
theorem significand_le (num : Nat) {den : Nat} (positive : 0 < den) :
    divRoundEven num (den * Nat.pow 2 ((num / den).log2 - 52)) ≤ 2 * binade := by
  generalize coarse : (num / den).log2 - 52 = step
  refine divRoundEven_le (Nat.mul_pos positive (Nat.two_pow_pos step)) ?_
  have bound : num / den < 2 ^ (step + 53) :=
    Nat.lt_of_lt_of_le Nat.lt_log2_self (Nat.pow_le_pow_right (by decide) (by omega))
  have split : 2 ^ (step + 53) * den = 2 * binade * (den * Nat.pow 2 step) := by
    have carry : (2 : Nat) ^ 53 = 2 * binade := rfl
    rw [Nat.pow_add, carry, Nat.pow_eq]
    ac_rfl
  rw [← split]
  exact Nat.le_of_lt ((Nat.div_lt_iff_lt_mul positive).mp bound)

/-- Two binades of ranks lie above the step of the grid on which a ratio is rounded. -/
theorem nearestRank_le {num den bits : Nat} (positive : 0 < den) (below : num ≤ den * 2 ^ (52 + bits)) :
    nearestRank num den ≤ (bits + 2) * binade := by
  let step := (num / den).log2 - 52
  have few : step ≤ bits := by
    have whole : num / den ≤ 2 ^ (52 + bits) := Nat.div_le_of_le_mul below
    have short : (num / den).log2 ≤ 52 + bits := by
      by_cases nothing : num / den = 0
      · simp [nothing]
      · have bound := (Nat.log2_lt nothing).mpr (Nat.lt_of_le_of_lt whole (Nat.pow_lt_pow_succ (by decide)))
        omega
    omega
  have significand : divRoundEven num (den * Nat.pow 2 step) ≤ 2 * binade := significand_le num positive
  calc nearestRank num den
      = step * binade + divRoundEven num (den * Nat.pow 2 step) := rfl
    _ ≤ bits * binade + 2 * binade := Nat.add_le_add (Nat.mul_le_mul_right binade few) significand
    _ = (bits + 2) * binade := (Nat.add_mul bits 2 binade).symm

theorem unitsPerOne_pos : 0 < unitsPerOne := by
  unfold unitsPerOne
  generalize gridPlaces = places
  exact Nat.two_pow_pos places

/-- A magnitude with a fraction is at most `2 ^ 52`. -/
theorem units_le_of_fraction {rank : Nat} (fraction : units rank % unitsPerOne ≠ 0) :
    units rank ≤ binade * unitsPerOne := by
  have grid : gridPlaces = 1074 := rfl
  unfold unitsPerOne at fraction ⊢
  generalize gridPlaces = places at grid fraction ⊢
  rw [Nat.pow_eq] at fraction ⊢
  by_cases low : rank < binade
  · rw [units, if_pos low]
    exact Nat.le_trans (Nat.le_of_lt low) (Nat.le_mul_of_pos_right binade (Nat.two_pow_pos places))
  · rw [units, if_neg low, Nat.pow_eq] at fraction ⊢
    -- From the step of one on, all magnitudes are whole.
    have fine : rank / binade - 1 < places := by
      refine Nat.lt_of_not_le fun coarse => ?_
      obtain ⟨more, split⟩ := Nat.exists_eq_add_of_le coarse
      rw [split, Nat.pow_add, Nat.mul_left_comm] at fraction
      exact fraction (Nat.mul_mod_right _ _)
    have significand : binade + rank % binade ≤ 2 * binade := by
      have below := Nat.mod_lt rank (by decide : 0 < binade)
      omega
    calc (binade + rank % binade) * 2 ^ (rank / binade - 1)
        ≤ 2 * binade * 2 ^ (places - 1) :=
          Nat.mul_le_mul significand (Nat.pow_le_pow_right (by decide) (by omega))
      _ = binade * 2 ^ (places - 1 + 1) := by rw [Nat.pow_succ]; ac_rfl
      _ = binade * 2 ^ places := by rw [Nat.sub_add_cancel (by omega)]

private theorem rank_of_places_le {coefficient places : Nat} (small : coefficient ≤ binade * 10 ^ places) :
    (⟨coefficient, -places⟩ : Decimal).rank ≤ (gridPlaces + 2) * binade := by
  have ratio : (⟨coefficient, -places⟩ : Decimal).ratio = (coefficient, 10 ^ places) := by
    simp [Decimal.ratio]
  rw [Decimal.rank, ratio]
  unfold unitsPerOne
  -- The grid stays a name, so that its power is not computed.
  generalize gridPlaces = grid
  refine nearestRank_le (Nat.pow_pos (by decide)) ?_
  have first : binade = 2 ^ 52 := rfl
  calc coefficient * 2 ^ grid
      ≤ binade * 10 ^ places * 2 ^ grid := Nat.mul_le_mul_right _ small
    _ = 10 ^ places * 2 ^ (52 + grid) := by
      rw [first, Nat.pow_add, Nat.mul_comm (2 ^ 52) (10 ^ places), Nat.mul_assoc]

/-- A finite number with a fraction stays finite when it is rounded. -/
theorem isFinite_roundToPlaces {x : Binary64} (finite : x.isFinite = true) (fraction : x.isInteger = false)
    (places : Nat) : (x.roundToPlaces places).isFinite = true := by
  cases x with
  | nan | infinite => cases finite
  | finite negative rank inRange =>
    have broken : units rank % unitsPerOne ≠ 0 := by simpa [isInteger] using fraction
    have small := units_le_of_fraction broken
    rw [roundToPlaces]
    generalize min places gridPlaces = places
    -- Counted in the last of the places, the rounded value is still at most `2 ^ 52`.
    have coefficient : divRoundEven (units rank * Nat.pow 10 places) unitsPerOne ≤ binade * 10 ^ places := by
      refine divRoundEven_le unitsPerOne_pos ?_
      rw [Nat.mul_right_comm]
      exact Nat.mul_le_mul_right _ small
    have bounded := rank_of_places_le coefficient
    have below : (gridPlaces + 2) * binade < rankCount := by decide
    rw [Decimal.toBinary64_eq, ofRank, dif_pos (Nat.lt_of_le_of_lt bounded below)]
    rfl

end Binary64

end Reckoner
