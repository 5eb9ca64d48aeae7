import Mathlib.Algebra.Group.Nat.Defs
import Reckoner.Decimal.Shortest
import Reckoner.Proofs.Binary64.Nearest

/-!
# Decimals and the doubles nearest to them

A decimal is rounded by its value alone: the two bounds of `Decimal.toBinary64` change nothing, and neither
do zeros that move from the exponent into the coefficient. The shortest decimal of a magnitude is rounded
back to it.

Main result: `toBinary64_shortest`.
-/

namespace Reckoner

namespace Decimal

private theorem two_pow_le_ten_pow (n : Nat) : 2 ^ (3 * n) ≤ 10 ^ n := by
  rw [Nat.pow_mul]
  exact Nat.pow_le_pow_left (by decide) n

/-- What is tiny by its exponent is rounded to zero. -/
theorem rank_of_isTiny {d : Decimal} (tiny : d.isTiny = true) : d.rank = 0 := by
  have below : d.exponent < -(400 + d.coefficient.log2 : Int) := of_decide_eq_true tiny
  have whole : d.exponent.toNat = 0 := by omega
  have far : 401 + d.coefficient.log2 ≤ (-d.exponent).toNat := by omega
  have short : d.coefficient < 2 ^ (d.coefficient.log2 + 1) := Nat.lt_log2_self
  have grid : Binary64.gridPlaces ≤ 1200 := by decide
  refine Binary64.nearestRank_tiny ?_
  unfold Binary64.unitsPerOne
  -- The grid stays a name, so that none of its powers is computed.
  generalize Binary64.gridPlaces = places at grid
  simp only [ratio, whole, Nat.pow_eq, Nat.pow_zero, Nat.mul_one]
  generalize d.coefficient.log2 = bits at short far
  calc 2 * (d.coefficient * 2 ^ places)
      = d.coefficient * 2 ^ (places + 1) := by rw [Nat.pow_succ]; ac_rfl
    _ < 2 ^ (bits + 1) * 2 ^ (places + 1) := Nat.mul_lt_mul_of_pos_right short (Nat.two_pow_pos _)
    _ = 2 ^ (bits + 1 + (places + 1)) := (Nat.pow_add 2 _ _).symm
    _ ≤ 2 ^ (3 * (-d.exponent).toNat) := Nat.pow_le_pow_right (by decide) (by omega)
    _ ≤ 10 ^ (-d.exponent).toNat := two_pow_le_ten_pow _

/-- What is huge by its exponent is rounded to infinity. -/
theorem rank_of_isHuge {d : Decimal} (huge : d.isHuge = true) : Binary64.rankCount ≤ d.rank := by
  simp only [isHuge, Bool.and_eq_true, bne_iff_ne, decide_eq_true_eq] at huge
  obtain ⟨nonzero, above⟩ := huge
  have whole : (-d.exponent).toNat = 0 := by omega
  have one : 1 ≤ d.coefficient := Nat.one_le_iff_ne_zero.mpr nonzero
  have grid : 897 ≤ Binary64.gridPlaces := by decide
  have many : 2100 ≤ 3 * d.exponent.toNat + Binary64.gridPlaces := by omega
  simp only [rank, ratio, whole]
  refine Binary64.nearestRank_huge many ?_
  unfold Binary64.unitsPerOne
  generalize Binary64.gridPlaces = places
  simp only [Nat.pow_eq]
  calc 2 ^ (3 * d.exponent.toNat + places)
      = 2 ^ (3 * d.exponent.toNat) * 2 ^ places := Nat.pow_add 2 _ _
    _ ≤ 10 ^ d.exponent.toNat * 2 ^ places := Nat.mul_le_mul_right _ (two_pow_le_ten_pow _)
    _ ≤ d.coefficient * 10 ^ d.exponent.toNat * 2 ^ places :=
        Nat.mul_le_mul_right _ (Nat.le_mul_of_pos_left _ one)

/-- The double nearest to a decimal is the one of its rank. -/
theorem toBinary64_eq (negative : Bool) (d : Decimal) : d.toBinary64 negative = .ofRank negative d.rank := by
  unfold toBinary64
  split
  next small =>
    -- Nothing, or next to nothing.
    have none : d.rank = 0 := by
      rcases Bool.or_eq_true_iff.mp small with zero | tiny
      · have nothing : d.coefficient = 0 := of_decide_eq_true zero
        simp [rank, ratio, nothing]
      · exact rank_of_isTiny tiny
    rw [none]
    rfl
  next =>
    split
    next huge =>
      rw [Binary64.ofRank, dif_neg (Nat.not_lt.mpr (rank_of_isHuge huge))]
    next => rfl

/-- Zeros at the end of the coefficient count as much as a greater exponent. -/
theorem rank_shift (coefficient zeros : Nat) (exponent : Int) :
    rank ⟨coefficient * 10 ^ zeros, exponent⟩ = rank ⟨coefficient, exponent + zeros⟩ := by
  refine Binary64.nearestRank_eq_of_ratio (Nat.pow_pos (by decide)) (Nat.pow_pos (by decide)) ?_
  simp only [ratio, Nat.pow_eq]
  generalize Binary64.unitsPerOne = unit
  have places : zeros + exponent.toNat + (-(exponent + zeros)).toNat =
      (exponent + zeros).toNat + (-exponent).toNat := by omega
  have powers : 10 ^ zeros * 10 ^ exponent.toNat * 10 ^ (-(exponent + zeros)).toNat =
      10 ^ (exponent + zeros).toNat * 10 ^ (-exponent).toNat := by
    rw [← Nat.pow_add, ← Nat.pow_add, ← Nat.pow_add, places]
  calc coefficient * 10 ^ zeros * 10 ^ exponent.toNat * unit *
        10 ^ (-(exponent + zeros)).toNat
      = coefficient * unit *
          (10 ^ zeros * 10 ^ exponent.toNat * 10 ^ (-(exponent + zeros)).toNat) := by ac_rfl
    _ = coefficient * unit *
          (10 ^ (exponent + zeros).toNat * 10 ^ (-exponent).toNat) := by rw [powers]
    _ = coefficient * 10 ^ (exponent + zeros).toNat * unit *
          10 ^ (-exponent).toNat := by ac_rfl

end Decimal

namespace Binary64

/-- The shortest decimal of a magnitude reads back. -/
theorem rank_shortest (rank : Nat) : (shortest rank).rank = rank := by
  unfold shortest
  cases found : (List.range 17).findSome? fun (more : Nat) => onGrid? rank (leadingExponent rank - more) with
  | some d =>
    obtain ⟨more, -, on_grid⟩ := List.exists_of_findSome?_eq_some found
    exact onGrid?_rank on_grid
  | none =>
    -- No decimal of few digits reads back, but the exact one does.
    have positive : 0 < (exactDecimal rank).ratio.2 := Nat.pow_pos (by decide)
    rw [Option.getD_none, Decimal.rank, exactDecimal_ratio]
    exact nearestRank_units rank positive

/-- A decimal of coefficient zero would be rounded to zero. -/
theorem coefficient_shortest_ne_zero {rank : Nat} (positive : rank ≠ 0) : (shortest rank).coefficient ≠ 0 := by
  intro none
  apply positive
  rw [← rank_shortest rank]
  simp [Decimal.rank, Decimal.ratio, none, nearestRank_zero]

theorem toBinary64_shortest (negative : Bool) {rank : Nat} (inRange : rank < rankCount) :
    (shortest rank).toBinary64 negative = .finite negative rank inRange := by
  rw [Decimal.toBinary64_eq, rank_shortest]
  exact dif_pos inRange

end Binary64

end Reckoner
