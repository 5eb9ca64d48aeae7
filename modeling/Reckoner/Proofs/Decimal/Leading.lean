import Mathlib.Algebra.Order.Field.Power
import Reckoner.Decimal.Layout
import Reckoner.Proofs.Binary64.Exact

/-!
# Where the digits of a double begin

The shortest decimal of a magnitude is a neighbour of it on a grid that is no coarser than the magnitude's own
power of ten. So it lies on the same side of every power of ten as the magnitude, unless it is that power: then
the magnitude is the one nearest to the power, and may lie below it.

Main result: `Binary64.lt_pointPosition_shortest_iff`.
-/

namespace Reckoner

/-! ### Digits and powers of ten -/

theorem lt_digitCount_iff {n : Nat} (positive : n ≠ 0) (k : Nat) : k < digitCount n ↔ 10 ^ k ≤ n := by
  cases k with
  | zero =>
    have some_digit : 0 < digitCount n := List.length_pos_iff.mpr Nat.toDigits_ne_nil
    have one : 10 ^ 0 ≤ n := Nat.one_le_iff_ne_zero.mpr positive
    exact iff_of_true some_digit one
  | succ k =>
    rw [← not_iff_not, Nat.not_lt, Nat.not_le]
    exact Nat.length_toDigits_le_iff (by decide) (Nat.succ_pos k)

/-- Whole numbers that are not zero lie above all negative powers, too. -/
theorem lt_digitCount_iff_zpow {n : Nat} (positive : n ≠ 0) (k : ℤ) :
    k < digitCount n ↔ (10 : ℚ) ^ k ≤ n := by
  rcases lt_or_ge k 0 with below | above
  · have one : (1 : ℚ) ≤ n := by exact_mod_cast Nat.one_le_iff_ne_zero.mpr positive
    have fraction : (10 : ℚ) ^ k ≤ 1 := zpow_le_one_of_nonpos₀ (by norm_num) below.le
    exact iff_of_true (by omega) (fraction.trans one)
  · obtain ⟨k, rfl⟩ := Int.eq_ofNat_of_zero_le above
    rw [zpow_natCast]
    exact_mod_cast lt_digitCount_iff positive k

namespace Decimal

def value (d : Decimal) : ℚ := d.coefficient * 10 ^ d.exponent

theorem lt_pointPosition_iff {d : Decimal} (nonzero : d.coefficient ≠ 0) (k : ℤ) :
    k < d.pointPosition ↔ 10 ^ k ≤ d.value := by
  have scale : (0 : ℚ) < 10 ^ d.exponent := zpow_pos (by norm_num) _
  rw [pointPosition, value, ← div_le_iff₀ scale, ← zpow_sub₀ (by norm_num), ← lt_digitCount_iff_zpow nonzero]
  omega

theorem value_eq_ratio (d : Decimal) : d.value = d.ratio.1 / d.ratio.2 := by
  obtain ⟨coefficient, exponent⟩ := d
  simp only [value, ratio, Nat.pow_eq, Nat.cast_mul, Nat.cast_pow, Nat.cast_ofNat, mul_div_assoc]
  obtain ⟨n, rfl | rfl⟩ := exponent.eq_nat_or_neg <;> simp

/-- Decimals of the same value have the same nearest double. -/
theorem rank_of_value {d other : Decimal} (same : d.value = other.value) : d.rank = other.rank := by
  have positive : 0 < d.ratio.2 := Nat.pow_pos (by decide)
  have positive' : 0 < other.ratio.2 := Nat.pow_pos (by decide)
  rw [value_eq_ratio, value_eq_ratio, div_eq_div_iff (Nat.cast_pos.mpr positive).ne'
    (Nat.cast_pos.mpr positive').ne'] at same
  have crossed : d.ratio.1 * other.ratio.2 = other.ratio.1 * d.ratio.2 := by exact_mod_cast same
  refine Binary64.nearestRank_eq_of_ratio positive positive' ?_
  rw [Nat.mul_right_comm, crossed, Nat.mul_right_comm]

end Decimal

namespace Binary64

/-! ### The leading exponent -/

/-- From one on, the whole part has the leading digit. -/
private theorem le_leadingExponent_iff_of_one_le {rank : Nat} (large : unitsPerOne ≤ units rank) (k : ℤ) :
    k ≤ leadingExponent rank ↔ 10 ^ k ≤ magnitude rank := by
  have whole : wholePart rank ≠ 0 := (Nat.div_pos large unitsPerOne_pos).ne'
  have one : 1 ≤ magnitude rank := (one_le_div grid_pos).mpr (Nat.cast_le.mpr large)
  rw [leadingExponent, if_pos large, Int.le_sub_one_iff]
  rcases lt_or_ge k 0 with below | above
  · have fraction : (10 : ℚ) ^ k ≤ 1 := zpow_le_one_of_nonpos₀ (by norm_num) below.le
    exact iff_of_true (by omega) (fraction.trans one)
  · obtain ⟨n, rfl⟩ := Int.eq_ofNat_of_zero_le above
    rw [Nat.cast_lt, lt_digitCount_iff whole, wholePart, Nat.le_div_iff_mul_le unitsPerOne_pos,
      zpow_natCast, magnitude, le_div_iff₀ grid_pos]
    exact_mod_cast Iff.rfl

/-- Below one, it is the whole part of the reciprocal that tells how many zeros come first. -/
private theorem le_leadingExponent_iff_of_lt_one {rank : Nat} (positive : 0 < units rank)
    (small : units rank < unitsPerOne) (k : ℤ) : k ≤ leadingExponent rank ↔ 10 ^ k ≤ magnitude rank := by
  have zeros : (unitsPerOne - 1) / units rank ≠ 0 := (Nat.div_pos (by omega) positive).ne'
  have one : magnitude rank < 1 := (div_lt_one grid_pos).mpr (Nat.cast_lt.mpr small)
  rw [leadingExponent, if_neg (Nat.not_le.mpr small)]
  rcases lt_or_ge 0 k with above | below
  · have whole : (1 : ℚ) ≤ 10 ^ k := one_le_zpow₀ (by norm_num) above.le
    exact iff_of_false (by omega) (not_le.mpr (one.trans_le whole))
  · obtain ⟨n, rfl⟩ := Int.exists_eq_neg_ofNat below
    rw [neg_le_neg_iff, Nat.cast_le, ← Nat.not_lt, lt_digitCount_iff zeros, Nat.not_le, Nat.div_lt_iff_lt_mul positive,
      zpow_neg, zpow_natCast, magnitude, le_div_iff₀ grid_pos, inv_mul_le_iff₀ (pow_pos (by norm_num) n)]
    have next : unitsPerOne - 1 < 10 ^ n * units rank ↔ unitsPerOne ≤ 10 ^ n * units rank := by omega
    rw [next]
    exact_mod_cast Iff.rfl

/-- The leading exponent is that of the greatest power of ten up to the magnitude. -/
theorem le_leadingExponent_iff {rank : Nat} (positive : rank ≠ 0) (k : ℤ) :
    k ≤ leadingExponent rank ↔ 10 ^ k ≤ magnitude rank := by
  rcases Nat.lt_or_ge (units rank) unitsPerOne with small | large
  · exact le_leadingExponent_iff_of_lt_one (Nat.pos_of_ne_zero (mt rank_eq_zero positive)) small k
  · exact le_leadingExponent_iff_of_one_le large k

/-! ### The shortest decimal -/

theorem inGrid_value (rank : Nat) (grid : ℤ) :
    ((inGrid rank grid).1 : ℚ) / (inGrid rank grid).2 = magnitude rank / 10 ^ grid := by
  have unit := grid_pos.ne'
  simp only [inGrid, magnitude, Nat.pow_eq]
  generalize unitsPerOne = perOne at unit
  obtain ⟨n, rfl | rfl⟩ := grid.eq_nat_or_neg
  · simp [div_div]
  · simp
    ring

theorem mem_neighbours {rank : Nat} {grid : ℤ} {d : Decimal} (near : d ∈ neighbours rank grid) :
    d.exponent = grid ∧ (inGrid rank grid).1 / (inGrid rank grid).2 ≤ d.coefficient ∧
      d.coefficient ≤ (inGrid rank grid).1 / (inGrid rank grid).2 + 1 := by
  have positive : 0 < (inGrid rank grid).2 := Nat.mul_pos unitsPerOne_pos (Nat.pow_pos (by decide))
  simp only [neighbours, List.mem_cons, List.not_mem_nil, or_false] at near
  generalize (inGrid rank grid).1 = num, (inGrid rank grid).2 = den at near positive ⊢
  rcases near with rfl | rfl | rfl
  · refine ⟨rfl, le_divRoundEven positive (Nat.div_mul_le_self num den), divRoundEven_le positive ?_⟩
    exact (Nat.lt_mul_of_div_lt (Nat.lt_succ_self _) positive).le
  · exact ⟨rfl, Nat.le_refl _, Nat.le_succ _⟩
  · exact ⟨rfl, Nat.le_succ _, Nat.le_refl _⟩

/-- The neighbours of a magnitude lie on the same side of the points of a coarser grid, or are such a point. -/
theorem value_of_neighbour {rank : Nat} {grid k : ℤ} {d : Decimal} (near : d ∈ neighbours rank grid)
    (fine : grid ≤ k) :
    (10 ^ k ≤ magnitude rank → 10 ^ k ≤ d.value) ∧ (magnitude rank < 10 ^ k → d.value ≤ 10 ^ k) := by
  obtain ⟨rfl, lower, upper⟩ := mem_neighbours near
  have ratio := inGrid_value rank d.exponent
  have positive : 0 < (inGrid rank d.exponent).2 := Nat.mul_pos unitsPerOne_pos (Nat.pow_pos (by decide))
  generalize (inGrid rank d.exponent).1 = num, (inGrid rank d.exponent).2 = den at lower upper ratio positive
  have scale : (0 : ℚ) < 10 ^ d.exponent := zpow_pos (by norm_num) _
  have den_pos : (0 : ℚ) < den := Nat.cast_pos.mpr positive
  -- The point is a whole number of steps of the fine grid.
  obtain ⟨steps, rfl⟩ : ∃ steps : Nat, k = d.exponent + steps := ⟨(k - d.exponent).toNat, by omega⟩
  have point : (10 : ℚ) ^ (d.exponent + steps) = (10 ^ steps : Nat) * 10 ^ d.exponent := by
    rw [zpow_add₀ (by norm_num), zpow_natCast, mul_comm]
    push_cast
    rfl
  rw [point, Decimal.value, ← le_div_iff₀ scale, ← div_lt_iff₀ scale, ← ratio, le_div_iff₀ den_pos,
    div_lt_iff₀ den_pos, mul_le_mul_iff_of_pos_right scale, mul_le_mul_iff_of_pos_right scale]
  refine ⟨fun above => ?_, fun below => ?_⟩
  · have above' : 10 ^ steps * den ≤ num := by exact_mod_cast above
    exact_mod_cast ((Nat.le_div_iff_mul_le positive).mpr above').trans lower
  · have below' : num < 10 ^ steps * den := by exact_mod_cast below
    exact_mod_cast upper.trans ((Nat.div_lt_iff_lt_mul positive).mpr below')

theorem exactDecimal_value (rank : Nat) : (exactDecimal rank).value = magnitude rank := by
  have positive : (0 : ℚ) < (exactDecimal rank).ratio.2 := Nat.cast_pos.mpr (Nat.pow_pos (by decide))
  rw [Decimal.value_eq_ratio, magnitude, div_eq_div_iff positive.ne' grid_pos.ne']
  exact_mod_cast exactDecimal_ratio rank

theorem shortest_cases (rank : Nat) :
    (∃ grid ≤ leadingExponent rank, shortest rank ∈ neighbours rank grid) ∨ shortest rank = exactDecimal rank := by
  unfold shortest
  cases found : (List.range 17).findSome? fun (more : Nat) => onGrid? rank (leadingExponent rank - more) with
  | none => exact .inr rfl
  | some d =>
    obtain ⟨more, -, on_grid⟩ := List.exists_of_findSome?_eq_some found
    exact .inl ⟨_, Int.sub_le_self _ (Int.natCast_nonneg more), List.mem_of_find?_eq_some on_grid⟩

/-- The shortest decimal of a magnitude has the same leading exponent, or is the next power of ten. -/
theorem shortest_value {rank : Nat} (positive : rank ≠ 0) :
    10 ^ leadingExponent rank ≤ (shortest rank).value ∧
      (shortest rank).value ≤ 10 ^ (leadingExponent rank + 1) := by
  have lower := (le_leadingExponent_iff positive _).mp (le_refl (leadingExponent rank))
  have upper : magnitude rank < 10 ^ (leadingExponent rank + 1) :=
    not_le.mp fun above => absurd ((le_leadingExponent_iff positive _).mpr above) (by omega)
  rcases shortest_cases rank with ⟨grid, fine, near⟩ | same
  · exact ⟨(value_of_neighbour near fine).1 lower, (value_of_neighbour near (by omega)).2 upper⟩
  · rw [same, exactDecimal_value]
    exact ⟨lower, upper.le⟩

/-- Where the double nearest to a power of ten does not lie below it, the shortest decimals of the magnitudes
below the power have no digit before it. -/
theorem lt_pointPosition_shortest_iff {rank : Nat} (positive : rank ≠ 0) {k : ℤ}
    (above : 10 ^ k ≤ magnitude (Decimal.rank ⟨1, k⟩)) :
    k < (shortest rank).pointPosition ↔ 10 ^ k ≤ magnitude rank := by
  obtain ⟨lower, upper⟩ := shortest_value positive
  have growing {i j : ℤ} (before : i ≤ j) : (10 : ℚ) ^ i ≤ 10 ^ j := zpow_le_zpow_right₀ (by norm_num) before
  rw [Decimal.lt_pointPosition_iff (coefficient_shortest_ne_zero positive)]
  constructor
  · intro reached
    by_contra below
    have before := mt (le_leadingExponent_iff positive k).mp below
    -- The decimal would be the power itself, and the magnitude the nearest one to it.
    have same : (shortest rank).value = Decimal.value ⟨1, k⟩ := by
      have bounded := le_antisymm (upper.trans (growing (by omega))) reached
      rw [bounded, Decimal.value, Nat.cast_one, one_mul]
    rw [← Decimal.rank_of_value same, rank_shortest] at above
    exact below above
  · intro reached
    exact (growing ((le_leadingExponent_iff positive k).mpr reached)).trans lower

end Binary64

end Reckoner
