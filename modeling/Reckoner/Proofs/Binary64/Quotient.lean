import Reckoner.Binary64.Arithmetic
import Mathlib.Tactic.FieldSimp
import Reckoner.Proofs.Binary64.Exact

/-!
# Quotients

A ratio is rounded past a magnitude exactly if it lies above the middle between that and the next one, or right
in the middle and the next one is even. So there is a bound from which on ratios become infinite, and below it
the nearest double is taken. The quotient of two numbers is the rounded quotient of their values, apart from
what it is for zeros, infinities and not-a-number.

* `lt_nearestRank_iff`, `nearest_rounded`, how a ratio is rounded, overflow included.
* `isQuotient_iff`, the quotient is what the rules for quotients say.
-/

namespace Reckoner

namespace Binary64

/-! ### Overflow -/

section

variable {value low high : ℚ} (before : low < high)
include before

/-- The smaller one of two numbers is the nearer one up to their middle. -/
theorem abs_sub_low_le_iff : |value - low| ≤ |value - high| ↔ 2 * value ≤ low + high := by
  rcases abs_cases (value - low) with ⟨first, side⟩ | ⟨first, side⟩ <;>
    rcases abs_cases (value - high) with ⟨second, side'⟩ | ⟨second, side'⟩ <;>
      rw [first, second] <;> constructor <;> intro <;> linarith

/-- The greater one of two numbers is the nearer one from their middle on. -/
theorem abs_sub_high_le_iff : |value - high| ≤ |value - low| ↔ low + high ≤ 2 * value := by
  rcases abs_cases (value - low) with ⟨first, side⟩ | ⟨first, side⟩ <;>
    rcases abs_cases (value - high) with ⟨second, side'⟩ | ⟨second, side'⟩ <;>
      rw [first, second] <;> constructor <;> intro <;> linarith

end

/-- A ratio is rounded past a rank from the middle to the next one on, or right behind it if the rank is even. -/
theorem lt_nearestRank_iff (num : Nat) {den : Nat} (positive : 0 < den) (rank : Nat) :
    rank < nearestRank num den ↔
      (units rank + units (rank + 1)) * den < 2 * num ∨
        (units rank + units (rank + 1)) * den = 2 * num ∧ rank % 2 = 1 := by
  have nearest := nearestRank_nearest num positive
  generalize nearestRank num den = found at nearest ⊢
  have scaled {i j : Nat} : (units i * den : ℚ) < units j * den ↔ i < j := by
    rw [mul_lt_mul_iff_of_pos_right (Nat.cast_pos.mpr positive), Nat.cast_lt, units_strictMono.lt_iff_lt]
  have middle : (units rank + units (rank + 1)) * den < 2 * num ∨
        (units rank + units (rank + 1)) * den = 2 * num ∧ rank % 2 = 1 ↔
      (units rank * den + units (rank + 1) * den : ℚ) < 2 * num ∨
        (units rank * den + units (rank + 1) * den : ℚ) = 2 * num ∧ rank % 2 = 1 := by
    rw [← add_mul]
    exact_mod_cast Iff.rfl
  rw [middle]
  constructor
  · intro past
    obtain ⟨near, tie⟩ := nearest rank
    have above := (abs_sub_high_le_iff (scaled.mpr past)).mp near
    rcases Nat.lt_or_eq_of_le past with further | rfl
    · have gap := scaled.mpr further
      exact .inl (by linarith)
    · rcases above.lt_or_eq with inside | half
      · exact .inl inside
      · -- Half way up, the next rank is taken as the even one.
        have even := tie (le_antisymm ((abs_sub_low_le_iff (scaled.mpr past)).mpr half.ge) near) past.ne
        exact .inr ⟨half, by omega⟩
  · intro above
    by_contra kept
    have up : found < rank + 1 := by omega
    obtain ⟨near, tie⟩ := nearest (rank + 1)
    have below := (abs_sub_low_le_iff (scaled.mpr up)).mp near
    have under : (units found * den : ℚ) ≤ units rank * den := not_lt.mp (mt scaled.mp kept)
    rcases above with above | ⟨half, odd⟩
    · linarith
    · obtain rfl : found = rank := by
        by_contra different
        have gap : (units found * den : ℚ) < units rank * den := scaled.mpr (by omega)
        linarith
      have even := tie (le_antisymm ((abs_sub_high_le_iff (scaled.mpr up)).mpr half.le) near) up.ne'
      omega

/-- From here on a value is rounded to infinity: half a step above the largest finite number. -/
def overflowBound : ℚ := 2 ^ 1024 - 2 ^ 970

/-- The bound lies in the middle between the largest finite magnitude and the rank of infinity. -/
theorem overflowBound_eq :
    2 * (overflowBound * unitsPerOne) = (units (rankCount - 1) + units (rankCount - 1 + 1) : Nat) := by
  have whole : units (rankCount - 1) + units (rankCount - 1 + 1) + 2 * (2 ^ 970 * unitsPerOne) =
      2 * (2 ^ 1024 * unitsPerOne) := by decide +kernel
  have exact_sum := congrArg (Nat.cast : Nat → ℚ) whole
  rw [Nat.cast_add, Nat.cast_mul, Nat.cast_mul, Nat.cast_mul, Nat.cast_mul, Nat.cast_pow, Nat.cast_pow,
    Nat.cast_ofNat] at exact_sum
  rw [overflowBound]
  -- The powers stay names, so that they are not computed.
  generalize (2 : ℚ) ^ 970 = step, (2 : ℚ) ^ 1024 = bound, (unitsPerOne : ℚ) = unit at exact_sum ⊢
  linarith

/-- A ratio is rounded to infinity from the bound on. -/
theorem rankCount_le_nearestRank_iff (num : Nat) {den : Nat} (positive : 0 < den) :
    rankCount ≤ nearestRank num den ↔ overflowBound ≤ num / (den * unitsPerOne) := by
  have last : rankCount - 1 < rankCount := by decide
  have odd : (rankCount - 1) % 2 = 1 := by decide
  have pieces : (0 : ℚ) < den * unitsPerOne := mul_pos (Nat.cast_pos.mpr positive) grid_pos
  have past : rankCount ≤ nearestRank num den ↔ rankCount - 1 < nearestRank num den := by omega
  have middle := overflowBound_eq
  rw [past, lt_nearestRank_iff num positive, le_div_iff₀ pieces]
  generalize units (rankCount - 1) + units (rankCount - 1 + 1) = sum at middle ⊢
  have scaled : overflowBound * (den * unitsPerOne) ≤ num ↔ (sum * den : ℚ) ≤ 2 * num := by
    rw [← middle]
    constructor <;> intro <;> linarith
  rw [scaled, and_iff_left odd, ← Nat.le_iff_lt_or_eq]
  exact_mod_cast Iff.rfl

/-! ### Rounding with a sign -/

/-- A value rounded to the nearest double. The sign is given, as a value that is rounded to zero keeps it, and
values far out become infinite. -/
inductive Rounded (value : ℚ) (negative : Bool) : Binary64 → Prop
  | inside {r : Binary64} (below : |value| < overflowBound) (nearest : IsNearestDouble value r)
    (sign : r.isNegative = negative) : Rounded value negative r
  | outside (above : overflowBound ≤ |value|) : Rounded value negative (infinite negative)

theorem abs_cast_signed (negative : Bool) (n : Nat) : |(signed negative n : ℚ)| = n := by
  cases negative <;> simp

/-- Every ratio is rounded so. -/
theorem nearest_rounded (negative : Bool) (num : Nat) {den : Nat} (positive : 0 < den) :
    Rounded (signed negative num / (den * unitsPerOne)) negative (nearest negative num den) := by
  have pieces : (0 : ℚ) < den * unitsPerOne := mul_pos (Nat.cast_pos.mpr positive) grid_pos
  have size : |(signed negative num / (den * unitsPerOne) : ℚ)| = num / (den * unitsPerOne) := by
    rw [abs_div, abs_cast_signed, abs_of_pos pieces]
  have overflow := rankCount_le_nearestRank_iff num positive
  rw [← size] at overflow
  by_cases bounded : nearestRank num den < rankCount
  · refine .inside (not_le.mp (mt overflow.mpr (Nat.not_le.mpr bounded)))
      (nearest_isNearestDouble negative num positive bounded) ?_
    rw [nearest, ofRank, dif_pos bounded]
    rfl
  · have infinity : nearest negative num den = infinite negative := by rw [nearest, ofRank, dif_neg bounded]
    rw [infinity]
    exact .outside (overflow.mp (Nat.le_of_not_lt bounded))

/-- Finite numbers in one place with one sign are the same. -/
theorem eq_of_place {x y : Binary64} (left : x.isFinite = true) (right : y.isFinite = true)
    (same : x.place = y.place) (sign : x.isNegative = y.isNegative) : x = y := by
  cases x with
  | nan | infinite => cases left
  | finite s m =>
  cases y with
  | nan | infinite => cases right
  | finite t n =>
  obtain rfl : s = t := sign
  obtain rfl : m = n := by
    have ranks := congrArg Int.natAbs same
    rwa [place, place, natAbs_signed, natAbs_signed] at ranks
  rfl

/-- The sign, which the values do not tell for zeros, makes the rounded number the only one. -/
theorem Rounded.unique {value : ℚ} {negative : Bool} {r other : Binary64} (rounded : Rounded value negative r)
    (rounded' : Rounded value negative other) : r = other := by
  cases rounded with
  | inside below nearest sign =>
    cases rounded' with
    | inside _ nearest' sign' =>
      exact eq_of_place nearest.finite nearest'.finite (nearest.unique nearest') (sign.trans sign'.symm)
    | outside above => exact absurd above (not_le.mpr below)
  | outside above =>
    cases rounded' with
    | inside below => exact absurd above (not_le.mpr below)
    | outside => rfl

/-! ### Quotients -/

/-- The rules for quotients. Signs multiply; a quotient without a value is not-a-number. -/
inductive IsQuotient : Binary64 → Binary64 → Binary64 → Prop
  | nanLeft (b : Binary64) : IsQuotient nan b nan
  | nanRight (a : Binary64) : IsQuotient a nan nan
  -- Neither of these has a value.
  | infinities (s t : Bool) : IsQuotient (infinite s) (infinite t) nan
  | zeros {a b : Binary64} (left : a.isZero = true) (right : b.isZero = true) : IsQuotient a b nan
  -- The others have one, and its sign is that of the product.
  | infiniteLeft (s : Bool) {b : Binary64} (right : b.isFinite = true) :
    IsQuotient (infinite s) b (infinite (s != b.isNegative))
  | infiniteRight {a : Binary64} (t : Bool) (left : a.isFinite = true) :
    IsQuotient a (infinite t) (zero (a.isNegative != t))
  | pole {a b : Binary64} (left : a.isFinite = true) (nonzero : a.isZero = false) (right : b.isZero = true) :
    IsQuotient a b (infinite (a.isNegative != b.isNegative))
  | rounded {a b q : Binary64} (left : a.isFinite = true) (right : b.isFinite = true) (nonzero : b.isZero = false)
    (rounded : Rounded (a.toRat / b.toRat) (a.isNegative != b.isNegative) q) : IsQuotient a b q

section

variable {s t : Bool} {m n : Nat} {inRange : m < rankCount} {inRange' : n < rankCount}

/-- Counted in grid units, the dividend is spread over the divisor. -/
theorem toRat_div_toRat (nonzero : n ≠ 0) : (finite s m inRange).toRat / (finite t n inRange').toRat =
    signed (s != t) (units m * unitsPerOne) / (units n * unitsPerOne) := by
  have unit := grid_pos.ne'
  have divisor : (units n : ℚ) ≠ 0 := Nat.cast_ne_zero.mpr (mt rank_eq_zero nonzero)
  rw [toRat_finite, toRat_finite]
  generalize unitsPerOne = perOne at unit
  cases s <;> cases t <;> simp <;> field_simp

/-- A quotient of finite numbers is the rounded quotient of their values. -/
theorem div_rounded (nonzero : n ≠ 0) :
    Rounded ((finite s m inRange).toRat / (finite t n inRange').toRat) (s != t)
      (div (finite s m inRange) (finite t n inRange')) := by
  have divisor : 0 < units n := Nat.pos_of_ne_zero (mt rank_eq_zero nonzero)
  have rounded := nearest_rounded (s != t) (units m * unitsPerOne) divisor
  rw [toRat_div_toRat nonzero]
  simpa only [div, if_neg nonzero] using rounded

end

theorem IsQuotient.eq_div {a b q : Binary64} (quotient : IsQuotient a b q) : q = div a b := by
  cases quotient with
  | nanLeft => rfl
  | nanRight => cases a <;> rfl
  | infinities => rfl
  | infiniteLeft s right =>
    cases b with
    | nan | infinite => cases right
    | finite => rfl
  | infiniteRight t left =>
    cases a with
    | nan | infinite => cases left
    | finite => rfl
  | zeros left right =>
    cases a with
    | nan | infinite => cases left
    | finite =>
    cases b with
    | nan | infinite => cases right
    | finite => simp [div, isZero_finite.mp left, isZero_finite.mp right]
  | pole left nonzero right =>
    cases a with
    | nan | infinite => cases left
    | finite s m =>
    cases b with
    | nan | infinite => cases right
    | finite =>
      have dividend : m ≠ 0 := by simpa [isZero] using nonzero
      simp [div, dividend, isZero_finite.mp right, isNegative]
  | rounded left right nonzero rounded =>
    cases a with
    | nan | infinite => cases left
    | finite =>
    cases b with
    | nan | infinite => cases right
    | finite => exact rounded.unique (div_rounded (by simpa [isZero] using nonzero))

/-- There is a rule for every dividend and every divisor. -/
theorem exists_isQuotient (a b : Binary64) : ∃ q, IsQuotient a b q := by
  cases a with
  | nan => exact ⟨_, .nanLeft b⟩
  | infinite s =>
    cases b with
    | nan => exact ⟨_, .nanRight _⟩
    | infinite t => exact ⟨_, .infinities s t⟩
    | finite t n => exact ⟨_, .infiniteLeft s rfl⟩
  | finite s m inRange =>
    cases b with
    | nan => exact ⟨_, .nanRight _⟩
    | infinite t => exact ⟨_, .infiniteRight t rfl⟩
    | finite t n inRange' =>
      by_cases divisor : n = 0
      · by_cases dividend : m = 0
        · exact ⟨_, .zeros (isZero_finite.mpr dividend) (isZero_finite.mpr divisor)⟩
        · exact ⟨_, .pole rfl (by simpa [isZero] using dividend) (isZero_finite.mpr divisor)⟩
      · exact ⟨_, .rounded rfl rfl (by simpa [isZero] using divisor) (div_rounded divisor)⟩

/-- The quotient is what the rules say, and nothing else is. -/
theorem isQuotient_iff (a b q : Binary64) : IsQuotient a b q ↔ q = div a b := by
  refine ⟨IsQuotient.eq_div, ?_⟩
  rintro rfl
  obtain ⟨q, quotient⟩ := exists_isQuotient a b
  rwa [← quotient.eq_div]

end Binary64

end Reckoner
