import Reckoner.Binary64.Basic

/-!
# Rounding to the nearest double

A ratio of natural numbers is rounded to the nearest number, a tie to the one of even rank.
-/

namespace Reckoner

/-- The whole number nearest to a ratio, a half to the even neighbour. -/
def divRoundEven (num den : Nat) : Nat :=
  let whole := num / den
  let twice := 2 * (num % den)
  if twice < den then whole
  else if den < twice then whole + 1
  else if whole % 2 = 0 then whole else whole + 1

/-- A whole ratio is kept. -/
theorem divRoundEven_mul (n : Nat) {den : Nat} (h : 0 < den) : divRoundEven (n * den) den = n := by
  simp [divRoundEven, Nat.mul_div_cancel _ h, h]

/-- The rounded ratio is at most half away from the ratio. -/
theorem divRoundEven_near (num : Nat) {den : Nat} (h : 0 < den) :
    2 * num ≤ 2 * (divRoundEven num den * den) + den ∧
      2 * (divRoundEven num den * den) ≤ 2 * num + den := by
  have hsplit := Nat.div_add_mod num den
  have hmod := Nat.mod_lt num h
  rw [Nat.mul_comm] at hsplit
  unfold divRoundEven
  simp only
  split
  · omega
  · split
    · rw [Nat.add_mul]; omega
    · split
      · omega
      · rw [Nat.add_mul]; omega

namespace Binary64

/-- The rank of the magnitude nearest to `num / den` grid units: the ratio is rounded to 53 bits,
and a carry out of them leads to the next step of the grid by itself. -/
def nearestRank (num den : Nat) : Nat :=
  let step := (num / den).log2 - 52
  step * binade + divRoundEven num (den * Nat.pow 2 step)

/-- The number nearest to `num / den` grid units. -/
def nearest (negative : Bool) (num den : Nat) : Binary64 :=
  ofRank negative (nearestRank num den)

end Binary64

end Reckoner
