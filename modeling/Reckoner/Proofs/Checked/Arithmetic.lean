import Reckoner.Proofs.Binary64.Powers
import Reckoner.Proofs.Binary64.Quotient
import Reckoner.Proofs.Checked.Reading

/-!
# Arithmetic that recovers

A division that refuses zeros is done for all other divisors, and for zeros the signs decide. The power of a function
that refuses zeros and negative numbers where they have no real power, and numbers whose power is too large, is
recovered from the signs of the operands and the parity of the exponent. The parity is found by a division that
leaves a remainder from zero to two, for negative exponents as well.

* `divide_eq`, a quotient by zero is recovered.
* `hasOddWhole_eq`, the remainder finds the odd exponents.
* `divide_recoverPower`, quotients and powers are always there, and are what the rules say.
-/

namespace Reckoner

/-! ### Parity by remainder -/

namespace Binary64

def two : Binary64 := ofRank false (rankOfOne + binade)

/-- The remainder of a division by two. A negative remainder is moved up, a zero one has no sign. -/
def remainderByTwo : Binary64 → Binary64
  | finite negative rank _ =>
    let rest := nearest negative (units rank % (2 * unitsPerOne)) 1
    if rest.isZero then zero false
    else if rest.isNegative then add rest two
    else rest
  | _ => nan

theorem add_two_of_minus_one : add (ofRank true rankOfOne) two = one := by decide +kernel

/-- The remainder of a whole number is zero or one. -/
theorem remainderByTwo_of_whole {negative : Bool} {rank : Nat} {inRange : rank < rankCount}
    (whole : units rank % unitsPerOne = 0) :
    remainderByTwo (finite negative rank inRange) =
      if units rank / unitsPerOne % 2 = 1 then one else zero false := by
  have split : units rank % (2 * unitsPerOne) = unitsPerOne * (units rank / unitsPerOne % 2) := by
    rw [Nat.mul_comm 2, Nat.mod_mul, whole, Nat.zero_add]
  have rounded (parity : Nat) : nearest negative (unitsPerOne * parity) 1 =
      ofRank negative (nearestRank (unitsPerOne * parity) 1) := rfl
  -- Zero and one are doubles, so rounding keeps them.
  rw [remainderByTwo, split]
  rcases Nat.mod_two_eq_zero_or_one (units rank / unitsPerOne) with even | odd
  · rw [even, rounded, Nat.mul_zero, nearestRank_zero]
    rfl
  · have unit : nearestRank (unitsPerOne * 1) 1 = rankOfOne := by
      rw [← units_one]
      exact nearestRank_units rankOfOne Nat.one_pos
    rw [odd, rounded, unit]
    cases negative with
    | false => rfl
    | true =>
      have nonzero : (ofRank true rankOfOne).isZero = false := by decide
      have below : (ofRank true rankOfOne).isNegative = true := by decide
      simp only [nonzero, below, if_true, Bool.false_eq_true, if_false, add_two_of_minus_one]

end Binary64

namespace Checked

open Binary64

/-! ### Quotients with refusals -/

/-- The quotient by a divisor that is not zero. -/
def quotient (a b : Binary64) : Checked Binary64 :=
  if b.isZero then throw (.breakdown ⟨.zeroDivisor, "float division by zero"⟩) else return a.div b

def divide (a b : Binary64) : Checked Binary64 :=
  if b.isZero then
    if a.isZero || a = nan then return nan
    else return mul (withSign a.isNegative (infinite false)) (withSign b.isNegative one)
  else quotient a b

theorem divide_eq (a b : Binary64) : divide a b = .ok (a.div b) := by
  cases zero : b.isZero with
  | false => simp [divide, quotient, zero]
  | true =>
    rw [divide, if_pos zero]
    cases b with
    | nan | infinite => cases zero
    | finite t n k =>
      have none : n = 0 := by simpa [isZero] using zero
      subst none
      -- The divisor is a zero: its sign decides, unless the dividend is a zero as well.
      cases a with
      | nan => rfl
      | infinite s => rfl
      | finite s m h =>
        by_cases none : m = 0
        · simp [div, isZero, none]
        · simp [div, isZero, none]
          rfl

/-! ### Powers with refusals -/

def isBelowZero (a : Binary64) : Bool := a.isNegative && !a.isZero

/-- The test for an odd exponent. -/
def hasOddWhole (b : Binary64) : Bool := b.isFinite && b.isInteger && (remainderByTwo b).sameValue one

theorem hasOddWhole_eq (b : Binary64) : hasOddWhole b = b.isOddInteger := by
  cases b with
  | nan | infinite => rfl
  | finite negative rank inRange =>
    by_cases whole : units rank % unitsPerOne = 0
    · rw [hasOddWhole, remainderByTwo_of_whole whole]
      by_cases odd : units rank / unitsPerOne % 2 = 1
      · have same : one.sameValue one = true := by decide
        simp [isFinite, isInteger, isOddInteger, whole, odd, same]
      · have apart : (zero false).sameValue one = false := by decide
        simp [isFinite, isInteger, isOddInteger, whole, odd, apart]
    · have fraction : (units rank % unitsPerOne == 0) = false := beq_eq_false_iff_ne.mpr whole
      simp [hasOddWhole, isInteger, isOddInteger, fraction]

def isInfinite : Binary64 → Bool
  | infinite _ => true
  | _ => false

/-- The power that refuses what has no real value, and infinite powers of finite numbers. -/
def strictPower (a b : Binary64) : Checked Binary64 :=
  let finites := a.isFinite && b.isFinite
  if finites && (a.isZero && isBelowZero b || isBelowZero a && !b.isInteger) then
    throw (.breakdown ⟨.domain, "math domain error"⟩)
  else if finites && !a.isZero && isInfinite (pow a b) then throw (.breakdown ⟨.range, "math range error"⟩)
  else return pow a b

/-- The power that recovers from refusals, with the parity of the exponent found by division. -/
def recoverPower (a b : Binary64) : Checked Binary64 :=
  let odd := hasOddWhole b
  match strictPower a b with
  | .error (.breakdown ⟨.range, _⟩) => if isBelowZero a && odd then return infinite true else return infinite false
  | .error (.breakdown ⟨.domain, _⟩) =>
    if a.isZero then
      if isBelowZero (withSign a.isNegative one) && odd then return infinite true else return infinite false
    else return nan
  | outcome => outcome

theorem isBelowZero_iff {x : Binary64} : isBelowZero x = true ↔ x.IsBelowZero := by
  simp [isBelowZero, IsBelowZero]

/-- Where there is no real power, it is infinite or not-a-number. -/
theorem pow_of_domain {a b : Binary64} (base : a.isFinite = true) (exponent : b.isFinite = true)
    (outside : (a.isZero && isBelowZero b || isBelowZero a && !b.isInteger) = true) :
    pow a b = if a.isZero then infinite (a.isNegative && b.isOddInteger) else nan := by
  simp only [Bool.or_eq_true, Bool.and_eq_true, Bool.not_eq_true', isBelowZero_iff] at outside
  rcases outside with ⟨nothing, down⟩ | ⟨below, fraction⟩
  · rw [pow_zero_base nothing down.2 down.ne_nan (powerSign_iff.mpr rfl), if_pos down.1, if_pos nothing]
  · rw [pow_eq_nan base below exponent fraction, below.2, if_neg Bool.false_ne_true]

/-- What is refused has a power that the signs and the parity tell. -/
theorem strictPower_cases (a b : Binary64) :
    strictPower a b = .error (.breakdown ⟨.domain, "math domain error"⟩) ∧
        pow a b = (if a.isZero then infinite (a.isNegative && b.isOddInteger) else nan) ∨
      strictPower a b = .error (.breakdown ⟨.range, "math range error"⟩) ∧
        pow a b = infinite (isBelowZero a && b.isOddInteger) ∨
      strictPower a b = .ok (pow a b) := by
  rw [strictPower]
  by_cases finites : (a.isFinite && b.isFinite) = true
  · obtain ⟨base, exponent⟩ := Bool.and_eq_true_iff.mp finites
    -- The domain is looked at first: at a pole the power is infinite as well.
    by_cases outside : (a.isZero && isBelowZero b || isBelowZero a && !b.isInteger) = true
    · exact .inl ⟨by simp [finites, outside], pow_of_domain base exponent outside⟩
    · rw [Bool.not_eq_true] at outside
      by_cases large : (!a.isZero && isInfinite (pow a b)) = true
      · refine .inr (.inl ⟨by simp [finites, outside, large], ?_⟩)
        rw [Bool.and_eq_true, Bool.not_eq_true'] at large
        obtain ⟨nonzero, infinity⟩ := large
        cases power : pow a b with
        | nan | finite =>
          rw [power] at infinity
          cases infinity
        | infinite negative =>
          rw [powerSign_iff.mp (.of_infinite power)]
          simp [isBelowZero, nonzero]
      · exact .inr (.inr (by simp [finites, outside, large]))
  · exact .inr (.inr (by simp [finites]))

/-- What the refusing function loses is recovered. -/
theorem recoverPower_eq (a b : Binary64) : recoverPower a b = .ok (pow a b) := by
  have choice (sign : Bool) :
      (if sign then return infinite true else return infinite false : Checked Binary64) = .ok (infinite sign) := by
    cases sign <;> rfl
  rw [recoverPower, hasOddWhole_eq]
  rcases strictPower_cases a b with ⟨refused, power⟩ | ⟨refused, power⟩ | kept
  · -- The sign of a zero is read off a one that is given it.
    have turned : isBelowZero (withSign a.isNegative one) = a.isNegative := by cases a.isNegative <;> decide
    rw [refused, power, turned]
    simp only [choice]
    split_ifs <;> rfl
  · rw [refused, power]
    exact choice _
  · rw [kept]

/-- Quotients and powers are always there, and are what the rules say. An infinite power is negative only for a
negative base and an odd exponent. -/
theorem divide_recoverPower (a b : Binary64) :
    divide a b = .ok (Operation.div.apply a b) ∧
      (∀ q, IsQuotient a b q ↔ q = Operation.div.apply a b) ∧
      recoverPower a b = .ok (Operation.pow.apply a b) ∧
      (∀ p, IsPower a b p ↔ p = Operation.pow.apply a b) ∧
      ∀ negative, Operation.pow.apply a b = infinite negative →
        (negative = true ↔ a.isNegative = true ∧ b.IsOdd) :=
  ⟨divide_eq a b, isQuotient_iff a b, recoverPower_eq a b, isPower_iff a b, fun _ => PowerSign.of_infinite⟩

/-- At the pole, an odd power of minus zero is minus infinity. -/
theorem divide_recoverPower_pole :
    recoverPower (zero true) (-one) = .ok (infinite true) ∧ (zero true).isNegative = true ∧ (-one).IsOdd := by
  obtain ⟨-, -, recovered, -, sign⟩ := divide_recoverPower (zero true) (-one)
  have pole : Operation.pow.apply (zero true) (-one) = infinite true := by decide +kernel
  exact ⟨recovered.trans (congrArg _ pole), (sign true pole).mp rfl⟩

end Checked

end Reckoner
