import Mathlib.Data.List.TakeWhile
import Reckoner.Decimal.Layout
import Reckoner.Proofs.Decimal.Digits
import Reckoner.Proofs.Decimal.Shortest

/-!
# Doubles as text

However the digits of a decimal are laid out, what is written is a numeral of that value. So a double is read
back from its text.

Main results: `Layout.write_spelled`, `Binary64.read?_toChars`.
-/

namespace Reckoner

/-! ### Significant digits -/

namespace Decimal

/-- The digits of the coefficient are the significant ones and zeros. -/
theorem significantDigits_zeros (d : Decimal) :
    ∃ zeros, decimalDigits d.coefficient = d.significantDigits ++ List.replicate zeros '0' := by
  let last := (decimalDigits d.coefficient).reverse.takeWhile (· == '0')
  refine ⟨last.length, ?_⟩
  have zeros : last.reverse = List.replicate last.length '0' := by
    refine List.eq_replicate_iff.mpr ⟨List.length_reverse, fun c member => ?_⟩
    simpa using List.mem_takeWhile_imp (List.mem_reverse.mp member)
  calc decimalDigits d.coefficient
      = (last ++ (decimalDigits d.coefficient).reverse.dropWhile (· == '0')).reverse := by
        rw [List.takeWhile_append_dropWhile, List.reverse_reverse]
    _ = d.significantDigits ++ last.reverse := List.reverse_append
    _ = d.significantDigits ++ List.replicate last.length '0' := by rw [zeros]

variable {d : Decimal}

theorem significantDigits_ne_nil (nonzero : d.coefficient ≠ 0) : d.significantDigits ≠ [] := by
  obtain ⟨zeros, split⟩ := d.significantDigits_zeros
  intro none
  apply nonzero
  rw [← digitsValue_decimalDigits d.coefficient, split, none, List.nil_append, digitsValue_zeros]

theorem isDigits_significantDigits (d : Decimal) : IsDigits d.significantDigits := by
  obtain ⟨zeros, split⟩ := d.significantDigits_zeros
  intro c member
  exact isDigits_decimalDigits d.coefficient c (split ▸ List.mem_append_left _ member)

theorem significantDigits_head (nonzero : d.coefficient ≠ 0) : d.significantDigits.head? ≠ some '0' := by
  obtain ⟨zeros, split⟩ := d.significantDigits_zeros
  have head := decimalDigits_head nonzero
  cases digits : d.significantDigits with
  | nil => exact absurd digits (significantDigits_ne_nil nonzero)
  | cons c rest => simpa [split, digits] using head

/-- The significant digits and the place of the point hold the value. -/
theorem rank_significantDigits (d : Decimal) :
    d.rank = rank ⟨digitsValue d.significantDigits, d.pointPosition - d.significantDigits.length⟩ := by
  obtain ⟨zeros, split⟩ := d.significantDigits_zeros
  have count : digitCount d.coefficient = d.significantDigits.length + zeros := by
    simp [digitCount, split]
  have value : d.coefficient = digitsValue d.significantDigits * 10 ^ zeros := by
    rw [← digitsValue_append_zeros, ← split, digitsValue_decimalDigits]
  have place : d.pointPosition - d.significantDigits.length = d.exponent + zeros := by
    rw [pointPosition, count]
    omega
  calc d.rank
      = rank ⟨digitsValue d.significantDigits * 10 ^ zeros, d.exponent⟩ := by rw [← value]
    _ = rank ⟨digitsValue d.significantDigits, d.exponent + zeros⟩ := rank_shift _ _ _
    _ = _ := by rw [place]

end Decimal

/-! ### Digits in their layout -/

/-- The text is a numeral, no whole number, worth the digits with the point in that place. -/
structure LaidOut (numeral : Numeral) (text digits : List Char) (point : Int) : Prop where
  spelled : numeral.Spelled text
  notWhole : numeral.isWhole = false
  rank : numeral.toDecimal.rank = Decimal.rank ⟨digitsValue digits, point - digits.length⟩

section

variable {digits : List Char} (nonempty : digits ≠ []) (all : IsDigits digits)
  (head : digits.head? ≠ some '0')
include nonempty all head

/-- Digits without a zero in front of them may start a numeral, also with more digits behind. -/
theorem isWhole_append {more : List Char} (digitsBehind : IsDigits more) : IsWhole (digits ++ more) where
  nonempty := List.append_ne_nil_of_left_ne_nil nonempty more
  all := all.append digitsBehind
  alone first := by
    cases digits with
    | nil => exact absurd rfl nonempty
    | cons c rest => exact absurd first head

theorem isWhole_take (count : Nat) (positive : 0 < count) : IsWhole (digits.take count) := by
  cases digits with
  | nil => exact absurd rfl nonempty
  | cons c rest =>
    obtain ⟨count, rfl⟩ := Nat.exists_eq_succ_of_ne_zero (Nat.ne_of_gt positive)
    exact ⟨List.cons_ne_nil _ _, fun d member => all d (List.mem_of_mem_take member),
      fun first => absurd first head⟩

theorem positional_laidOut (point : Int) :
    ∃ numeral, LaidOut numeral (positional digits point) digits point := by
  unfold positional
  split
  · next left =>
    -- All digits stand behind the point, and zeros before them.
    have zero : IsWhole ['0'] := ⟨by decide, isDigits_zeros 1, fun _ => rfl⟩
    have behind : IsDigits (List.replicate (-point).toNat '0' ++ digits) := (isDigits_zeros _).append all
    refine ⟨_, .point zero (List.append_ne_nil_of_right_ne_nil _ nonempty) behind, rfl, ?_⟩
    have value : digitsValue (['0'] ++ (List.replicate (-point).toNat '0' ++ digits)) = digitsValue digits := by
      exact (digitsValue_zeros_append 1 _).trans (digitsValue_zeros_append _ digits)
    have place : (0 : Int) - (List.replicate (-point).toNat '0' ++ digits).length = point - digits.length := by
      simp only [List.length_append, List.length_replicate]
      omega
    simp only [Numeral.toDecimal, Option.getD_some, Option.getD_none, value, place]
  · next right =>
    simp only
    split
    · next short =>
      -- All digits stand before the point, and zeros behind them.
      let zeros := point.toNat - digits.length
      have whole := isWhole_append nonempty all head (isDigits_zeros zeros)
      have split : digits ++ List.replicate zeros '0' ++ ['0'] = digits ++ List.replicate (zeros + 1) '0' := by
        rw [List.append_assoc, List.replicate_succ']
      have place : (0 : Int) - (1 : Nat) + (zeros + 1 : Nat) = point - digits.length := by omega
      refine ⟨_, .point whole (by decide) (isDigits_zeros 1), rfl, ?_⟩
      show Decimal.rank ⟨digitsValue (digits ++ List.replicate zeros '0' ++ ['0']), 0 - (1 : Nat)⟩ = _
      rw [split, digitsValue_append_zeros, Decimal.rank_shift, place]
    · next long =>
      -- The point stands between the digits.
      have whole := isWhole_take nonempty all head point.toNat (by omega)
      have behind : digits.drop point.toNat ≠ [] := mt List.drop_eq_nil_iff.mp long
      have place : (0 : Int) - (digits.drop point.toNat).length = point - digits.length := by
        rw [List.length_drop]
        omega
      refine ⟨_, .point whole behind fun c member => all c (List.mem_of_mem_drop member), rfl, ?_⟩
      simp only [Numeral.toDecimal, Option.getD_some, Option.getD_none, List.take_append_drop, place]

theorem scientific_laidOut (width : Nat) (exponent : Int) :
    ∃ numeral, LaidOut numeral (scientific width digits exponent) digits (exponent + 1) := by
  let fraction := if digits.length ≤ 1 then none else some (digits.drop 1)
  have whole := isWhole_take nonempty all head 1 (by decide)
  have middle : Numeral.FractionSpelled fraction (if digits.length ≤ 1 then [] else '.' :: digits.drop 1) := by
    unfold fraction
    split
    · exact .absent
    · next long =>
      exact .present (mt List.drop_eq_nil_iff.mp long) fun c member => all c (List.mem_of_mem_drop member)
  let power := padLeft width (decimalDigits exponent.natAbs)
  have back : Numeral.ExponentSpelled (some exponent) ('e' :: (if exponent < 0 then '-' else '+') :: power) := by
    have nonempty : power ≠ [] := List.append_ne_nil_of_right_ne_nil _ Nat.toDigits_ne_nil
    have powerDigits : IsDigits power := (isDigits_zeros _).append (isDigits_decimalDigits _)
    have value : digitsValue power = exponent.natAbs :=
      (digitsValue_zeros_append _ _).trans (digitsValue_decimalDigits _)
    simpa only [value, signed_natAbs, decide_eq_true_eq] using
      Numeral.ExponentSpelled.present (exponent < 0) nonempty powerDigits
  -- A single digit has no fraction.
  have parts : digits.take 1 ++ fraction.getD [] = digits := by
    unfold fraction
    split
    · next short => rw [Option.getD_none, List.append_nil, List.take_of_length_le short]
    · exact List.take_append_drop 1 digits
  have place : exponent - (fraction.getD []).length = exponent + 1 - digits.length := by
    have one : 0 < digits.length := List.length_pos_iff.mpr nonempty
    have length := congrArg List.length parts
    rw [List.length_append, List.length_take] at length
    omega
  refine ⟨⟨digits.take 1, fraction, some exponent⟩, ?_, ?_, ?_⟩
  · simpa [scientific] using Numeral.Spelled.parts whole middle back
  · simp [Numeral.isWhole]
  · simp only [Numeral.toDecimal, parts, Option.getD_some, place]

end

/-- A decimal is written as a numeral of its value. -/
theorem Layout.write_spelled (layout : Layout) {d : Decimal} (nonzero : d.coefficient ≠ 0) :
    ∃ numeral : Numeral, numeral.Spelled (layout.write d) ∧ numeral.isWhole = false ∧
      numeral.toDecimal.rank = d.rank := by
  have nonempty := Decimal.significantDigits_ne_nil nonzero
  have all := d.isDigits_significantDigits
  have head := Decimal.significantDigits_head nonzero
  rw [d.rank_significantDigits, write]
  split
  · obtain ⟨numeral, spelled, notWhole, rank⟩ := positional_laidOut nonempty all head d.pointPosition
    exact ⟨numeral, spelled, notWhole, rank⟩
  · obtain ⟨numeral, spelled, notWhole, rank⟩ :=
      scientific_laidOut nonempty all head layout.exponentWidth (d.pointPosition - 1)
    exact ⟨numeral, spelled, notWhole, by rw [rank, Int.sub_add_cancel]⟩

/-! ### Doubles -/

namespace Binary64

/-- The text of a finite double without its sign is a numeral that is rounded to it. -/
theorem finite_spelled {rank : Nat} (inRange : rank < rankCount) :
    ∃ numeral : Numeral,
      numeral.Spelled (if rank = 0 then ['0', '.', '0'] else Layout.standard.write (shortest rank)) ∧
        numeral.isWhole = false ∧
        ∀ negative, numeral.toDecimal.toBinary64 negative = .finite negative rank inRange := by
  by_cases zero : rank = 0
  · subst zero
    have digit : IsWhole ['0'] := ⟨by decide, isDigits_zeros 1, fun _ => rfl⟩
    rw [if_pos rfl]
    exact ⟨_, .point digit (by decide) (isDigits_zeros 1), rfl, fun negative => rfl⟩
  · obtain ⟨numeral, spelled, notWhole, value⟩ :=
      Layout.standard.write_spelled (coefficient_shortest_ne_zero zero)
    rw [if_neg zero]
    refine ⟨numeral, spelled, notWhole, fun negative => ?_⟩
    rw [Decimal.toBinary64_eq, value, ← Decimal.toBinary64_eq, toBinary64_shortest]

theorem readMagnitude?_spelled {numeral : Numeral} {text : List Char} (spelled : numeral.Spelled text)
    (negative : Bool) : readMagnitude? negative text = some (numeral.toDecimal.toBinary64 negative) := by
  obtain ⟨c, rest, rfl, digit⟩ := spelled.starts
  have other : c ≠ 'i' := ne_of_isDigit digit rfl
  have scanned := spelled.scan? endsNumeral_nil
  rw [List.append_nil] at scanned
  simp [readMagnitude?, other, scanned]

/-- A numeral with its sign is read as the double nearest to its value. -/
theorem read?_spelled {numeral : Numeral} {text : List Char} (spelled : numeral.Spelled text)
    (negative : Bool) :
    read? (minusSign negative ++ text) = some (numeral.toDecimal.toBinary64 negative) := by
  have read := readMagnitude?_spelled spelled negative
  cases negative with
  | true => exact read
  | false =>
    -- A digit is neither a sign nor a letter.
    obtain ⟨c, rest, rfl, digit⟩ := spelled.starts
    simp only [minusSign, Bool.false_eq_true, if_false, List.nil_append]
    unfold read?
    split
    · next same => exact absurd (List.cons.inj same).1 (ne_of_isDigit digit rfl)
    · next same => exact absurd (List.cons.inj same).1 (ne_of_isDigit digit rfl)
    · exact read

/-- Every double is read back from its text. -/
theorem read?_toChars (x : Binary64) : read? x.toChars = some x := by
  cases x with
  | nan => rfl
  | infinite negative => cases negative <;> rfl
  | finite negative rank inRange =>
    obtain ⟨numeral, spelled, -, value⟩ := finite_spelled inRange
    rw [toChars, read?_spelled spelled negative, value]

end Binary64

end Reckoner
