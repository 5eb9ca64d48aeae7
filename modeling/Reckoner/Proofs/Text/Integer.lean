import Reckoner.Proofs.Decimal.Digits
import Reckoner.Text.Integer

/-!
# Typed integers are short

An integer that is read from a text has no more digits than are taken, so it can be written and read again.

Main result: `Text.readInteger_short`.
-/

namespace Reckoner.Text

/-- Grouped digits are digits, and there is one at least. -/
theorem groupedDigits?_digits {text : List Char} {digits : List Nat} (read : groupedDigits? text = some digits) :
    digits ≠ [] ∧ ∀ digit ∈ digits, digit < 10 := by
  fun_induction groupedDigits? text generalizing digits with
  | case1 => cases read
  | case2 c =>
    obtain ⟨digit, known, rfl⟩ := Option.map_eq_some_iff.mp read
    simpa using digitOf?_lt known
  | case3 c rest ih =>
    obtain ⟨digit, known, others, read, same⟩ := by simpa [Option.bind_eq_some_iff] using read
    rw [← same]
    exact ⟨by simp, List.forall_mem_cons.mpr ⟨digitOf?_lt known, (ih read).2⟩⟩
  | case4 c rest single separated ih =>
    obtain ⟨digit, known, others, read, same⟩ := by simpa [Option.bind_eq_some_iff] using read
    rw [← same]
    exact ⟨by simp, List.forall_mem_cons.mpr ⟨digitOf?_lt known, (ih read).2⟩⟩

theorem foldl_digits_lt {digits : List Nat} (small : ∀ digit ∈ digits, digit < 10) (start : Nat) :
    digits.foldl (fun value digit => 10 * value + digit) start < (start + 1) * 10 ^ digits.length := by
  induction digits generalizing start with
  | nil => simp
  | cons digit rest ih =>
    obtain ⟨here, later⟩ := List.forall_mem_cons.mp small
    calc rest.foldl (fun value digit => 10 * value + digit) (10 * start + digit)
      _ < (10 * start + digit + 1) * 10 ^ rest.length := ih later _
      _ ≤ (start + 1) * 10 * 10 ^ rest.length := Nat.mul_le_mul_right _ (by omega)
      _ = (start + 1) * 10 ^ (digit :: rest).length := by
        rw [List.length_cons, Nat.pow_succ, Nat.mul_assoc, Nat.mul_comm 10]

/-- An integer that is read has no more digits than are taken. -/
theorem readInteger_short {text : String} {n : Int} (read : readInteger text = .ok n) :
    digitCount n.natAbs ≤ digitLimit := by
  unfold readInteger at read
  generalize takeSign (text.toList.dropWhile isPadding) = signed at read
  obtain ⟨negative, rest⟩ := signed
  simp only at read
  cases grouped : groupedDigits? (rest.takeWhile isIntegerChar) with
  | none =>
    rw [grouped] at read
    cases read
  | some digits =>
    obtain ⟨nonempty, small⟩ := groupedDigits?_digits grouped
    rw [grouped] at read
    simp only at read
    split at read
    · cases read
    next few =>
      split at read
      · cases read
      next =>
        have size : n.natAbs = digits.foldl (fun value digit => 10 * value + digit) 0 := by
          cases read
          cases negative <;> simp
        have bound := foldl_digits_lt small 0
        rw [Nat.zero_add, Nat.one_mul] at bound
        have count : digitCount n.natAbs ≤ digits.length := by
          rw [size]
          exact (Nat.length_toDigits_le_iff (by decide) (List.length_pos_iff.mpr nonempty)).mpr bound
        omega

end Reckoner.Text
