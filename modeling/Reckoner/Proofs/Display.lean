import Reckoner.Display
import Reckoner.Proofs.Binary64.Exact
import Reckoner.Proofs.Decimal.Places
import Reckoner.Proofs.Decimal.Written

/-!
# Reading a shown result

A shown number stands for the number it was shown for: a whole number below the bound is an integer numeral,
any other one has its shortest digits, and both are read back. A result is marked as rounded exactly if what
is shown is another number than the result.

* `read?_shown`, a shown number reads back, except for the sign of a zero.
* `displayed_of_exact`, `rounded_cases`, what the mark says.
-/

namespace Reckoner

namespace Binary64

/-! ### Equal values -/

theorem sameValue_refl {x : Binary64} (finite : x.isFinite = true) : x.sameValue x = true := by
  cases x with
  | nan | infinite => cases finite
  | finite => simp [sameValue]

/-- Two numbers of the same value are the same number, or both are zero. -/
theorem eq_or_isZero_of_sameValue {x y : Binary64} (same : x.sameValue y = true) :
    x = y ∨ x.isZero = true ∧ y.isZero = true := by
  unfold sameValue at same
  split at same
  · simp only [beq_iff_eq] at same
    exact .inl (congrArg infinite same)
  · simp only [Bool.and_eq_true, Bool.or_eq_true, beq_iff_eq] at same
    obtain ⟨rfl, rfl | rfl⟩ := same
    · exact .inl rfl
    · exact .inr ⟨rfl, rfl⟩
  · cases same

theorem sameValue_of_isZero {x y : Binary64} (first : x.isZero = true) (second : y.isZero = true) :
    x.sameValue y = true := by
  cases x with
  | nan | infinite => cases first
  | finite =>
    cases y with
    | nan | infinite => cases second
    | finite => simp_all [isZero, sameValue]

/-- Two numbers of the value of a third have the same value. -/
theorem sameValue_join {x y z : Binary64} (left : x.sameValue y = true) (right : x.sameValue z = true) :
    y.sameValue z = true := by
  rcases eq_or_isZero_of_sameValue left with rfl | ⟨zero, zeroLeft⟩
  · exact right
  rcases eq_or_isZero_of_sameValue right with rfl | ⟨-, zeroRight⟩
  · exact sameValue_of_isZero zeroLeft zero
  · exact sameValue_of_isZero zeroLeft zeroRight

/-! ### Whole numbers -/

theorem toList_toString_int (n : Int) :
    (toString n).toList = minusSign (n < 0) ++ decimalDigits n.natAbs := by
  cases n with
  | ofNat n =>
    have positive : ¬ Int.ofNat n < 0 := Int.not_lt.mpr (Int.natCast_nonneg n)
    simp only [positive, decide_false, minusSign]
    exact String.toList_ofList
  | negSucc n =>
    have negative : Int.negSucc n < 0 := Int.negSucc_lt_zero n
    simp only [negative, decide_true, minusSign, if_true]
    exact String.toList_append.trans (congrArg _ String.toList_ofList)

/-- An integer numeral is read as the double nearest to the integer. -/
theorem read?_integer (n : Int) :
    read? (toString n).toList = some (Decimal.toBinary64 (n < 0) ⟨n.natAbs, 0⟩) := by
  have spelled := Numeral.Spelled.digits (isWhole_decimalDigits n.natAbs)
  have value : Numeral.toDecimal ⟨decimalDigits n.natAbs, none, none⟩ = ⟨n.natAbs, 0⟩ := by
    simp [Numeral.toDecimal]
  rw [toList_toString_int, read?_spelled spelled, value]

/-- A whole magnitude is its whole part. -/
theorem toBinary64_wholePart {rank : Nat} (negative : Bool) (inRange : rank < rankCount)
    (whole : units rank % unitsPerOne = 0) :
    Decimal.toBinary64 negative ⟨wholePart rank, 0⟩ = .finite negative rank inRange := by
  have exact_parts : wholePart rank * unitsPerOne = units rank :=
    Nat.div_mul_cancel (Nat.dvd_of_mod_eq_zero whole)
  have same : Decimal.rank ⟨wholePart rank, 0⟩ = rank := by
    have ratio : (⟨wholePart rank, 0⟩ : Decimal).ratio = (wholePart rank, 1) := by simp [Decimal.ratio]
    rw [Decimal.rank, ratio]
    simp only [exact_parts]
    simpa using nearestRank_units rank Nat.one_pos
  rw [Decimal.toBinary64_eq, same]
  exact dif_pos inRange

/-! ### What is shown reads back -/

theorem shown_of_fraction {x : Binary64} (finite : x.isFinite = true) (fraction : x.isInteger = false) :
    x.shown = x.text := by
  cases x with
  | nan | infinite => cases finite
  | finite negative rank inRange => simp [shown, fraction]

theorem read?_text (x : Binary64) : read? x.text.toList = some x := by
  rw [text, String.toList_ofList, read?_toChars]

/-- A shown number reads back as the number; only a zero loses its sign. -/
theorem read?_shown {x : Binary64} (finite : x.isFinite = true) :
    ∃ y, read? x.shown.toList = some y ∧ y.sameValue x = true := by
  cases x with
  | nan | infinite => cases finite
  | finite negative rank inRange =>
    rw [shown]
    split
    · next whole =>
      simp only [isInteger, Bool.and_eq_true, beq_iff_eq] at whole
      have value := toBinary64_wholePart (signed negative (wholePart rank) < 0) inRange whole.1
      refine ⟨_, read?_integer _, ?_⟩
      rw [natAbs_signed, value]
      -- The sign is lost only if there is nothing behind it.
      cases negative with
      | false => simp [sameValue, signed]
      | true =>
        by_cases nothing : wholePart rank = 0
        · have none : units rank = 0 := by
            rw [wholePart] at nothing
            rw [← Nat.div_add_mod (units rank) unitsPerOne, whole.1, nothing, Nat.mul_zero]
          simp [sameValue, rank_eq_zero none]
        · have below : signed true (wholePart rank) < 0 := by
            simp only [signed, if_true]
            omega
          simp [sameValue, below]
    · exact ⟨_, read?_text _, sameValue_refl rfl⟩

/-! ### The mark of a rounded result -/

variable {x : Binary64} {places : Option Int}

/-- A result that is not marked is shown as it is. -/
theorem displayed_of_exact (exact_mark : (x.display places).rounded = false) : x.displayed places = x := by
  cases places with
  | none => rfl
  | some n =>
    cases finite : x.isFinite with
    | false =>
      cases x with
      | nan | infinite => rfl
      | finite => cases finite
    | true =>
      have same : (x.displayed (some n)).sameValue x = true := by simpa [display, finite] using exact_mark
      rcases eq_or_isZero_of_sameValue same with equal | ⟨-, zero⟩
      · exact equal
      · -- A zero is a whole number, and these are not rounded.
        rw [displayed, if_pos (isInteger_of_isZero zero)]

/-- A marked result is a number with a fraction that rounding made another number of. -/
theorem rounded_cases (marked : (x.display places).rounded = true) :
    x.isFinite = true ∧ x.isInteger = false ∧
      ∃ n, places = some n ∧ x.displayed places = x.roundToPlaces n.toNat ∧
        (x.roundToPlaces n.toNat).sameValue x = false := by
  simp only [display, Bool.and_eq_true, Bool.not_eq_true'] at marked
  obtain ⟨finite, other⟩ := marked
  cases places with
  | none =>
    rw [displayed, sameValue_refl finite] at other
    cases other
  | some n =>
    cases whole : x.isInteger with
    | true =>
      rw [displayed, if_pos whole, sameValue_refl finite] at other
      cases other
    | false =>
      have rounds : x.displayed (some n) = x.roundToPlaces n.toNat := by simp [displayed, whole]
      rw [rounds] at other
      exact ⟨finite, rfl, n, rfl, rounds, other⟩

end Binary64

end Reckoner
