import Mathlib.Algebra.Group.Nat.Defs
import Mathlib.Data.List.TakeDrop
import Mathlib.Data.List.TakeWhile
import Reckoner.Decimal.Numeral
import Reckoner.Decimal.Shortest

/-!
# Digits and numerals

A row of decimal digits is worth what its two parts are worth, and the digits of a number are worth that
number. A numeral that is spelled in front of something that cannot prolong it is what the scan finds there.

Main result: `Numeral.Spelled.scan?`.
-/

namespace Reckoner

/-! ### What digits are worth -/

theorem ne_of_isDigit {c d : Char} (digit : c.isDigit = true) (other : d.isDigit = false) : c ≠ d := by
  rintro rfl
  rw [digit] at other
  cases other

def IsDigits (digits : List Char) : Prop := ∀ c ∈ digits, c.isDigit = true

theorem IsDigits.append {high low : List Char} (left : IsDigits high) (right : IsDigits low) :
    IsDigits (high ++ low) := by
  intro c member
  rcases List.mem_append.mp member with found | found
  · exact left c found
  · exact right c found

theorem isDigits_zeros (count : Nat) : IsDigits (List.replicate count '0') := by
  intro c member
  rw [List.eq_of_mem_replicate member]
  decide

theorem isDigits_decimalDigits (n : Nat) : IsDigits (decimalDigits n) :=
  fun _ member => Nat.isDigit_of_mem_toDigits (by decide) (by decide) member

theorem digitsValue_append (high low : List Char) :
    digitsValue (high ++ low) = digitsValue high * 10 ^ low.length + digitsValue low := by
  have apart : Nat.ofDigitChars 10 (high ++ low) 0 =
      10 ^ low.length * Nat.ofDigitChars 10 high 0 + Nat.ofDigitChars 10 low 0 := by
    rw [Nat.ofDigitChars_append, Nat.ofDigitChars_eq_ofDigitChars_zero]
  rw [Nat.mul_comm]
  exact apart

@[simp] theorem digitsValue_zeros (count : Nat) : digitsValue (List.replicate count '0') = 0 :=
  Nat.ofDigitChars_replicate_zero.trans (Nat.mul_zero (10 ^ count))

@[simp] theorem digitsValue_decimalDigits (n : Nat) : digitsValue (decimalDigits n) = n :=
  Nat.ofDigitChars_ten_toDigits

theorem signed_natAbs (n : Int) : Binary64.signed (n < 0) n.natAbs = n := by
  unfold Binary64.signed
  by_cases below : n < 0
  · rw [if_pos (decide_eq_true below)]
    omega
  · rw [if_neg (by simpa using below)]
    omega

theorem natAbs_signed (negative : Bool) (n : Nat) : (Binary64.signed negative n).natAbs = n := by
  cases negative <;> simp [Binary64.signed]

theorem Binary64.signed_mul (negative : Bool) (m n : Nat) : signed negative (m * n) = signed negative m * n := by
  cases negative with
  | false => exact Int.natCast_mul m n
  | true => rw [signed, signed, if_pos rfl, if_pos rfl, Int.natCast_mul, Int.neg_mul]

/-- Zeros in front are worth nothing. -/
theorem digitsValue_zeros_append (count : Nat) (digits : List Char) :
    digitsValue (List.replicate count '0' ++ digits) = digitsValue digits := by
  simp [digitsValue_append]

/-- Zeros at the end are powers of ten. -/
theorem digitsValue_append_zeros (digits : List Char) (count : Nat) :
    digitsValue (digits ++ List.replicate count '0') = digitsValue digits * 10 ^ count := by
  simp [digitsValue_append]

theorem digitsValue_lt {digits : List Char} (all : IsDigits digits) :
    digitsValue digits < 10 ^ digits.length := by
  induction digits with
  | nil => decide
  | cons c rest ih =>
    have tail := ih fun d member => all d (List.mem_cons_of_mem c member)
    have head : c.toNat - '0'.toNat ≤ 9 := by
      have digit := all c List.mem_cons_self
      simp only [Char.isDigit, Bool.and_eq_true, decide_eq_true_eq, UInt32.le_iff_toNat_le] at digit
      have last : c.toNat ≤ 57 := digit.2
      have first : '0'.toNat = 48 := rfl
      omega
    have split : digitsValue (c :: rest) = (c.toNat - '0'.toNat) * 10 ^ rest.length + digitsValue rest := by
      have whole := digitsValue_append [c] rest
      simpa [digitsValue] using whole
    calc digitsValue (c :: rest)
        = (c.toNat - '0'.toNat) * 10 ^ rest.length + digitsValue rest := split
      _ < (c.toNat - '0'.toNat + 1) * 10 ^ rest.length := by rw [Nat.succ_mul]; omega
      _ ≤ 10 * 10 ^ rest.length := Nat.mul_le_mul_right _ (by omega)
      _ = 10 ^ (rest.length + 1) := (Nat.pow_succ').symm

/-- A number has no more digits than any row that is worth it. -/
theorem digitCount_digitsValue_le {digits : List Char} (all : IsDigits digits) (nonempty : digits ≠ []) :
    digitCount (digitsValue digits) ≤ digits.length :=
  (Nat.length_toDigits_le_iff (by decide) (List.length_pos_iff.mpr nonempty)).mpr (digitsValue_lt all)

/-- Only zero starts with a zero. -/
theorem decimalDigits_head {n : Nat} (positive : n ≠ 0) : (decimalDigits n).head? ≠ some '0' := by
  induction n using Nat.strongRecOn with
  | ind n ih =>
    unfold decimalDigits at ih ⊢
    by_cases small : n < 10
    · rw [Nat.toDigits_of_lt_base small]
      have every : ∀ m < 10, m ≠ 0 → [m.digitChar].head? ≠ some '0' := by decide
      exact every n small positive
    · have high := ih (n / 10) (by omega) (by omega)
      rw [Nat.toDigits_of_base_le (by decide) (by omega), List.head?_append]
      cases digits : Nat.toDigits 10 (n / 10) with
      | nil => exact absurd digits Nat.toDigits_ne_nil
      | cons c rest => simpa [digits] using high

/-! ### Numerals in front of other text -/

/-- Digits that a scan takes as the whole part: a zero alone, or none in front. -/
structure IsWhole (digits : List Char) : Prop where
  nonempty : digits ≠ []
  all : IsDigits digits
  alone : digits.head? = some '0' → digits = ['0']

theorem isWhole_decimalDigits (n : Nat) : IsWhole (decimalDigits n) where
  nonempty := Nat.toDigits_ne_nil
  all := isDigits_decimalDigits n
  alone head := by
    by_cases zero : n = 0
    · rw [zero]
      rfl
    · exact absurd head (decimalDigits_head zero)

/-- Nothing that prolongs a row of digits or starts a fraction. -/
def EndsDigits (rest : List Char) : Prop := ∀ c ∈ rest.head?, c.isDigit = false ∧ c ≠ '.'

/-- Nothing that prolongs a numeral. -/
def EndsNumeral (rest : List Char) : Prop :=
  ∀ c ∈ rest.head?, c.isDigit = false ∧ c ≠ '.' ∧ c ≠ 'e' ∧ c ≠ 'E'

theorem endsNumeral_nil : EndsNumeral [] := by simp [EndsNumeral]

namespace Numeral

/-- A fraction and how it is spelled. -/
inductive FractionSpelled : Option (List Char) → List Char → Prop
  | absent : FractionSpelled none []
  | present {digits : List Char} (nonempty : digits ≠ []) (all : IsDigits digits) :
    FractionSpelled (some digits) ('.' :: digits)

/-- An exponent and how it is spelled, always with its sign. -/
inductive ExponentSpelled : Option Int → List Char → Prop
  | absent : ExponentSpelled none []
  | present (negative : Bool) {digits : List Char} (nonempty : digits ≠ []) (all : IsDigits digits) :
    ExponentSpelled (some (Binary64.signed negative (digitsValue digits)))
      ('e' :: (if negative then '-' else '+') :: digits)

inductive Spelled : Numeral → List Char → Prop
  | parts {whole fraction exponent : List Char} {places : Option (List Char)} {power : Option Int}
    (front : IsWhole whole) (middle : FractionSpelled places fraction)
    (back : ExponentSpelled power exponent) :
    Spelled ⟨whole, places, power⟩ (whole ++ (fraction ++ exponent))

theorem Spelled.digits {whole : List Char} (front : IsWhole whole) : Spelled ⟨whole, none, none⟩ whole := by
  simpa using Spelled.parts front .absent .absent

theorem Spelled.point {whole fraction : List Char} (front : IsWhole whole) (nonempty : fraction ≠ [])
    (all : IsDigits fraction) : Spelled ⟨whole, some fraction, none⟩ (whole ++ '.' :: fraction) := by
  simpa using Spelled.parts front (.present nonempty all) .absent

theorem Spelled.starts {numeral : Numeral} {text : List Char} (spelled : numeral.Spelled text) :
    ∃ c rest, text = c :: rest ∧ c.isDigit = true := by
  cases spelled with
  | @parts whole _ _ _ _ front _ _ =>
    cases whole with
    | nil => exact absurd rfl front.nonempty
    | cons c rest => exact ⟨c, _, rfl, front.all c List.mem_cons_self⟩

theorem scanDigits_append {digits rest : List Char} (all : IsDigits digits)
    (ends : ∀ c ∈ rest.head?, c.isDigit = false) : scanDigits (digits ++ rest) = (digits, rest) := by
  have none : rest.takeWhile Char.isDigit = [] ∧ rest.dropWhile Char.isDigit = rest := by
    cases rest with
    | nil => exact ⟨rfl, rfl⟩
    | cons c rest => simp [ends c rfl]
  rw [scanDigits, List.span_eq_takeWhile_dropWhile, List.takeWhile_append_of_pos all,
    List.dropWhile_append_of_pos all, none.1, none.2, List.append_nil]

theorem scanWhole?_append {digits rest : List Char} (whole : IsWhole digits)
    (ends : ∀ c ∈ rest.head?, c.isDigit = false) :
    scanWhole? (digits ++ rest) = some (digits, rest) := by
  have scanned := scanDigits_append whole.all ends
  cases digits with
  | nil => exact absurd rfl whole.nonempty
  | cons c digits =>
    by_cases zero : c = '0'
    · -- A zero in front stands alone, and the scan takes no more than that.
      subst zero
      cases whole.alone rfl
      rfl
    · rw [List.cons_append] at scanned ⊢
      unfold scanWhole?
      split
      · next same =>
        injection same with same
        exact absurd same zero
      · rw [scanned]

theorem scanFraction_append {fraction : List Char} {places : Option (List Char)} {rest : List Char}
    (spelled : FractionSpelled places fraction) (ends : EndsDigits rest) :
    scanFraction (fraction ++ rest) = (places, rest) := by
  cases spelled with
  | absent =>
    cases rest with
    | nil => rfl
    | cons c rest =>
      have noPoint := (ends c rfl).2
      unfold scanFraction
      split
      · next same =>
        injection same with same
        exact absurd same noPoint
      · rfl
  | present nonempty all =>
    rw [List.cons_append]
    simp only [scanFraction, scanDigits_append all fun c first => (ends c first).1]

theorem scanExponent_append {exponent : List Char} {power : Option Int} {rest : List Char}
    (spelled : ExponentSpelled power exponent) (ends : EndsNumeral rest) :
    scanExponent (exponent ++ rest) = (power, rest) := by
  cases spelled with
  | absent =>
    cases rest with
    | nil => rfl
    | cons c rest =>
      obtain ⟨-, -, small, large⟩ := ends c rfl
      simp [scanExponent, small, large]
  | present negative nonempty all =>
    have scanned := scanDigits_append all fun c first => (ends c first).1
    cases negative <;> simp [scanExponent, scanSign, scanned]

theorem endsDigits_append {exponent : List Char} {power : Option Int} {rest : List Char}
    (spelled : ExponentSpelled power exponent) (ends : EndsNumeral rest) : EndsDigits (exponent ++ rest) := by
  cases spelled with
  | absent => exact fun c first => ⟨(ends c first).1, (ends c first).2.1⟩
  | present =>
    rintro c first
    cases first
    decide

/-- A numeral that nothing prolongs is scanned as it is spelled. -/
theorem Spelled.scan? {numeral : Numeral} {text rest : List Char} (spelled : numeral.Spelled text)
    (ends : EndsNumeral rest) : Numeral.scan? (text ++ rest) = some (numeral, rest) := by
  cases spelled with
  | @parts whole fraction exponent places power front middle back =>
    have behind : EndsDigits (exponent ++ rest) := endsDigits_append back ends
    have first : ∀ c ∈ (fraction ++ (exponent ++ rest)).head?, c.isDigit = false := by
      cases middle with
      | absent => exact fun c first => (behind c first).1
      | present =>
        rintro c first
        cases first
        decide
    simp only [Numeral.scan?, List.append_assoc, scanWhole?_append front first, Option.bind_eq_bind,
      Option.bind_some, scanFraction_append middle behind, scanExponent_append back ends]
    rfl

/-! ### What a scan takes -/

theorem scanDigits_split (text : List Char) :
    (scanDigits text).1 ++ (scanDigits text).2 = text ∧ IsDigits (scanDigits text).1 := by
  rw [scanDigits, List.span_eq_takeWhile_dropWhile]
  exact ⟨List.takeWhile_append_dropWhile, fun c member => List.mem_takeWhile_imp member⟩

theorem scanDigits_suffix (text : List Char) : (scanDigits text).2 <:+ text :=
  ⟨_, (scanDigits_split text).1⟩

theorem scanWhole?_split {text digits rest : List Char} (scanned : scanWhole? text = some (digits, rest)) :
    digits ++ rest = text ∧ digits ≠ [] ∧ IsDigits digits := by
  unfold scanWhole? at scanned
  split at scanned
  · cases scanned
    exact ⟨rfl, List.cons_ne_nil _ _, isDigits_zeros 1⟩
  · split at scanned
    · cases scanned
    next none =>
      obtain ⟨parts, all⟩ := scanDigits_split text
      rw [Option.some.injEq] at scanned
      rw [scanned] at parts all
      exact ⟨parts, fun empty => none rest (scanned.trans (by rw [empty])), all⟩

theorem scanFraction_suffix (text : List Char) : (scanFraction text).2 <:+ text := by
  unfold scanFraction
  split
  · next behind =>
    split
    · exact List.suffix_refl _
    next scanned =>
      have suffix := scanDigits_suffix behind
      rw [scanned] at suffix
      exact suffix.trans (List.suffix_cons _ _)
  · exact List.suffix_refl _

theorem scanSign_suffix (text : List Char) : (scanSign text).2 <:+ text := by
  unfold scanSign
  split
  · exact List.suffix_cons _ _
  · exact List.suffix_cons _ _
  · exact List.suffix_refl _

theorem scanExponent_suffix (text : List Char) : (scanExponent text).2 <:+ text := by
  unfold scanExponent
  split
  · next mark behind =>
    have signed := scanSign_suffix behind
    generalize scanSign behind = parts at signed ⊢
    obtain ⟨negative, unsigned⟩ := parts
    simp only at signed ⊢
    split
    · split
      · exact List.suffix_refl _
      next scanned =>
        have suffix := scanDigits_suffix unsigned
        rw [scanned] at suffix
        exact (suffix.trans signed).trans (List.suffix_cons _ _)
    · exact List.suffix_refl _
  · exact List.suffix_refl _

/-- A numeral that is scanned stands at the start of the text. -/
theorem scan?_split {text rest : List Char} {numeral : Numeral} (scanned : scan? text = some (numeral, rest)) :
    numeral.whole <+: text ∧ numeral.whole ≠ [] ∧ IsDigits numeral.whole ∧ rest <:+ text := by
  unfold scan? at scanned
  obtain ⟨⟨whole, behind⟩, front, others⟩ := Option.bind_eq_some_iff.mp scanned
  obtain ⟨parts, nonempty, all⟩ := scanWhole?_split front
  have suffix := ((scanExponent_suffix (scanFraction behind).2).trans (scanFraction_suffix behind)).trans
    ⟨whole, parts⟩
  cases others
  exact ⟨⟨behind, parts⟩, nonempty, all, suffix⟩

end Numeral

end Reckoner
