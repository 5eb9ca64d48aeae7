import Mathlib.Data.List.TakeWhile
import Reckoner.Proofs.Token.Reading

/-!
# Infix expressions

The grammar of expressions, on texts, with the value of every derivation. An operation of a level takes
operands of the same level on the side to which it groups, and of the next tighter level on the other one:

* a sum is a chain of products, joined by `+` and `-` to the left;
* a product is a chain of powers, joined by `*` and `/` to the left;
* a power is a signed operand, perhaps raised by `^` to another power;
* a signed operand is a literal, a group in parentheses, or a minus before a signed operand.
-/

namespace Reckoner

/-- How tightly the parts of an expression hold together. The last level is that of bare values in a row. -/
inductive Level
  | sum
  | product
  | power
  | signed
  | values
  deriving DecidableEq, Repr

/-- The next tighter level. -/
def Level.tighter : Level → Level
  | sum => product
  | product => power
  | power => signed
  | signed => values
  | values => values

namespace Operation

def level : Operation → Level
  | add | sub => .sum
  | mul | div => .product
  | pow => .power

/-- The level of a left operand: sums and products group to the left. -/
def leftLevel : Operation → Level
  | add | sub => .sum
  | mul | div => .product
  | pow => .signed

/-- The level of a right operand: powers group to the right. -/
def rightLevel : Operation → Level
  | add | sub => .product
  | mul | div => .power
  | pow => .power

end Operation

/-- A literal and its value: digits with at most one point among them, read as the nearest double. -/
inductive Literal : List Char → Binary64 → Prop
  | whole {digits : List Char} (nonempty : digits ≠ [])
      (numeric : ∀ c ∈ digits, c.isDigit = true) :
      Literal digits (Decimal.toBinary64 false ⟨digitsValue digits, 0⟩)
  | pointed {whole fraction : List Char} (nonempty : whole ++ fraction ≠ [])
      (numeric : ∀ c ∈ whole ++ fraction, c.isDigit = true) :
      Literal (whole ++ '.' :: fraction)
        (Decimal.toBinary64 false ⟨digitsValue (whole ++ fraction), -fraction.length⟩)

/-- A text that can be derived at a level, and the value of its derivation. Blanks may stand before and
after every lexeme. -/
inductive Infix : Level → List Char → Binary64 → Prop
  | literal {run : List Char} {value : Binary64} (literal : Literal run value) : Infix .signed run value
  | group {text : List Char} {value : Binary64} (inside : Infix .sum text value) :
      Infix .signed ('(' :: (text ++ [')'])) value
  | sign {text : List Char} {value : Binary64} (operand : Infix .signed text value) :
      Infix .signed ('-' :: text) (-value)
  | operation {left right : List Char} {a b : Binary64} (operation : Operation)
      (first : Infix operation.leftLevel left a) (second : Infix operation.rightLevel right b) :
      Infix operation.level (left ++ operation.char :: right) (operation.apply a b)
  | tighter {level : Level} {text : List Char} {value : Binary64}
      (inner : Infix level.tighter text value) : Infix level text value
  | blankBefore {level : Level} {text : List Char} {value : Binary64} {c : Char}
      (blank : Text.isBlank c = true) (inner : Infix level text value) : Infix level (c :: text) value
  | blankAfter {level : Level} {text : List Char} {value : Binary64} {c : Char}
      (blank : Text.isBlank c = true) (inner : Infix level text value) : Infix level (text ++ [c]) value

/-! ### Literals are the numbers that can be read -/

theorem isNumberChar_of_isDigit {c : Char} (digit : c.isDigit = true) : isNumberChar c = true := by
  simp [isNumberChar, digit]

theorem Literal.maximalRun {run rest : List Char} {value : Binary64} (literal : Literal run value)
    (ends : numberGoesOn rest = false) : MaximalRun run rest := by
  cases literal with
  | whole nonempty numeric => exact ⟨nonempty, fun c member => isNumberChar_of_isDigit (numeric c member), ends⟩
  | pointed nonempty numeric =>
    refine ⟨by simp, fun c member => ?_, ends⟩
    simp only [List.mem_append, List.mem_cons] at member numeric
    rcases member with left | rfl | right
    · exact isNumberChar_of_isDigit (numeric c (Or.inl left))
    · rfl
    · exact isNumberChar_of_isDigit (numeric c (Or.inr right))

private theorem magnitude?_whole {digits : List Char} (nonempty : digits ≠ [])
    (numeric : ∀ c ∈ digits, c.isDigit = true) : magnitude? digits = some ⟨digitsValue digits, 0⟩ := by
  have taken : digits.takeWhile Char.isDigit = digits := List.takeWhile_eq_self_iff.mpr numeric
  have dropped : digits.dropWhile Char.isDigit = [] := List.dropWhile_eq_nil_iff.mpr numeric
  simp [magnitude?, taken, dropped, nonempty]

private theorem magnitude?_pointed {whole fraction : List Char} (nonempty : whole ++ fraction ≠ [])
    (numeric : ∀ c ∈ whole ++ fraction, c.isDigit = true) :
    magnitude? (whole ++ '.' :: fraction) =
      some ⟨digitsValue (whole ++ fraction), -fraction.length⟩ := by
  have first : ∀ c ∈ whole, c.isDigit = true := fun c member => numeric c (by simp [member])
  have second : fraction.all Char.isDigit = true :=
    List.all_eq_true.mpr fun c member => numeric c (by simp [member])
  have taken : (whole ++ '.' :: fraction).takeWhile Char.isDigit = whole := by
    rw [List.takeWhile_append_of_pos first]
    simp
  have dropped : (whole ++ '.' :: fraction).dropWhile Char.isDigit = '.' :: fraction := by
    rw [List.dropWhile_append_of_pos first]
    simp
  simp only [magnitude?, taken, dropped, second]
  simpa using nonempty

/-- Exactly the literals have a magnitude. -/
theorem magnitude?_iff (run : List Char) (value : Binary64) :
    (magnitude? run).map (Decimal.toBinary64 false) = some value ↔ Literal run value := by
  constructor
  · intro read
    have split := List.takeWhile_append_dropWhile (p := Char.isDigit) (l := run)
    have digits : ∀ c ∈ run.takeWhile Char.isDigit, c.isDigit = true :=
      List.all_eq_true.mp List.all_takeWhile
    simp only [magnitude?] at read
    -- Behind the leading digits there is nothing, or a point, or something that makes the run no literal.
    split at read
    next none =>
      rw [none, List.append_nil] at split
      rw [split] at read digits
      split at read
      · cases read
      next nonempty =>
        cases read
        exact .whole nonempty digits
    next fraction rest =>
      split at read
      next valid =>
        simp only [Bool.and_eq_true, List.all_eq_true, Bool.not_eq_true', List.isEmpty_eq_false_iff]
          at valid
        cases read
        rw [rest] at split
        have literal : Literal (run.takeWhile Char.isDigit ++ '.' :: fraction) _ :=
          .pointed valid.2 fun c member =>
            (List.mem_append.mp member).elim (digits c) (valid.1 c)
        rwa [split] at literal
      · cases read
    · cases read
  · intro literal
    cases literal with
    | whole nonempty numeric => rw [magnitude?_whole nonempty numeric]; rfl
    | pointed nonempty numeric => rw [magnitude?_pointed nonempty numeric]; rfl

/-- The sign of a number is no part of its rounding. -/
theorem toBinary64_neg (d : Decimal) : d.toBinary64 true = -d.toBinary64 false := by
  have rank (n : Nat) : Binary64.ofRank true n = -Binary64.ofRank false n := by
    unfold Binary64.ofRank
    split <;> rfl
  unfold Decimal.toBinary64
  split
  · exact rank 0
  · split
    · rfl
    · exact rank _

theorem number?_unsigned {run : List Char} (numeric : ∀ c ∈ run, isNumberChar c = true)
    (value : Binary64) : number? run = some value ↔ Literal run value := by
  rw [← magnitude?_iff]
  unfold number?
  split
  next digits => exact absurd (numeric '-' List.mem_cons_self) (by decide)
  · rfl

theorem number?_signed (digits : List Char) (value : Binary64) :
    number? ('-' :: digits) = some value ↔
      ∃ magnitude, Literal digits magnitude ∧ value = -magnitude := by
  simp only [number?, ← magnitude?_iff, Option.map_eq_some_iff, toBinary64_neg]
  constructor
  · rintro ⟨d, found, rfl⟩
    exact ⟨_, ⟨d, found, rfl⟩, rfl⟩
  · rintro ⟨_, ⟨d, found, rfl⟩, rfl⟩
    exact ⟨d, found, rfl⟩

end Reckoner
