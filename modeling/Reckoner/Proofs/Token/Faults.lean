import Reckoner.Proofs.Infix

/-!
# Lexical faults

The places of a text at which no lexeme stands. `LexicalFault text position fault` does not ask whether
reading ever gets there: a text can have many faults.

* `LexicalFault.unique`, at a place there is one at most.
* `LexicalFault.not_blank`, `LexicalFault.not_symbol`, `LexicalFault.not_number`, there is none where
  something is read.
-/

namespace Reckoner

/-- A run that is no number: it has no digit, or more than one point. -/
def Malformed (run : List Char) : Prop := (∀ c ∈ run, c.isDigit = false) ∨ 1 < run.count '.'

/-- A fault of the text at a position: a character that begins no lexeme, or a whole number, with the sign
that belongs to it, that is malformed. -/
inductive LexicalFault (text : List Char) : Nat → Fault → Prop
  | character {before rest : List Char} {c : Char} (split : text = before ++ c :: rest)
      (stray : IsStray c) : LexicalFault text before.length (.invalidCharacter c before.length)
  | number {before run rest : List Char} (split : text = before ++ (run ++ rest))
      (number : NumberAt before run rest) (malformed : Malformed run) :
      LexicalFault text before.length (.invalidNumber (String.ofList run))

/-! ### Malformed runs are those that cannot be read -/

private theorem count_point {digits : List Char} (numeric : ∀ c ∈ digits, c.isDigit = true) :
    digits.count '.' = 0 := by
  refine List.count_eq_zero.mpr fun member => ?_
  have digit := numeric '.' member
  revert digit
  decide

private theorem not_malformed_of {run : List Char} {c : Char} (member : c ∈ run) (digit : c.isDigit = true)
    (points : run.count '.' ≤ 1) : ¬ Malformed run := by
  rintro (without | many)
  · rw [without c member] at digit
    cases digit
  · omega

theorem Literal.not_malformed {run : List Char} {value : Binary64} (literal : Literal run value) :
    ¬ Malformed run := by
  cases literal with
  | whole nonempty numeric =>
    obtain ⟨c, rest, rfl⟩ := List.exists_cons_of_ne_nil nonempty
    refine not_malformed_of List.mem_cons_self (numeric c List.mem_cons_self) ?_
    rw [count_point numeric]
    exact Nat.zero_le 1
  | pointed nonempty numeric =>
    obtain ⟨c, member⟩ := List.exists_mem_of_ne_nil _ nonempty
    have points := count_point numeric
    refine not_malformed_of (c := c) ?_ (numeric c member) ?_
    · rcases List.mem_append.mp member with left | right
      · exact List.mem_append_left _ left
      · exact List.mem_append_right _ (List.mem_cons_of_mem _ right)
    · simp only [List.count_append, List.count_cons_self] at points ⊢
      omega

private theorem isDigit_of_isNumberChar {c : Char} (number : isNumberChar c = true) (other : c ≠ '.') :
    c.isDigit = true := by
  simpa [isNumberChar, other] using number

/-- A run of digits and points with a digit and no second point is a literal. -/
theorem literal_of_not_malformed {run : List Char} (numeric : ∀ c ∈ run, isNumberChar c = true)
    (formed : ¬ Malformed run) : ∃ value, Literal run value := by
  simp only [Malformed, not_or, not_forall, Nat.not_lt] at formed
  obtain ⟨⟨c, member, digit⟩, few⟩ := formed
  by_cases point : '.' ∈ run
  · -- There is no second point, so the characters around this one are digits.
    obtain ⟨whole, fraction, rfl⟩ := List.append_of_mem point
    simp only [List.count_append, List.count_cons_self] at few
    have digits : ∀ d ∈ whole ++ fraction, d.isDigit = true := by
      intro d inside
      have absent : '.' ∉ whole ++ fraction := by
        refine List.count_eq_zero.mp ?_
        rw [List.count_append]
        omega
      refine isDigit_of_isNumberChar (numeric d ?_) (ne_of_mem_of_not_mem inside absent)
      simp only [List.mem_append, List.mem_cons] at inside ⊢
      exact inside.imp_right .inr
    refine ⟨_, .pointed ?_ digits⟩
    rintro nothing
    obtain ⟨rfl, rfl⟩ := List.append_eq_nil_iff.mp nothing
    cases List.mem_singleton.mp member
    exact digit (by decide)
  · refine ⟨_, .whole (List.ne_nil_of_mem member) fun d inside => ?_⟩
    exact isDigit_of_isNumberChar (numeric d inside) (ne_of_mem_of_not_mem inside point)

private theorem malformed_sign {digits : List Char} : Malformed ('-' :: digits) ↔ Malformed digits := by
  simp [Malformed]

/-- A whole number cannot be read exactly if it is malformed. -/
theorem NumberAt.unread_iff {before run rest : List Char} (number : NumberAt before run rest) :
    number? run = none ↔ Malformed run := by
  rw [Option.eq_none_iff_forall_ne_some]
  -- The sign is neither a digit nor a point, so it does not matter here.
  rcases number.shape with whole | ⟨digits, rfl, -, whole⟩
  · constructor
    · intro unread
      by_contra formed
      obtain ⟨value, literal⟩ := literal_of_not_malformed whole.numeric formed
      exact unread value ((number?_unsigned whole.numeric value).mpr literal)
    · intro malformed value read
      exact ((number?_unsigned whole.numeric value).mp read).not_malformed malformed
  · rw [malformed_sign]
    constructor
    · intro unread
      by_contra formed
      obtain ⟨value, literal⟩ := literal_of_not_malformed whole.numeric formed
      exact unread _ ((number?_signed digits _).mpr ⟨value, literal, rfl⟩)
    · intro malformed value read
      obtain ⟨magnitude, literal, -⟩ := (number?_signed digits value).mp read
      exact literal.not_malformed malformed

/-! ### Where there is a fault -/

/-- What stands at a place where there is a fault. -/
theorem LexicalFault.at {before tail : List Char} {fault : Fault}
    (found : LexicalFault (before ++ tail) before.length fault) :
    (∃ c rest, tail = c :: rest ∧ IsStray c ∧ fault = .invalidCharacter c before.length) ∨
      ∃ run rest, tail = run ++ rest ∧ NumberAt before run rest ∧ Malformed run ∧
        fault = .invalidNumber (String.ofList run) := by
  generalize whole : before ++ tail = text at found
  generalize place : before.length = position at found
  cases found with
  | character split stray =>
    obtain ⟨rfl, rfl⟩ := List.append_inj (whole.trans split) place
    exact .inl ⟨_, _, rfl, stray, rfl⟩
  | number split number malformed =>
    obtain ⟨rfl, rfl⟩ := List.append_inj (whole.trans split) place
    exact .inr ⟨_, _, rfl, number, malformed, rfl⟩

/-- No number starts with a blank or a stray character. -/
theorem NumberAt.first {before run rest : List Char} (number : NumberAt before run rest) :
    ∃ c tail, run = c :: tail ∧ Text.isBlank c = false ∧ ¬ IsStray c := by
  obtain ⟨c, tail, same, solid, starts, -⟩ := number.starts
  refine ⟨c, tail, same, solid, ?_⟩
  rintro ⟨-, other, foreign⟩
  rw [numberStarts_eq, other, Bool.false_or, Bool.and_eq_true, Bool.and_eq_true, beq_iff_eq] at starts
  rw [starts.1.1] at foreign
  exact foreign (by decide)

theorem LexicalFault.unique {text : List Char} {position : Nat} {fault other : Fault}
    (found : LexicalFault text position fault) (again : LexicalFault text position other) :
    fault = other := by
  cases found with
  | character split stray =>
    subst split
    -- A stray character starts no number.
    rcases again.at with ⟨c, rest, same, -, rfl⟩ | ⟨run, rest, same, number, -⟩
    · cases same
      rfl
    · obtain ⟨c, tail, rfl, -, regular⟩ := number.first
      cases same
      exact absurd stray regular
  | number split number malformed =>
    subst split
    rcases again.at with ⟨c, rest, same, stray, -⟩ | ⟨run, rest, same, number', -, rfl⟩
    · obtain ⟨d, tail, rfl, -, regular⟩ := number.first
      cases same
      exact absurd stray regular
    · rw [number.unique number' same]

/-! ### Where there is none -/

theorem LexicalFault.not_blank {before rest : List Char} {c : Char} {fault : Fault}
    (blank : Text.isBlank c = true) : ¬ LexicalFault (before ++ c :: rest) before.length fault := by
  intro found
  rcases found.at with ⟨d, rest, same, stray, -⟩ | ⟨run, rest, same, number, -⟩
  · cases same
    rw [stray.1] at blank
    cases blank
  · obtain ⟨d, tail, rfl, solid, -⟩ := number.first
    cases same
    rw [solid] at blank
    cases blank

theorem LexicalFault.not_symbol {before rest : List Char} {c : Char} {lexeme : Lexeme} {fault : Fault}
    (symbol : SymbolAt before rest c lexeme) :
    ¬ LexicalFault (before ++ c :: rest) before.length fault := by
  intro found
  rcases found.at with ⟨d, rest, same, stray, -⟩ | ⟨run, rest, same, number, -⟩
  · cases same
    exact stray.2.2 symbol.mem
  · obtain ⟨d, tail, rfl, -, starts, -⟩ := number.starts
    rw [List.cons_append] at same
    obtain ⟨rfl, rfl⟩ := List.cons.inj same
    rw [symbol.found.1] at starts
    cases starts

/-- No place inside a number is a boundary. -/
theorem NumberAt.inside {before front back rest : List Char}
    (number : NumberAt before (front ++ back) rest) (started : front ≠ []) (unfinished : back ≠ []) :
    ¬ IsBoundary (before ++ front) (back ++ rest) := by
  obtain ⟨d, back, rfl⟩ := List.exists_cons_of_ne_nil unfinished
  rw [← List.dropLast_concat_getLast started] at number ⊢
  generalize front.dropLast = start at number ⊢
  generalize front.getLast started = c at number ⊢
  intro boundary
  rcases number.shape with whole | ⟨digits, split, begins, whole⟩
  · have goesOn : numberGoesOn (d :: back ++ rest) = true := whole.numeric d (by simp)
    have apart := (boundary goesOn (before ++ start) c (List.append_assoc ..).symm).1
    rw [whole.numeric c (by simp)] at apart
    cases apart
  · -- The first character is the sign, so the digits begin in front of the place or right at it.
    cases start with
    | nil =>
      simp only [List.nil_append, List.singleton_append, List.cons.injEq] at split
      obtain ⟨rfl, rfl⟩ := split
      have goesOn : numberGoesOn (d :: back ++ rest) = true := whole.numeric d (by simp)
      exact (boundary goesOn before '-' rfl).2 ⟨rfl, begins⟩
    | cons minus start =>
      simp only [List.cons_append, List.cons.injEq] at split
      obtain ⟨rfl, rfl⟩ := split
      have goesOn : numberGoesOn (d :: back ++ rest) = true := whole.numeric d (by simp)
      have apart := (boundary goesOn (before ++ '-' :: start) c (by simp)).1
      rw [whole.numeric c (by simp)] at apart
      cases apart

theorem LexicalFault.not_number {before run rest : List Char} {fault : Fault} {position : Nat}
    (number : NumberAt before run rest) (formed : ¬ Malformed run) (start : before.length ≤ position)
    (finish : position < (before ++ run).length) :
    ¬ LexicalFault (before ++ (run ++ rest)) position fault := by
  intro found
  -- The run is cut at the position; only its start is a place where a fault could begin.
  have split := List.take_append_drop (position - before.length) run
  have unfinished : run.drop (position - before.length) ≠ [] := by
    rw [Ne, List.drop_eq_nil_iff]
    rw [List.length_append] at finish
    omega
  have place : (before ++ run.take (position - before.length)).length = position := by
    rw [List.length_append, List.length_take]
    rw [List.length_append] at finish
    omega
  generalize run.take (position - before.length) = front at split place
  generalize run.drop (position - before.length) = back at split unfinished
  subst split place
  rw [List.append_assoc, ← List.append_assoc] at found
  by_cases started : front = []
  · -- At the start stands this number and no other, and it is not malformed.
    subst started
    rw [List.append_nil] at found
    rcases found.at with ⟨c, rest, same, stray, -⟩ | ⟨run, rest, same, other, malformed, -⟩
    · obtain ⟨d, tail, split, -, regular⟩ := number.first
      rw [List.nil_append] at split
      subst split
      cases same
      exact regular stray
    · cases number.unique other same
      exact formed malformed
  · -- Further on there is no boundary, as a stray character or another number would need.
    have inside := number.inside started unfinished
    rcases found.at with ⟨c, rest', same, stray, -⟩ | ⟨run, rest', same, other, -⟩
    · refine inside (isBoundary_of_ends ?_)
      rw [same]
      exact stray.2.1
    · rw [same] at inside
      exact inside other.boundary

end Reckoner
