import Mathlib.Data.List.Infix

/-!
# Parentheses of a text

Which parentheses of a text have no partner, by counting: a closing one is unopened if the text up to it has
more closing than opening ones, an opening one is never closed if no text behind it has.

Main result: `Open.last_neverClosed`, reading from the left with a pile of the parentheses that are still
open finds at its top the last one that is never closed.
-/

namespace Reckoner

/-- The closing parenthesis at a position is one more than the opening ones before it. -/
def Unopened (text : List Char) (position : Nat) : Prop :=
  ∃ before after, text = before ++ ')' :: after ∧ before.length = position ∧
    (before ++ [')']).count '(' < (before ++ [')']).count ')'

/-- The opening parenthesis at a position has no partner, however far one reads on. -/
def NeverClosed (text : List Char) (position : Nat) : Prop :=
  ∃ before after, text = before ++ '(' :: after ∧ before.length = position ∧
    ∀ within, within <+: after → within.count ')' ≤ within.count '('

/-- A text in which all parentheses have their partners. -/
inductive Balanced : List Char → Prop
  | empty : Balanced []
  | other {text : List Char} {c : Char} (neither : c ≠ '(' ∧ c ≠ ')') (before : Balanced text) :
      Balanced (text ++ [c])
  | group {before inside : List Char} (outside : Balanced before) (within : Balanced inside) :
      Balanced (before ++ '(' :: (inside ++ [')']))

/-- A text and the positions of the parentheses that are still open behind it, the last one first. -/
inductive Open : List Char → List Nat → Prop
  | closed {text : List Char} (balanced : Balanced text) : Open text []
  | opened {before inside : List Char} {positions : List Nat} (outer : Open before positions)
      (balanced : Balanced inside) : Open (before ++ '(' :: inside) (before.length :: positions)

/-! ### Counting -/

theorem Balanced.count_eq {text : List Char} (balanced : Balanced text) :
    text.count ')' = text.count '(' := by
  induction balanced with
  | empty => rfl
  | other neither _ ih => simp [neither.1, neither.2, ih]
  | group _ _ ihOutside ihWithin => simp [ihOutside, ihWithin]

private theorem prefix_of_append {first second start : List Char} (within : start <+: first ++ second) :
    start <+: first ∨ ∃ more, start = first ++ more ∧ more <+: second := by
  obtain ⟨rest, split⟩ := within
  rcases List.append_eq_append_iff.mp split with ⟨more, same, -⟩ | ⟨more, same, tail⟩
  · exact .inl ⟨more, same.symm⟩
  · exact .inr ⟨more, same, rest, tail.symm⟩

/-- Read from its start, a balanced text never has more closing than opening parentheses. -/
theorem Balanced.count_le {text : List Char} (balanced : Balanced text) :
    ∀ start, start <+: text → start.count ')' ≤ start.count '(' := by
  induction balanced with
  | empty =>
    intro start within
    rw [List.prefix_nil.mp within]
    exact Nat.le_refl _
  | other neither before ih =>
    intro start within
    rcases List.prefix_concat_iff.mp within with rfl | earlier
    · exact (Balanced.other neither before).count_eq.le
    · exact ih start earlier
  | group outside inner ihOutside ihWithin =>
    intro start within
    rw [← List.cons_append, ← List.append_assoc] at within
    rcases List.prefix_concat_iff.mp within with rfl | earlier
    · have whole := (Balanced.group outside inner).count_eq
      rw [← List.cons_append, ← List.append_assoc] at whole
      exact whole.le
    -- The start ends before the group or inside it.
    rcases prefix_of_append earlier with before | ⟨more, rfl, behind⟩
    · exact ihOutside start before
    have level := outside.count_eq
    rcases List.prefix_cons_iff.mp behind with rfl | ⟨more, rfl, inside⟩
    · simpa using level.le
    · have few := ihWithin more inside
      simp
      omega

theorem Open.count_eq {text : List Char} {positions : List Nat} (opened : Open text positions) :
    text.count '(' = text.count ')' + positions.length := by
  induction opened with
  | closed balanced => simpa using balanced.count_eq.symm
  | opened outer balanced ih =>
    have level := balanced.count_eq
    simp
    omega

/-! ### One character -/

theorem Open.other {text : List Char} {positions : List Nat} {c : Char} (opened : Open text positions)
    (neither : c ≠ '(' ∧ c ≠ ')') : Open (text ++ [c]) positions := by
  cases opened with
  | closed balanced => exact .closed (.other neither balanced)
  | opened outer balanced =>
    rw [List.append_assoc, List.cons_append]
    exact .opened outer (.other neither balanced)

theorem Open.others {more : List Char} (neither : ∀ c ∈ more, c ≠ '(' ∧ c ≠ ')') :
    ∀ {text : List Char} {positions : List Nat}, Open text positions → Open (text ++ more) positions := by
  induction more with
  | nil =>
    intro text positions opened
    rwa [List.append_nil]
  | cons c more ih =>
    intro text positions opened
    rw [List.append_cons]
    exact ih (fun d member => neither d (List.mem_cons_of_mem c member))
      (opened.other (neither c List.mem_cons_self))

theorem Open.opening {text : List Char} {positions : List Nat} (opened : Open text positions) :
    Open (text ++ ['(']) (text.length :: positions) :=
  .opened opened .empty

theorem Open.closing {text : List Char} {position : Nat} {positions : List Nat}
    (opened : Open text (position :: positions)) : Open (text ++ [')']) positions := by
  cases opened with
  | opened outer balanced =>
    rw [List.append_assoc, List.cons_append]
    -- The group that is closed now joins the text before it.
    cases outer with
    | closed outside => exact .closed (.group outside balanced)
    | opened outer outside =>
      rw [List.append_assoc, List.cons_append]
      exact .opened outer (.group outside balanced)

/-- Behind a text, a closing parenthesis is unopened exactly if none is open any more. -/
theorem Open.unopened_iff {before after : List Char} {positions : List Nat} (opened : Open before positions) :
    Unopened (before ++ ')' :: after) before.length ↔ positions = [] := by
  have level := opened.count_eq
  constructor
  · rintro ⟨before', after', split, same, more⟩
    obtain ⟨rfl, -⟩ := List.append_inj split same.symm
    -- As many are open as there are more opening parentheses than closing ones.
    simp at more
    exact List.eq_nil_of_length_eq_zero (by omega)
  · rintro rfl
    refine ⟨before, after, rfl, rfl, ?_⟩
    simp at level ⊢
    omega

/-! ### What is never closed -/

/-- In a balanced text everything is closed. -/
private theorem Balanced.not_neverClosed {start text : List Char} {position : Nat}
    (balanced : Balanced text) (behind : start.length ≤ position) :
    ¬ NeverClosed (start ++ text) position := by
  rintro ⟨before, after, split, rfl, never⟩
  have start_before : start <+: before :=
    List.prefix_of_prefix_length_le ⟨text, split⟩ ⟨_, rfl⟩ behind
  obtain ⟨more, rfl⟩ := start_before
  rw [List.append_assoc, List.append_cancel_left_eq] at split
  -- Up to the parenthesis none is missing, behind it none is left over: together one is too many.
  have whole := balanced.count_eq
  have first := balanced.count_le more (split ▸ List.prefix_append _ _)
  have second := never after (List.prefix_refl after)
  rw [split] at whole
  simp at whole
  omega

/-- The parenthesis on top of those still open is the last one that is never closed; if none is open, every
one is closed. -/
theorem Open.last_neverClosed {text : List Char} {positions : List Nat} (opened : Open text positions) :
    (∀ position ∈ positions.head?, NeverClosed text position) ∧
      ∀ position, (∀ top ∈ positions.head?, top < position) → ¬ NeverClosed text position := by
  cases opened with
  | closed balanced =>
    refine ⟨by simp, fun position _ => ?_⟩
    have whole : ¬ NeverClosed ([] ++ text) position := balanced.not_neverClosed (Nat.zero_le position)
    exact whole
  | @opened before inside positions outer balanced =>
    constructor
    · intro position top
      cases Option.mem_some.mp top
      exact ⟨before, inside, rfl, rfl, balanced.count_le⟩
    · intro position later
      -- Behind the last one that is open the text is balanced.
      rw [List.append_cons]
      refine balanced.not_neverClosed ?_
      rw [List.length_append]
      exact later before.length rfl

end Reckoner
