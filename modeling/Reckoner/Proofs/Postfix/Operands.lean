import Mathlib.Data.List.Chain
import Reckoner.Postfix.Value
import Reckoner.Proofs.Infix.Phrase
import Reckoner.Proofs.Outcome
import Reckoner.Proofs.Postfix.Order

/-!
# Operands

A postfix row has a value if its operators find their operands: a counter of the values on the stack says
so, and looks at nothing else.

* `postfixValue_iff`, the counter decides which rows have a value.
* `Phrase.order`, the row of a phrase puts its value on the stack, whatever lies there already.
* `Reorders.phrase`, a row of infix tokens in which no value follows another is a phrase if its operands
  are as many as its operators need.
-/

namespace Reckoner

/-! ### The counter -/

/-- How many values are on the stack after a row; none, if an operator does not find its operands. -/
def operandCount (values : Nat) : List Token → Option Nat
  | [] => some values
  | token :: row =>
    match token.lexeme with
    | .number .. => operandCount (values + 1) row
    | .operator op =>
      if op.traits.arity ≤ values then operandCount (values - op.traits.arity + 1) row else none
    | _ => none

theorem operate?_of_le {stack : ValueStack} {op : Operator} (enough : op.traits.arity ≤ stack.length) :
    ∃ next, stack.operate? op = some next ∧ next.length = stack.length - op.traits.arity + 1 := by
  rcases op with operation | _
  · have two : 2 ≤ stack.length := by cases operation <;> exact enough
    have arity : (Operator.binary operation).traits.arity = 2 := by cases operation <;> rfl
    match stack, two with
    | b :: a :: below, _ => exact ⟨_, rfl, by rw [arity]; simp⟩
  · match stack, enough with
    | a :: below, _ => exact ⟨_, rfl, by simp [Operator.traits]⟩

theorem operate?_of_lt {stack : ValueStack} {op : Operator} (few : stack.length < op.traits.arity) :
    stack.operate? op = none := by
  rcases op with operation | _
  · have two : stack.length < 2 := by cases operation <;> exact few
    match stack, two with
    | [], _ => rfl
    | [a], _ => rfl
  · match stack, few with
    | [], _ => rfl

/-- The counter follows the height of the stack. -/
theorem operandCount_eq (row : List Token) (stack : ValueStack) :
    operandCount stack.length row = (row.foldlM ValueStack.accept stack).toOption.map List.length := by
  -- A token changes the height of the stack as it changes the counter.
  induction row generalizing stack with
  | nil => rfl
  | cons token row ih =>
    rw [List.foldlM_cons, operandCount, ValueStack.accept]
    cases lexeme : token.lexeme with
    | number text value => exact ih (value :: stack)
    | leftParen => rfl
    | rightParen => rfl
    | operator op =>
      simp only
      by_cases enough : op.traits.arity ≤ stack.length
      · obtain ⟨next, found, height⟩ := operate?_of_le enough
        rw [if_pos enough, found, ← height]
        exact ih next
      · -- The counter and the stack give up at the same operator.
        rw [if_neg enough, operate?_of_lt (Nat.lt_of_not_le enough)]
        rfl

theorem postfixValue_eq (row : List Token) :
    postfixValue row = row.foldlM ValueStack.accept [] >>= ValueStack.result := by
  rw [postfixValue, postfixStreamValue]
  cases row.foldlM ValueStack.accept [] <;> rfl

theorem result_eq_ok {stack : ValueStack} {value : Binary64} : stack.result = .ok value ↔ stack = [value] := by
  match stack with
  | [] => simp [ValueStack.result]
  | [only] => simp [ValueStack.result]
  | a :: b :: below => simp [ValueStack.result]

/-- A row has a value exactly if the counter says that one value is left. -/
theorem postfixValue_iff (row : List Token) :
    (∃ value, postfixValue row = .ok value) ↔ operandCount 0 row = some 1 := by
  have counted := operandCount_eq row []
  rw [List.length_nil] at counted
  simp only [counted, postfixValue_eq, bind_eq_ok, result_eq_ok]
  constructor
  · rintro ⟨value, stack, folded, rfl⟩
    rw [folded]
    rfl
  · intro one
    cases folded : row.foldlM ValueStack.accept [] with
    | error fault =>
      rw [folded] at one
      cases one
    | ok stack =>
      rw [folded] at one
      obtain ⟨value, rfl⟩ := List.length_eq_one_iff.mp (Option.some.inj one)
      exact ⟨value, [value], rfl, rfl⟩

/-! ### Phrases -/

/-- The row of a phrase puts the value of the phrase on the stack. -/
theorem Phrase.order {level : Level} {tokens : List Token} {value : Binary64}
    (phrase : Phrase level tokens value) :
    ∃ row, Reorders level tokens row ∧
      ∀ stack : ValueStack, row.foldlM ValueStack.accept stack = .ok (value :: stack) := by
  induction phrase with
  | number lexeme =>
    refine ⟨_, .tighter (.number lexeme .empty), fun stack => ?_⟩
    simp [ValueStack.accept, lexeme, pure, Except.pure, bind, Except.bind]
  | group opens closes _ ih =>
    obtain ⟨row, inside, run⟩ := ih
    exact ⟨_, .tighter (.group opens closes .empty inside), run⟩
  | sign lexeme _ ih =>
    obtain ⟨row, operand, run⟩ := ih
    refine ⟨_, .sign lexeme .empty operand, fun stack => ?_⟩
    simp [run, ValueStack.accept, ValueStack.operate?, lexeme, pure, Except.pure, bind, Except.bind]
  | operation operation lexeme _ _ ihFirst ihSecond =>
    obtain ⟨first, before, runFirst⟩ := ihFirst
    obtain ⟨second, after, runSecond⟩ := ihSecond
    refine ⟨_, .operation operation lexeme before after, fun stack => ?_⟩
    simp [runFirst, runSecond, ValueStack.accept, ValueStack.operate?, lexeme, pure, Except.pure, bind,
      Except.bind]
  | tighter _ ih =>
    obtain ⟨row, inner, run⟩ := ih
    exact ⟨row, .tighter inner, run⟩

/-- A phrase has the value of its derivation. -/
theorem Phrase.value {tokens : List Token} {value : Binary64} (phrase : Phrase .sum tokens value) :
    (postfixRow ⟨tokens, none⟩ >>= postfixValue) = .ok value := by
  obtain ⟨row, order, run⟩ := phrase.order
  refine bind_eq_ok.mpr ⟨row, order.postfixRow_eq, ?_⟩
  rw [postfixValue_eq]
  exact bind_eq_ok.mpr ⟨[value], run [], rfl⟩

/-! ### Rows in which no value follows another -/

/-- How many values a lexeme adds to the stack. -/
def Lexeme.surplus : Lexeme → Int
  | number .. => 1
  | operator op => 1 - op.traits.arity
  | leftParen | rightParen => 0

/-- How many values a row of tokens adds to the stack, in whatever order it is read. -/
def surplus : List Token → Int
  | [] => 0
  | token :: tokens => token.lexeme.surplus + surplus tokens

@[simp] theorem surplus_nil : surplus [] = 0 := rfl

@[simp] theorem surplus_cons (token : Token) (tokens : List Token) :
    surplus (token :: tokens) = token.lexeme.surplus + surplus tokens := rfl

@[simp] theorem surplus_append (first second : List Token) :
    surplus (first ++ second) = surplus first + surplus second := by
  induction first with
  | nil => simp
  | cons token first ih =>
    rw [List.cons_append, surplus_cons, surplus_cons, ih]
    omega

theorem surplus_of_operandCount {row : List Token} {values left : Nat}
    (counted : operandCount values row = some left) : (left : Int) = values + surplus row := by
  induction row generalizing values with
  | nil =>
    cases counted
    simp
  | cons token row ih =>
    rw [operandCount] at counted
    cases lexeme : token.lexeme with
    | number text value =>
      simp only [lexeme] at counted
      have rest := ih counted
      simp only [surplus_cons, lexeme, Lexeme.surplus]
      omega
    | operator op =>
      simp only [lexeme] at counted
      split at counted
      next enough =>
        have rest := ih counted
        simp only [surplus_cons, lexeme, Lexeme.surplus]
        omega
      next => cases counted
    | leftParen => simp [lexeme] at counted
    | rightParen => simp [lexeme] at counted

theorem Reorders.surplus_eq {level : Level} {tokens row : List Token}
    (order : Reorders level tokens row) : surplus tokens = surplus row := by
  induction order with
  | empty => rfl
  | number _ _ ih => simp [ih]
  | group opens closes _ _ ihBefore ihInside =>
    simp [ihBefore, ihInside, opens, closes, Lexeme.surplus]
  | sign _ _ _ ihBefore ihAfter =>
    simp [ihBefore, ihAfter]
    omega
  | operation _ _ _ _ ihBefore ihAfter =>
    simp [ihBefore, ihAfter]
    omega
  | tighter _ ih => exact ih

def Lexeme.endsValue : Lexeme → Bool
  | number .. | rightParen => true
  | _ => false

def Lexeme.startsValue : Lexeme → Bool
  | number .. | leftParen | operator .negate => true
  | _ => false

/-- No value directly follows another. -/
def Apart (tokens : List Token) : Prop :=
  tokens.IsChain fun one next => one.lexeme.endsValue = true → next.lexeme.startsValue = false

/-- A row of values ends with one, unless it is empty. -/
private theorem Reorders.endsValue {level : Level} {run row : List Token}
    (order : Reorders level run row) (values : level = .values) :
    run = [] ∨ ∃ last ∈ run.getLast?, last.lexeme.endsValue = true := by
  induction order with
  | empty => exact .inl rfl
  | number lexeme _ => exact .inr ⟨_, List.getLast?_concat, by rw [lexeme]; rfl⟩
  | @group opening closing run _ tokens _ _ closes _ _ =>
    have last : (run ++ opening :: (tokens ++ [closing])).getLast? = some closing := by
      rw [← List.cons_append, ← List.append_assoc, List.getLast?_concat]
    exact .inr ⟨closing, last, by rw [closes]; rfl⟩
  | sign => cases values
  | operation operation => cases operation <;> cases values
  | tighter _ ih =>
    subst values
    exact ih rfl

/-- Where no value follows another, nothing stands before the token that starts one. -/
private theorem Reorders.alone {run row rest : List Token} {token : Token}
    (order : Reorders .values run row) (apart : Apart (run ++ token :: rest))
    (starts : token.lexeme.startsValue = true) : run = [] := by
  -- Otherwise the row before the token ends with a value, which the token would follow.
  rcases order.endsValue rfl with nothing | ⟨last, member, ends⟩
  · exact nothing
  · have separate := (List.isChain_append.mp apart).2.2 last member token rfl ends
    rw [starts] at separate
    cases separate

/-- The level of what a row of a level can be, if it is one value. -/
def Level.single : Level → Level
  | values => signed
  | level => level

/-- Where no value follows another, a row leaves at most one value, and then it is a phrase. -/
theorem Reorders.phrase {level : Level} {tokens row : List Token} (order : Reorders level tokens row) :
    Apart tokens → surplus tokens ≤ 1 ∧
      (surplus tokens = 1 → ∃ value, Phrase level.single tokens value) := by
  induction order with
  | empty => simp
  | number lexeme before _ =>
    intro apart
    -- Nothing can stand before a number, so it is the only value.
    cases before.alone apart (by rw [lexeme]; rfl)
    simp only [List.nil_append, surplus_cons, lexeme, Lexeme.surplus, surplus_nil]
    exact ⟨by decide, fun _ => ⟨_, .number lexeme⟩⟩
  | group opens closes before _ _ ihInside =>
    intro apart
    cases before.alone apart (by rw [opens]; rfl)
    -- Parentheses add no value, so a group leaves what its inside leaves.
    have inner := (List.isChain_append.mp (List.isChain_cons.mp apart).2).1
    obtain ⟨few, one⟩ := ihInside inner
    simp only [List.nil_append, surplus_cons, surplus_append, opens, closes, Lexeme.surplus, surplus_nil,
      Int.add_zero, Int.zero_add]
    refine ⟨few, fun exact_one => ?_⟩
    obtain ⟨value, phrase⟩ := one exact_one
    exact ⟨value, .group opens closes phrase⟩
  | sign lexeme before _ _ ihAfter =>
    intro apart
    -- A sign leaves as many values as its operand.
    cases before.alone apart (by rw [lexeme]; rfl)
    obtain ⟨few, one⟩ := ihAfter (List.isChain_cons.mp apart).2
    have none : (Operator.negate.traits.arity : Int) = 1 := rfl
    simp only [List.nil_append, surplus_cons, lexeme, Lexeme.surplus, none, Int.sub_self, Int.zero_add]
    refine ⟨few, fun exact_one => ?_⟩
    obtain ⟨value, phrase⟩ := one exact_one
    exact ⟨-value, .sign lexeme phrase⟩
  | operation operation lexeme _ _ ihBefore ihAfter =>
    intro apart
    obtain ⟨left, rest, -⟩ := List.isChain_append.mp apart
    obtain ⟨few, one⟩ := ihBefore left
    obtain ⟨few', one'⟩ := ihAfter (List.isChain_cons.mp rest).2
    have two : ((Operator.binary operation).traits.arity : Int) = 2 := by cases operation <;> rfl
    simp only [surplus_append, surplus_cons, lexeme, Lexeme.surplus, two]
    -- Each operand leaves at most one value and the operation takes one away, so one is left only of two.
    refine ⟨by omega, fun exact_one => ?_⟩
    obtain ⟨a, first⟩ := one (by omega)
    obtain ⟨b, second⟩ := one' (by omega)
    refine ⟨operation.apply a b, ?_⟩
    have levels : operation.leftLevel.single = operation.leftLevel ∧
        operation.rightLevel.single = operation.rightLevel ∧
        operation.level.single = operation.level := by cases operation <;> decide
    rw [levels.1] at first
    rw [levels.2.1] at second
    rw [levels.2.2]
    exact .operation operation lexeme first second
  | @tighter level _ _ _ ih =>
    intro apart
    obtain ⟨few, one⟩ := ih apart
    refine ⟨few, fun exact_one => ?_⟩
    obtain ⟨value, phrase⟩ := one exact_one
    refine ⟨value, ?_⟩
    cases level with
    | signed | values => exact phrase
    | sum | product | power => exact .tighter phrase

/-- A row in which no value follows another has a value exactly if it is a phrase. -/
theorem phrase_of_value {tokens row : List Token} (order : Reorders .sum tokens row)
    (counted : operandCount 0 row = some 1) (apart : Apart tokens) :
    ∃ value, Phrase .sum tokens value := by
  have left := surplus_of_operandCount counted
  refine (order.phrase apart).2 ?_
  rw [order.surplus_eq]
  omega

end Reckoner
