import Reckoner.Expression
import Reckoner.Proofs.Checked.Arithmetic
import Reckoner.Proofs.Checked.Ordering
import Reckoner.Proofs.Postfix.Operands

/-!
# Values from bare tokens

The value stack over bare tokens: a number may lack its value, the stack may be empty, a second table may lack
an operator that the first one has, and the arithmetic refuses what it has no result for.

* `functionNamed_symbol`, every operation has its function.
* `evaluate_eq`, the value of a text is found without a breakdown.
-/

namespace Reckoner

namespace Checked

open Binary64

/-! ### The value stack -/

/-- The functions of the binary operations, by name. -/
def functionNamed (text : String) : Checked (Binary64 → Binary64 → Checked Binary64) :=
  match Operation.all.find? (·.char.toString == text) with
  | some .div => return divide
  | some .pow => return recoverPower
  | some operation => return fun a b => return operation.apply a b
  | none => throw (.breakdown ⟨.key, Text.quoted text⟩)

def pop {α : Type} : List α → Checked (α × List α)
  | [] => throw (.breakdown ⟨.index, "pop from empty list"⟩)
  | top :: below => return (top, below)

/-- The value of a number, which may be missing. -/
def needed : Option Binary64 → Checked Binary64
  | some value => return value
  | none => throw (.breakdown ⟨.missing, "must be real number, not NoneType"⟩)

def reduceToken (stack : List (Option Binary64)) (token : RawToken) : Checked (List (Option Binary64)) :=
  match token.kind with
  | .number => return token.value :: stack
  | .leftParen => throw (.fault (.unexpectedToken .leftParen))
  | .rightParen => throw (.fault (.unexpectedToken .rightParen))
  | .operator => do
    let op ← operatorNamed token.text
    if stack.length < op.traits.arity then throw (.fault (.missingOperand op))
    else if op.traits.arity = 1 then
      let (a, below) ← pop stack
      return some (-(← needed a)) :: below
    else
      let (b, below) ← pop stack
      let (a, below) ← pop below
      let function ← functionNamed token.text
      return some (← function (← needed a) (← needed b)) :: below

def onlyValue (stack : List (Option Binary64)) : Checked (Option Binary64) :=
  if stack.length ≠ 1 then
    if stack.isEmpty then throw (.fault .emptyExpression) else throw (.fault (.missingOperator stack.length))
  else
    match stack[0]? with
    | some value => return value
    | none => throw (.breakdown ⟨.index, "list index out of range"⟩)

/-- The value of a text, with every operation checked. It may turn out to be missing. -/
def evaluate (text : String) : Checked (Option Binary64) := do
  let row ← arrange text.toList 0 []
  let stack ← row.foldlM reduceToken []
  onlyValue stack

/-- The table of functions has every operation that the table of operators has. -/
theorem functionNamed_symbol (operation : Operation) :
    ∃ function, functionNamed (Operator.binary operation).symbol = .ok function ∧
      ∀ a b, function a b = .ok (operation.apply a b) := by
  cases operation with
  | div => exact ⟨divide, rfl, divide_eq⟩
  | pow => exact ⟨recoverPower, rfl, recoverPower_eq⟩
  | _ => exact ⟨_, rfl, fun a b => rfl⟩

theorem reduceToken_raw (stack : ValueStack) (token : Token) :
    reduceToken (stack.map some) token.raw = lift (List.map some) (stack.accept token) := by
  rw [reduceToken, ValueStack.accept]
  cases lexeme : token.lexeme with
  | number text value => simp [lexeme, Lexeme.kind, Lexeme.value?]
  | leftParen => simp [lexeme, Lexeme.kind]
  | rightParen => simp [lexeme, Lexeme.kind]
  | operator op =>
    obtain ⟨kind, name⟩ := Token.raw_operator lexeme
    simp only [kind, name, operatorNamed_symbol, ok_bind]
    rcases op with operation | _
    · have arity : (Operator.binary operation).traits.arity = 2 := by cases operation <;> rfl
      obtain ⟨function, named, values⟩ := functionNamed_symbol operation
      rw [arity]
      rcases stack with _ | ⟨b, _ | ⟨a, below⟩⟩
      · rfl
      · rfl
      · simp [pop, needed, named, values, ValueStack.operate?]
    · cases stack with
      | nil => rfl
      | cons a below => rfl

theorem foldlM_reduceToken (row : List Token) (stack : ValueStack) :
    (row.map Token.raw).foldlM reduceToken (stack.map some) =
      lift (List.map some) (row.foldlM ValueStack.accept stack) := by
  induction row generalizing stack with
  | nil => rfl
  | cons token row ih =>
    rw [List.map_cons, List.foldlM_cons, List.foldlM_cons, reduceToken_raw]
    cases stack.accept token with
    | error fault => rfl
    | ok next => exact ih next

theorem onlyValue_eq (stack : ValueStack) : onlyValue (stack.map some) = lift some stack.result := by
  match stack with
  | [] => rfl
  | [value] => rfl
  | a :: b :: below => simp [onlyValue, ValueStack.result]

/-- Nothing breaks down on the way to the value of a text, and the value is there. -/
theorem evaluate_eq (text : String) : evaluate text = lift some (Reckoner.evaluate text) := by
  rw [evaluate, arrange_eq, Reckoner.evaluate]
  cases postfixRow (scan text) with
  | error fault => rfl
  | ok row =>
    have folded := foldlM_reduceToken row []
    rw [List.map_nil] at folded
    rw [lift_ok, ok_bind, ok_bind, folded, postfixValue_eq]
    cases row.foldlM ValueStack.accept [] with
    | error fault => rfl
    | ok stack => exact onlyValue_eq stack

/-- A bare token that no text yields does make an operation break down. -/
example : reduceToken [] ⟨.operator, "%", none, none⟩ = .error (.breakdown ⟨.key, Text.quoted "%"⟩) := rfl

end Checked

end Reckoner
