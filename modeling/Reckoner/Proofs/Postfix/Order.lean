import Reckoner.Postfix
import Reckoner.Proofs.Infix

/-!
# The order of a postfix row

`Reorders level tokens row` says in which order the tokens of a row stand behind their operands, without a
stack. It reads the tokens by the grammar of expressions, but loosely: an operand may be any row of numbers
and groups, also none or several.

Main result: `postfixRow_iff`, the operator stack finds this order for every row of tokens that has one, and
fails for all others.
-/

namespace Reckoner

/-- The postfix row of infix tokens, read loosely at a level. -/
inductive Reorders : Level → List Token → List Token → Prop
  | empty : Reorders .values [] []
  | number {token : Token} {text : String} {value : Binary64} {run row : List Token}
      (lexeme : token.lexeme = .number text value) (before : Reorders .values run row) :
      Reorders .values (run ++ [token]) (row ++ [token])
  | group {opening closing : Token} {run row tokens inner : List Token}
      (opens : opening.lexeme = .leftParen) (closes : closing.lexeme = .rightParen)
      (before : Reorders .values run row) (inside : Reorders .sum tokens inner) :
      Reorders .values (run ++ opening :: (tokens ++ [closing])) (row ++ inner)
  | sign {token : Token} {run row tokens operand : List Token}
      (lexeme : token.lexeme = .operator .negate) (before : Reorders .values run row)
      (after : Reorders .signed tokens operand) :
      Reorders .signed (run ++ token :: tokens) (row ++ operand ++ [token])
  | operation {token : Token} {left right first second : List Token} (operation : Operation)
      (lexeme : token.lexeme = .operator (.binary operation))
      (before : Reorders operation.leftLevel left first)
      (after : Reorders operation.rightLevel right second) :
      Reorders operation.level (left ++ token :: right) (first ++ second ++ [token])
  | tighter {level : Level} {tokens row : List Token} (inner : Reorders level.tighter tokens row) :
      Reorders level tokens row

/-! ### Levels and traits -/

/-- The precedence of the operators of a level. Values have none, and are tighter than all of them. -/
def Level.precedence : Level → Int
  | sum => 1
  | product => 2
  | power => 3
  | signed => 4
  | values => 5

def Operator.level : Operator → Level
  | binary operation => operation.level
  | negate => .signed

theorem Level.precedence_le_tighter (level : Level) : level.precedence ≤ level.tighter.precedence := by
  cases level <;> decide

theorem Level.precedence_le_values (level : Level) : level.precedence ≤ values.precedence := by
  cases level <;> decide

theorem Level.sum_precedence_le (level : Level) : sum.precedence ≤ level.precedence := by
  cases level <;> decide

/-- A row of operators of a level or a tighter one. -/
def Pending (level : Level) (tokens : List Token) : Prop :=
  ∀ token ∈ tokens, ∃ op, token.lexeme = .operator op ∧ level.precedence ≤ op.level.precedence

theorem Pending.looser {level : Level} {tokens : List Token} (pending : Pending level.tighter tokens) :
    Pending level tokens := by
  intro token member
  obtain ⟨op, lexeme, bound⟩ := pending token member
  exact ⟨op, lexeme, Int.le_trans level.precedence_le_tighter bound⟩

theorem Pending.right {operation : Operation} {tokens : List Token}
    (pending : Pending operation.rightLevel tokens) : Pending operation.level tokens := by
  cases operation with
  | add | sub => exact @Pending.looser .sum tokens pending
  | mul | div => exact @Pending.looser .product tokens pending
  | pow => exact pending

theorem Pending.snoc {level : Level} {tokens : List Token} {token : Token} {op : Operator}
    (pending : Pending level tokens) (lexeme : token.lexeme = .operator op)
    (bound : level.precedence ≤ op.level.precedence) : Pending level (tokens ++ [token]) := by
  intro other member
  rcases List.mem_append.mp member with old | new
  · exact pending other old
  · cases List.mem_singleton.mp new
    exact ⟨op, lexeme, bound⟩

theorem Pending.values {tokens : List Token} (pending : Pending .values tokens) : tokens = [] := by
  cases tokens with
  | nil => rfl
  | cons token tokens =>
    obtain ⟨op, -, bound⟩ := pending token List.mem_cons_self
    rcases op with (_ | _ | _ | _ | _) | _ <;> exact absurd bound (by decide)

/-- An operation makes everything pending in its left operand leave the stack. -/
theorem Pending.yields {operation : Operation} {tokens : List Token}
    (pending : Pending operation.leftLevel tokens) :
    ∀ token ∈ tokens, OperatorStack.yieldsTo (.binary operation) token = true := by
  intro token member
  obtain ⟨op, lexeme, bound⟩ := pending token member
  rw [OperatorStack.yieldsTo, lexeme]
  revert bound
  -- The table of traits decides about each pair of operators.
  rcases op with (_ | _ | _ | _ | _) | _ <;> cases operation <;> decide

/-- No operator of the level or a tighter one makes the top of the stack leave. -/
def Blocks (level : Level) (stack : OperatorStack) : Prop :=
  ∀ op : Operator, level.precedence ≤ op.level.precedence →
    ∀ top ∈ stack.head?, OperatorStack.yieldsTo op top = false

theorem blocks_nil (level : Level) : Blocks level [] := by
  intro op bound top member
  cases member

theorem blocks_paren {paren : Token} (level : Level) (stack : OperatorStack)
    (opens : paren.lexeme = .leftParen) : Blocks level (paren :: stack) := by
  intro op bound top member
  cases Option.mem_some.mp member
  rw [OperatorStack.yieldsTo, opens]

theorem blocks_sign {token : Token} (stack : OperatorStack)
    (lexeme : token.lexeme = .operator .negate) : Blocks .signed (token :: stack) := by
  intro op bound top member
  cases Option.mem_some.mp member
  rw [OperatorStack.yieldsTo, lexeme]
  revert bound
  rcases op with (_ | _ | _ | _ | _) | _ <;> decide

theorem blocks_operation {token : Token} {operation : Operation} (stack : OperatorStack)
    (lexeme : token.lexeme = .operator (.binary operation)) :
    Blocks operation.rightLevel (token :: stack) := by
  intro op bound top member
  cases Option.mem_some.mp member
  rw [OperatorStack.yieldsTo, lexeme]
  revert bound
  rcases op with (_ | _ | _ | _ | _) | _ <;> cases operation <;> decide

theorem Blocks.tighter {level : Level} {stack : OperatorStack} (blocks : Blocks level stack) :
    Blocks level.tighter stack := fun op bound =>
  blocks op (Int.le_trans level.precedence_le_tighter bound)

theorem Blocks.left {operation : Operation} {stack : OperatorStack}
    (blocks : Blocks operation.level stack) : Blocks operation.leftLevel stack := by
  cases operation with
  | pow => exact blocks.tighter
  | _ => exact blocks

/-! ### What one token does to the stack -/

theorem accept_number {token : Token} {text : String} {value : Binary64} (stack : OperatorStack)
    (lexeme : token.lexeme = .number text value) : stack.accept token = .ok ([token], stack) := by
  rw [OperatorStack.accept, lexeme]

theorem accept_leftParen {token : Token} (stack : OperatorStack) (lexeme : token.lexeme = .leftParen) :
    stack.accept token = .ok ([], token :: stack) := by
  rw [OperatorStack.accept, lexeme]

/-- An operator outputs what yields to it and rests on what does not. -/
theorem accept_operator {token : Token} {op : Operator} {pending : List Token} {stack : OperatorStack}
    (lexeme : token.lexeme = .operator op)
    (yields : ∀ t ∈ pending, OperatorStack.yieldsTo op t = true)
    (blocked : ∀ top ∈ stack.head?, OperatorStack.yieldsTo op top = false) :
    OperatorStack.accept (pending ++ stack) token = .ok (pending, token :: stack) := by
  -- What is pending leaves as a whole, and what blocks the operator stays.
  have stays : stack.takeWhile (OperatorStack.yieldsTo op) = [] ∧
      stack.dropWhile (OperatorStack.yieldsTo op) = stack := by
    cases stack with
    | nil => exact ⟨rfl, rfl⟩
    | cons top stack => simp [blocked top rfl]
  rw [OperatorStack.accept, lexeme]
  simp only [List.takeWhile_append_of_pos yields, List.dropWhile_append_of_pos yields, stays,
    List.append_nil]

theorem Pending.not_paren {level : Level} {tokens : List Token} (pending : Pending level tokens) :
    ∀ token ∈ tokens, (!OperatorStack.isLeftParen token) = true := by
  intro token member
  obtain ⟨op, lexeme, -⟩ := pending token member
  simp [OperatorStack.isLeftParen, lexeme]

/-- A closing parenthesis outputs what is pending and takes its opening one away. -/
theorem accept_rightParen {token paren : Token} {level : Level} {pending : List Token}
    (stack : OperatorStack) (lexeme : token.lexeme = .rightParen) (opens : paren.lexeme = .leftParen)
    (operators : Pending level pending) :
    OperatorStack.accept (pending ++ paren :: stack) token = .ok (pending, stack) := by
  have stops : OperatorStack.isLeftParen paren = true := by simp [OperatorStack.isLeftParen, opens]
  have taken : (paren :: stack).takeWhile (!OperatorStack.isLeftParen ·) = [] := by simp [stops]
  have dropped : (paren :: stack).dropWhile (!OperatorStack.isLeftParen ·) = paren :: stack := by
    simp [stops]
  rw [OperatorStack.accept, lexeme]
  simp only [List.takeWhile_append_of_pos operators.not_paren,
    List.dropWhile_append_of_pos operators.not_paren, taken, dropped, List.append_nil]

/-! ### The parentheses on the stack -/

/-- The opening parentheses on the stack, the last one first. -/
def OperatorStack.parens (stack : OperatorStack) : List Token := stack.filter isLeftParen

theorem isLeftParen_iff {token : Token} :
    OperatorStack.isLeftParen token = true ↔ token.lexeme = .leftParen := by
  simp [OperatorStack.isLeftParen]

private theorem filter_dropWhile {p q : Token → Bool} (apart : ∀ token, p token = true → q token = false)
    (tokens : List Token) : (tokens.dropWhile p).filter q = tokens.filter q := by
  induction tokens with
  | nil => rfl
  | cons token tokens ih =>
    cases passed : p token with
    | false => rw [List.dropWhile_cons_of_neg (by simp [passed])]
    | true =>
      rw [List.dropWhile_cons_of_pos passed, ih, List.filter_cons_of_neg (by simp [apart token passed])]

theorem parens_leftParen {token : Token} (stack : OperatorStack) (lexeme : token.lexeme = .leftParen) :
    OperatorStack.parens (token :: stack) = token :: stack.parens :=
  List.filter_cons_of_pos (isLeftParen_iff.mpr lexeme)

/-- An operator is always accepted and leaves the parentheses alone. -/
theorem parens_operator {token : Token} {op : Operator} (stack : OperatorStack)
    (lexeme : token.lexeme = .operator op) :
    ∃ output next, stack.accept token = .ok (output, next) ∧ next.parens = stack.parens := by
  have apart : ∀ other, OperatorStack.yieldsTo op other = true →
      OperatorStack.isLeftParen other = false := by
    intro other yields
    cases kind : other.lexeme <;>
      simp [OperatorStack.yieldsTo, OperatorStack.isLeftParen, kind] at yields ⊢
  have not_paren : ¬ OperatorStack.isLeftParen token = true := by
    simp [OperatorStack.isLeftParen, lexeme]
  refine ⟨stack.takeWhile (OperatorStack.yieldsTo op),
    token :: stack.dropWhile (OperatorStack.yieldsTo op), ?_, ?_⟩
  · rw [OperatorStack.accept, lexeme]
  · rw [OperatorStack.parens, List.filter_cons_of_neg not_paren, filter_dropWhile apart]
    rfl

/-- A closing parenthesis takes the last opening one away, and is refused if there is none. -/
theorem parens_rightParen {token : Token} (stack : OperatorStack) (lexeme : token.lexeme = .rightParen) :
    (stack.parens = [] ∧ stack.accept token = .error (.unopened token.position)) ∨
      ∃ paren output next, stack.parens = paren :: next.parens ∧
        stack.accept token = .ok (output, next) := by
  have kept : (stack.dropWhile (!OperatorStack.isLeftParen ·)).filter OperatorStack.isLeftParen =
      stack.filter OperatorStack.isLeftParen :=
    filter_dropWhile (fun other passed => by simpa using passed) stack
  rw [OperatorStack.accept, lexeme, OperatorStack.parens, ← kept]
  cases below : stack.dropWhile (!OperatorStack.isLeftParen ·) with
  | nil => exact .inl ⟨rfl, rfl⟩
  | cons paren next =>
    have opens : OperatorStack.isLeftParen paren = true := by
      have stopped := List.head?_dropWhile_not (!OperatorStack.isLeftParen ·) stack
      simpa [below] using stopped
    exact .inr ⟨paren, _, next, List.filter_cons_of_pos opens, rfl⟩

/-- The last parenthesis on the stack is reported at the end. -/
theorem close_eq (stack : OperatorStack) :
    stack.close =
      match stack.parens with
      | [] => .ok stack
      | paren :: _ => .error (.unclosed paren.position) := by
  have found : stack.find? OperatorStack.isLeftParen = stack.parens.head? := List.head?_filter.symm
  rw [OperatorStack.close, found]
  cases stack.parens <;> rfl

/-! ### Runs of the operator stack -/

theorem drain_ok {stack next : OperatorStack} {token : Token} {output tokens : List Token}
    {fault : Option Fault} (accepted : stack.accept token = .ok (output, next)) :
    stack.drain (token :: tokens) fault = (next.drain tokens fault).map (output ++ ·) := by
  rw [OperatorStack.drain, accepted]
  cases drained : next.drain tokens fault <;> simp [bind, Except.bind, drained, pure, Except.pure, Except.map]

theorem drain_error {stack : OperatorStack} {token : Token} {tokens : List Token} {fault : Option Fault}
    {found : Fault} (refused : stack.accept token = .error found) :
    stack.drain (token :: tokens) fault = .error found := by
  rw [OperatorStack.drain, refused]
  rfl

/-- A row of tokens takes the stack to another one and outputs tokens on the way. -/
inductive Accepts : OperatorStack → List Token → List Token → OperatorStack → Prop
  | done {stack : OperatorStack} : Accepts stack [] [] stack
  | step {stack next final : OperatorStack} {token : Token} {tokens now later : List Token}
      (accepted : stack.accept token = .ok (now, next)) (run : Accepts next tokens later final) :
      Accepts stack (token :: tokens) (now ++ later) final

theorem Accepts.trans {stack middle final : OperatorStack} {first second output more : List Token}
    (left : Accepts stack first output middle) (right : Accepts middle second more final) :
    Accepts stack (first ++ second) (output ++ more) final := by
  induction left with
  | done => exact right
  | step accepted _ ih =>
    rw [List.append_assoc]
    exact .step accepted (ih right)

theorem Accepts.single {stack next : OperatorStack} {token : Token} {now : List Token}
    (accepted : stack.accept token = .ok (now, next)) : Accepts stack [token] now next := by
  have run := Accepts.step accepted .done
  rwa [List.append_nil] at run

theorem Accepts.drain {stack final : OperatorStack} {tokens output : List Token}
    (run : Accepts stack tokens output final) (rest : List Token) (fault : Option Fault) :
    stack.drain (tokens ++ rest) fault = (final.drain rest fault).map (output ++ ·) := by
  induction run with
  | @done stack =>
    rw [List.nil_append]
    cases stack.drain rest fault <;> rfl
  | @step stack next final token tokens now later accepted _ ih =>
    rw [List.cons_append, drain_ok accepted, ih]
    cases final.drain rest fault <;> simp [Except.map]

/-- A run that leaves operators on an opening parenthesis ends with them at the closing one. -/
theorem Accepts.enclosed {opening closing : Token} {level : Level} {stack : OperatorStack}
    {inside output pending : List Token} (opens : opening.lexeme = .leftParen)
    (closes : closing.lexeme = .rightParen)
    (run : Accepts (opening :: stack) inside output (pending ++ opening :: stack))
    (operators : Pending level pending) :
    Accepts stack (opening :: (inside ++ [closing])) (output ++ pending) stack := by
  have first := Accepts.single (accept_leftParen stack opens)
  have last := Accepts.single (accept_rightParen stack closes opens operators)
  exact first.trans (run.trans last)

theorem Accepts.split {stack final : OperatorStack} {first second output : List Token}
    (run : Accepts stack (first ++ second) output final) :
    ∃ early late middle, output = early ++ late ∧ Accepts stack first early middle ∧
      Accepts middle second late final := by
  induction first generalizing stack output with
  | nil => exact ⟨[], output, stack, rfl, .done, run⟩
  | cons token first ih =>
    cases run with
    | step accepted run =>
      obtain ⟨early, late, middle, rfl, left, right⟩ := ih run
      exact ⟨_, late, middle, (List.append_assoc ..).symm, .step accepted left, right⟩

/-- A stream that drains without a fault is accepted as a whole, and leaves no parenthesis on the stack. -/
theorem accepts_of_drain {stack : OperatorStack} {tokens row : List Token} {fault : Option Fault}
    (drained : stack.drain tokens fault = .ok row) :
    fault = none ∧ ∃ output final, Accepts stack tokens output final ∧ final.parens = [] ∧
      row = output ++ final := by
  induction tokens generalizing stack row with
  | nil =>
    -- A fault behind the tokens would be met here.
    cases fault with
    | some fault => cases drained
    | none =>
      rw [OperatorStack.drain, close_eq] at drained
      cases parens : stack.parens with
      | cons paren rest => simp [parens] at drained
      | nil =>
        rw [parens] at drained
        cases drained
        exact ⟨rfl, [], stack, .done, parens, rfl⟩
  | cons token tokens ih =>
    cases accepted : stack.accept token with
    | error found =>
      rw [drain_error accepted] at drained
      cases drained
    | ok result =>
      rw [drain_ok accepted] at drained
      cases rest : result.2.drain tokens fault with
      | error found =>
        rw [rest] at drained
        cases drained
      | ok later =>
        rw [rest] at drained
        cases drained
        obtain ⟨clean, output, final, run, closed, rfl⟩ := ih rest
        exact ⟨clean, result.1 ++ output, final, .step accepted run, closed, (List.append_assoc ..).symm⟩

/-! ### The stack finds the order -/

/-- The stack outputs a row in order, up to operators of its level that are left on top. What was on the
stack before stays, if it blocks the level. -/
theorem Reorders.accepts {level : Level} {tokens row : List Token} (order : Reorders level tokens row) :
    ∀ {stack : OperatorStack}, Blocks level stack →
      ∃ output pending, Accepts stack tokens output (pending ++ stack) ∧ row = output ++ pending ∧
        Pending level pending := by
  induction order with
  | empty => exact fun _ => ⟨[], [], .done, rfl, by simp [Pending]⟩
  | number lexeme _ ih =>
    intro stack blocks
    -- In a row of values nothing is pending, so a number goes straight to the output.
    obtain ⟨output, pending, run, rfl, operators⟩ := ih blocks
    cases operators.values
    exact ⟨_, [], run.trans (.single (accept_number _ lexeme)), by simp, operators⟩
  | group opens closes _ _ ihBefore ihInside =>
    intro stack blocks
    obtain ⟨output, pending, run, rfl, operators⟩ := ihBefore blocks
    cases operators.values
    -- Inside, the opening parenthesis blocks every level.
    obtain ⟨output', pending', run', rfl, operators'⟩ := ihInside (blocks_paren .sum stack opens)
    refine ⟨_, [], run.trans (run'.enclosed opens closes operators'), by simp, operators⟩
  | @sign token _ _ _ _ lexeme _ _ ihBefore ihAfter =>
    intro stack blocks
    obtain ⟨output, pending, run, rfl, operators⟩ := ihBefore blocks.tighter
    cases operators.values
    -- The sign blocks its operand from the stack and stays pending below it.
    obtain ⟨output', pending', run', rfl, operators'⟩ := ihAfter (blocks_sign stack lexeme)
    have nothing : ∀ t ∈ ([] : List Token), OperatorStack.yieldsTo .negate t = true := by simp
    have own := Accepts.single (accept_operator lexeme nothing (blocks .negate (Int.le_refl _)))
    refine ⟨output ++ output', pending' ++ [token], ?_, ?_, operators'.snoc lexeme (Int.le_refl _)⟩
    · simpa using run.trans (own.trans run')
    · simp
  | @operation token _ _ _ _ operation lexeme _ _ ihBefore ihAfter =>
    intro stack blocks
    -- The operation first makes leave what its left operand left pending, then it blocks the stack itself.
    obtain ⟨output, pending, run, rfl, operators⟩ := ihBefore blocks.left
    obtain ⟨output', pending', run', rfl, operators'⟩ := ihAfter (blocks_operation stack lexeme)
    have own := Accepts.single
      (accept_operator lexeme operators.yields (blocks (.binary operation) (Int.le_refl _)))
    refine ⟨output ++ pending ++ output', pending' ++ [token], ?_, ?_,
      operators'.right.snoc lexeme (Int.le_refl _)⟩
    · simpa using run.trans (own.trans run')
    · simp
  | tighter _ ih =>
    intro stack blocks
    obtain ⟨output, pending, run, rfl, operators⟩ := ih blocks.tighter
    exact ⟨output, pending, run, rfl, operators.looser⟩

private theorem Pending.close {level : Level} {tokens : List Token} (pending : Pending level tokens) :
    OperatorStack.close tokens = .ok tokens := by
  have none_opens : OperatorStack.parens tokens = [] := by
    refine List.filter_eq_nil_iff.mpr fun token member opens => ?_
    have not_paren := pending.not_paren token member
    rw [opens] at not_paren
    cases not_paren
  rw [close_eq, none_opens]

theorem Reorders.postfixRow_eq {tokens row : List Token} (order : Reorders .sum tokens row) :
    postfixRow ⟨tokens, none⟩ = .ok row := by
  obtain ⟨output, pending, run, rfl, operators⟩ := order.accepts (blocks_nil .sum)
  -- What is still pending at the end is output, since no parenthesis is among it.
  have drained := run.drain [] none
  rw [List.append_nil] at drained
  rw [postfixRow, drained, OperatorStack.drain, List.append_nil, operators.close]
  rfl

/-! ### Other levels, other places -/

/-- What holds together at a level can be read at every looser one. -/
theorem Reorders.relaxed {inner outer : Level} {tokens row : List Token}
    (order : Reorders inner tokens row) (looser : outer.precedence ≤ inner.precedence) :
    Reorders outer tokens row := by
  by_cases same : outer = inner
  · exact same ▸ order
  · have next : outer.tighter.precedence ≤ inner.precedence ∧
        outer.precedence < outer.tighter.precedence ∧ inner.precedence ≤ 5 := by
      revert same looser
      cases outer <;> cases inner <;> decide
    exact .tighter (order.relaxed next.1)
termination_by (5 - outer.precedence).toNat
decreasing_by omega

/-- A row of values can be read at every level. -/
theorem Reorders.loosened {tokens row : List Token} (level : Level) (values : Reorders .values tokens row) :
    Reorders level tokens row :=
  values.relaxed level.precedence_le_values

/-- A row in order at any level is in order as an expression. -/
theorem Reorders.asSum {level : Level} {tokens row : List Token} (order : Reorders level tokens row) :
    Reorders .sum tokens row :=
  order.relaxed level.sum_precedence_le

theorem Reorders.nothing (level : Level) : Reorders level [] [] := .loosened level .empty

/-- The order of a row does not depend on where its tokens were read. -/
theorem Reorders.map {move : Token → Token} (same : ∀ token, (move token).lexeme = token.lexeme)
    {level : Level} {tokens row : List Token} (order : Reorders level tokens row) :
    Reorders level (tokens.map move) (row.map move) := by
  induction order with
  | empty => exact .empty
  | number lexeme _ ih =>
    rw [List.map_append, List.map_append]
    exact .number ((same _).trans lexeme) ih
  | group opens closes _ _ ihBefore ihInside =>
    simp only [List.map_append, List.map_cons, List.map_nil]
    exact .group ((same _).trans opens) ((same _).trans closes) ihBefore ihInside
  | sign lexeme _ _ ihBefore ihAfter =>
    simp only [List.map_append, List.map_cons, List.map_nil]
    exact .sign ((same _).trans lexeme) ihBefore ihAfter
  | operation operation lexeme _ _ ihBefore ihAfter =>
    simp only [List.map_append, List.map_cons, List.map_nil]
    exact .operation operation ((same _).trans lexeme) ihBefore ihAfter
  | tighter _ ih => exact .tighter ih

/-! ### Every row with matching parentheses has an order -/

/-- What can follow a row of values can follow every row, as part of its last operand. -/
private theorem Reorders.followed {more : List Token}
    (follows : ∀ run row, Reorders .values run row → ∃ row', Reorders .values (run ++ more) row')
    {level : Level} {tokens row : List Token} (order : Reorders level tokens row) :
    ∃ row', Reorders level (tokens ++ more) row' := by
  -- An operator ends with an operand, and that takes what follows.
  induction order with
  | empty => exact follows _ _ .empty
  | number lexeme before _ => exact follows _ _ (.number lexeme before)
  | group opens closes before inside _ _ => exact follows _ _ (.group opens closes before inside)
  | sign lexeme before _ _ ihAfter =>
    obtain ⟨row', after⟩ := ihAfter
    have longer := Reorders.sign lexeme before after
    rw [← List.cons_append, ← List.append_assoc] at longer
    exact ⟨_, longer⟩
  | operation operation lexeme before _ _ ihAfter =>
    obtain ⟨row', after⟩ := ihAfter
    have longer := Reorders.operation operation lexeme before after
    rw [← List.cons_append, ← List.append_assoc] at longer
    exact ⟨_, longer⟩
  | tighter _ ih =>
    obtain ⟨row', inner⟩ := ih
    exact ⟨row', .tighter inner⟩

/-- The level of what an operator takes on its left. -/
private def Operator.before : Operator → Level
  | binary operation => operation.leftLevel
  | negate => .values

/-- An operator behind its left operand, with nothing behind it yet. -/
private theorem Reorders.begins {token : Token} {op : Operator} {tokens row : List Token}
    (lexeme : token.lexeme = .operator op) (order : Reorders op.before tokens row) :
    ∃ row', Reorders op.level (tokens ++ [token]) row' := by
  cases op with
  | binary operation => exact ⟨_, .operation operation lexeme order (.nothing _)⟩
  | negate => exact ⟨_, .sign lexeme order (.nothing _)⟩

/-- An operator that holds as tightly as a level can follow every row of the level. -/
private theorem Reorders.operator {token : Token} {op : Operator} (lexeme : token.lexeme = .operator op)
    {level : Level} {tokens row : List Token} (order : Reorders level tokens row) :
    level.precedence ≤ op.level.precedence → ∃ row', Reorders level (tokens ++ [token]) row' := by
  have not_values : ¬ Level.values.precedence ≤ op.level.precedence := by
    rcases op with (_ | _ | _ | _ | _) | _ <;> decide
  induction order with
  | empty => exact fun bound => absurd bound not_values
  | number => exact fun bound => absurd bound not_values
  | group => exact fun bound => absurd bound not_values
  | sign own before _ _ ihAfter =>
    intro bound
    obtain ⟨row', after⟩ := ihAfter bound
    have longer := Reorders.sign own before after
    rw [← List.cons_append, ← List.append_assoc] at longer
    exact ⟨_, longer⟩
  | operation operation own before after _ ihAfter =>
    intro bound
    -- The operator belongs to the right operand, unless it is one of a chain that groups to the left.
    by_cases deeper : operation.rightLevel.precedence ≤ op.level.precedence
    · obtain ⟨row', after⟩ := ihAfter deeper
      have longer := Reorders.operation operation own before after
      rw [← List.cons_append, ← List.append_assoc] at longer
      exact ⟨_, longer⟩
    · have chained : op.before = operation.level ∧ op.level = operation.level := by
        revert bound deeper
        rcases op with (_ | _ | _ | _ | _) | _ <;> cases operation <;> decide
      have whole := Reorders.operation operation own before after
      rw [← chained.1] at whole
      have longer := Reorders.begins lexeme whole
      rwa [chained.2] at longer
  | @tighter level tokens row inner ih =>
    intro bound
    by_cases deeper : level.tighter.precedence ≤ op.level.precedence
    · obtain ⟨row', inner⟩ := ih deeper
      exact ⟨row', .tighter inner⟩
    · -- The operator begins at this very level, with the whole row as its left operand.
      have own : op.level = level ∧ (op.before = level ∨ op.before = level.tighter) := by
        revert bound deeper
        rcases op with (_ | _ | _ | _ | _) | _ <;> cases level <;> decide
      obtain ⟨rfl, same | next⟩ := own
      · have whole := Reorders.tighter inner
        exact Reorders.begins lexeme (same.symm ▸ whole)
      · exact Reorders.begins lexeme (next.symm ▸ inner)

/-- A row of tokens with some parentheses still open, the last one first. Between them it is in order. -/
inductive Opened : List Token → List Token → Prop
  | closed {tokens row : List Token} (order : Reorders .sum tokens row) : Opened tokens []
  | opened {paren : Token} {outside parens inside row : List Token}
      (opens : paren.lexeme = .leftParen) (outer : Opened outside parens)
      (order : Reorders .sum inside row) : Opened (outside ++ paren :: inside) (paren :: parens)

theorem Opened.followed {more tokens parens : List Token}
    (follows : ∀ run row, Reorders .sum run row → ∃ row', Reorders .sum (run ++ more) row')
    (opened : Opened tokens parens) : Opened (tokens ++ more) parens := by
  cases opened with
  | closed order =>
    obtain ⟨row', longer⟩ := follows _ _ order
    exact .closed longer
  | opened opens outer order =>
    obtain ⟨row', longer⟩ := follows _ _ order
    rw [List.append_assoc, List.cons_append]
    exact .opened opens outer longer

/-- One token keeps the parentheses on the stack those that are open. -/
theorem Opened.accept {token : Token} {stack next : OperatorStack} {tokens output : List Token}
    (opened : Opened tokens stack.parens) (accepted : stack.accept token = .ok (output, next)) :
    Opened (tokens ++ [token]) next.parens := by
  cases lexeme : token.lexeme with
  | number text value =>
    rw [accept_number stack lexeme] at accepted
    cases accepted
    exact opened.followed fun _ _ => Reorders.followed fun _ _ values => ⟨_, .number lexeme values⟩
  | leftParen =>
    rw [accept_leftParen stack lexeme] at accepted
    cases accepted
    rw [parens_leftParen stack lexeme]
    exact .opened lexeme opened (.nothing .sum)
  | operator op =>
    obtain ⟨output, next, found, same⟩ := parens_operator stack lexeme
    rw [found] at accepted
    cases accepted
    rw [same]
    -- Every operator is as tight as a sum, so it can follow what stands since the last parenthesis.
    exact opened.followed fun _ _ order => order.operator lexeme (Level.sum_precedence_le _)
  | rightParen =>
    rcases parens_rightParen stack lexeme with ⟨-, refused⟩ | ⟨paren, output, next, top, found⟩
    · rw [refused] at accepted
      cases accepted
    · rw [found] at accepted
      cases accepted
      rw [top] at opened
      cases opened with
      | opened opens outer inside =>
        -- What stands since the last parenthesis becomes a group behind what stood before it.
        rw [List.append_assoc, List.cons_append]
        exact outer.followed fun _ _ => Reorders.followed fun _ _ values =>
          ⟨_, .group opens lexeme values inside⟩

theorem Opened.accepts {stack final : OperatorStack} {tokens output : List Token}
    (run : Accepts stack tokens output final) {before : List Token} (opened : Opened before stack.parens) :
    Opened (before ++ tokens) final.parens := by
  induction run generalizing before with
  | done => rwa [List.append_nil]
  | step accepted _ ih =>
    have longer := ih (opened.accept accepted)
    rwa [List.append_assoc] at longer

/-- The operator stack puts a row in the one order that the levels of its operators leave it, and fails for
a row that has none. -/
theorem postfixRow_iff {tokens row : List Token} :
    postfixRow ⟨tokens, none⟩ = .ok row ↔ Reorders .sum tokens row := by
  refine ⟨fun found => ?_, Reorders.postfixRow_eq⟩
  obtain ⟨-, output, final, run, closed, -⟩ := accepts_of_drain found
  have nothing : Opened [] (OperatorStack.parens []) := .closed (.nothing .sum)
  have opened := Opened.accepts run nothing
  rw [closed, List.nil_append] at opened
  cases opened with
  | closed order =>
    -- Some row is in order, and it is the row that was found.
    have same := order.postfixRow_eq
    rw [found] at same
    cases same
    exact order

end Reckoner
