import Mathlib.Data.List.Chain
import Mathlib.Data.List.Perm.Subperm
import Reckoner.Proofs.Postfix.Arrangement

/-!
# What waits on the operator stack

An open parenthesis starts a new layer of the stack. Within a layer the operators bind tighter towards the
top, and those that bind equally group to the right. So an operator that may stay never covers one that has
to leave, and to output operators until one stays is to output all that have to leave.

Main result: `postfixRow_layered`, about the stack behind any tokens.
-/

namespace Reckoner

/-! ### One operator on another -/

/-- May the upper operator wait on the lower one? It binds tighter, or both bind equally and group to the
right. -/
def Operator.RestsOn (upper lower : Operator) : Prop :=
  lower.traits.precedence < upper.traits.precedence ∨
    lower.traits.precedence = upper.traits.precedence ∧
      upper.traits.associativity = .right ∧ lower.traits.associativity = .right

/-- Operators that bind equally group to the same side. To the right, they are the same. -/
theorem Operator.alike {first second : Operator}
    (equal : first.traits.precedence = second.traits.precedence) :
    first.traits.associativity = second.traits.associativity ∧
      (first.traits.associativity = .right →
        first = .binary .pow ∧ second = .binary .pow ∨ first = .negate ∧ second = .negate) := by
  revert equal
  rcases first with (_ | _ | _ | _ | _) | _ <;> rcases second with (_ | _ | _ | _ | _) | _ <;> decide

/-- Two precedences have operators that group to the left. -/
theorem Operator.precedence_of_left {op : Operator} (left : op.traits.associativity = .left) :
    op.traits.precedence ∈ ([1, 2] : List Int) := by
  revert left
  rcases op with (_ | _ | _ | _ | _) | _ <;> decide

/-- An operator rests on each one that it does not make leave. -/
theorem Operator.restsOn {upper lower : Operator}
    (stays : upper.traits.popsBefore lower.traits = false) : upper.RestsOn lower := by
  cases side : upper.traits.associativity with
  | left =>
    have tighter : lower.traits.precedence < upper.traits.precedence := by
      simpa [Traits.popsBefore, side] using stays
    exact .inl tighter
  | right =>
    have bound : lower.traits.precedence ≤ upper.traits.precedence := by
      simpa [Traits.popsBefore, side] using stays
    rcases Int.lt_or_eq_of_le bound with tighter | equal
    · exact .inl tighter
    · exact .inr ⟨equal, side, (Operator.alike equal).1.trans side⟩

namespace Operator.RestsOn

variable {upper middle lower : Operator}

theorem precedence_le (rests : upper.RestsOn lower) :
    lower.traits.precedence ≤ upper.traits.precedence := by
  rcases rests with tighter | ⟨equal, -, -⟩
  · exact Int.le_of_lt tighter
  · exact Int.le_of_eq equal

theorem trans (first : upper.RestsOn middle) (second : middle.RestsOn lower) : upper.RestsOn lower := by
  rcases first with tighter | ⟨equal, right, -⟩
  · exact .inl (Int.lt_of_le_of_lt second.precedence_le tighter)
  · rcases second with tighter | ⟨again, -, also⟩
    · exact .inl (equal ▸ tighter)
    · exact .inr ⟨again.trans equal, right, also⟩

instance : Trans RestsOn RestsOn RestsOn := ⟨trans⟩

/-- What has to leave takes along all that rests on it. -/
theorem popsBefore {incoming : Operator} (rests : upper.RestsOn lower)
    (leaves : incoming.traits.popsBefore lower.traits = true) :
    incoming.traits.popsBefore upper.traits = true := by
  cases side : incoming.traits.associativity with
  | left =>
    have bound : incoming.traits.precedence ≤ lower.traits.precedence := by
      simpa [Traits.popsBefore, side] using leaves
    simpa [Traits.popsBefore, side] using Int.le_trans bound rests.precedence_le
  | right =>
    have bound : incoming.traits.precedence < lower.traits.precedence := by
      simpa [Traits.popsBefore, side] using leaves
    simpa [Traits.popsBefore, side] using Int.lt_of_lt_of_le bound rests.precedence_le

end Operator.RestsOn

/-! ### A layer -/

/-- The operators of a layer of the stack, the top one first. -/
structure Layer (ops : List Operator) : Prop where
  /-- From the bottom to the top the precedences do not go down. -/
  rising : ops.Pairwise fun upper lower => lower.traits.precedence ≤ upper.traits.precedence
  /-- Those that bind equally group to the right. They are powers, or they are signs. -/
  alike : ops.Pairwise fun upper lower => lower.traits.precedence = upper.traits.precedence →
    lower.traits.associativity = .right ∧ upper.traits.associativity = .right ∧
      (lower = .binary .pow ∧ upper = .binary .pow ∨ lower = .negate ∧ upper = .negate)
  /-- At most two group to the left. -/
  leftward : ops.countP (·.traits.associativity == .left) ≤ 2
  /-- One that has to leave before an incoming operator does not lie below one that may stay. -/
  exposed : ∀ incoming : Operator, ops.Pairwise fun upper lower =>
    incoming.traits.popsBefore lower.traits = true → incoming.traits.popsBefore upper.traits = true

/-- Those that group to the left differ in precedence, and that leaves room for two. -/
private theorem leftward_of_rests {ops : List Operator} (rests : ops.Pairwise Operator.RestsOn) :
    ops.countP (·.traits.associativity == .left) ≤ 2 := by
  rw [List.countP_eq_length_filter]
  have left : ∀ op ∈ ops.filter (·.traits.associativity == .left), op.traits.associativity = .left := by
    intro op member
    simpa using (List.mem_filter.mp member).2
  have differ : ((ops.filter (·.traits.associativity == .left)).map (·.traits.precedence)).Nodup := by
    refine List.pairwise_map.mpr ((rests.filter _).imp_of_mem fun {upper lower} member _ above => ?_)
    rcases above with tighter | ⟨-, right, -⟩
    · exact (Int.ne_of_lt tighter).symm
    · rw [left upper member] at right
      cases right
  have among : (ops.filter (·.traits.associativity == .left)).map (·.traits.precedence) ⊆ [1, 2] := by
    intro precedence member
    obtain ⟨op, inside, rfl⟩ := List.mem_map.mp member
    exact Operator.precedence_of_left (left op inside)
  simpa using (List.Nodup.subperm differ among).length_le

theorem layer_of_rests {ops : List Operator} (rests : ops.Pairwise Operator.RestsOn) : Layer ops where
  rising := rests.imp fun above => above.precedence_le
  alike := by
    refine rests.imp fun above equal => ?_
    rcases above with tighter | ⟨-, right, also⟩
    · exact absurd equal (Int.ne_of_lt tighter)
    · exact ⟨also, right, (Operator.alike equal).2 also⟩
  leftward := leftward_of_rests rests
  exposed incoming := rests.imp fun above => above.popsBefore

/-! ### The stack along a run -/

/-- Operators and opening parentheses wait on the stack, and each operator waits on one that it does not
make leave, on a parenthesis or on the ground. -/
inductive Settled : OperatorStack → Prop
  | ground : Settled []
  | paren {paren : Token} {stack : OperatorStack} (opens : paren.lexeme = .leftParen)
      (below : Settled stack) : Settled (paren :: stack)
  | operator {token : Token} {op : Operator} {stack : OperatorStack}
      (lexeme : token.lexeme = .operator op)
      (stays : ∀ top ∈ stack.head?, OperatorStack.yieldsTo op top = false)
      (below : Settled stack) : Settled (token :: stack)

/-- What lies below is settled by itself. -/
theorem Settled.suffix {stack rest : OperatorStack} (settled : Settled stack) (below : rest <:+ stack) :
    Settled rest := by
  obtain ⟨above, rfl⟩ := below
  induction above with
  | nil => exact settled
  | cons token above ih =>
    cases settled with
    | paren _ below => exact ih below
    | operator _ _ below => exact ih below

/-- One token leaves the stack settled. -/
theorem Settled.accept {stack next : OperatorStack} {token : Token} {output : List Token}
    (settled : Settled stack) (accepted : stack.accept token = .ok (output, next)) : Settled next := by
  cases lexeme : token.lexeme with
  | number text value =>
    rw [accept_number stack lexeme] at accepted
    cases accepted
    exact settled
  | leftParen =>
    rw [accept_leftParen stack lexeme] at accepted
    cases accepted
    exact .paren lexeme settled
  | operator op =>
    rw [OperatorStack.accept, lexeme] at accepted
    cases accepted
    -- The first one that does not leave is the one that the operator comes to wait on.
    refine .operator lexeme (fun top found => ?_) (settled.suffix (List.dropWhile_suffix _))
    have stopped := List.head?_dropWhile_not (OperatorStack.yieldsTo op) stack
    rw [Option.mem_def.mp found] at stopped
    simpa using stopped
  | rightParen =>
    rw [OperatorStack.accept, lexeme] at accepted
    cases rest : stack.dropWhile (!OperatorStack.isLeftParen ·) with
    | nil =>
      rw [rest] at accepted
      cases accepted
    | cons paren below =>
      rw [rest] at accepted
      cases accepted
      have deeper : paren :: next <:+ stack := rest ▸ List.dropWhile_suffix _
      exact settled.suffix ((List.suffix_cons paren next).trans deeper)

theorem Accepts.settled {stack final : OperatorStack} {tokens output : List Token}
    (run : Accepts stack tokens output final) (settled : Settled stack) : Settled final := by
  induction run with
  | done => exact settled
  | step accepted _ ih => exact ih (settled.accept accepted)

/-! ### The layers of a stack -/

theorem yieldsTo_operator {token : Token} {op : Operator} (incoming : Operator)
    (lexeme : token.lexeme = .operator op) :
    OperatorStack.yieldsTo incoming token = incoming.traits.popsBefore op.traits := by
  rw [OperatorStack.yieldsTo, lexeme]

/-- From the top down to a parenthesis each operator rests on the next. -/
theorem Settled.chain {stack : OperatorStack} (settled : Settled stack) {stretch : List Token}
    (top : stretch <+: stack) (plain : ∀ token ∈ stretch, token.lexeme ≠ .leftParen) :
    ∃ ops : List Operator, stretch.map Token.lexeme = ops.map .operator ∧
      ops.IsChain Operator.RestsOn := by
  induction settled generalizing stretch with
  | ground =>
    rw [List.prefix_nil.mp top]
    exact ⟨[], rfl, .nil⟩
  | paren opens below ih =>
    rcases List.prefix_cons_iff.mp top with rfl | ⟨more, rfl, -⟩
    · exact ⟨[], rfl, .nil⟩
    · exact absurd opens (plain _ List.mem_cons_self)
  | @operator token op stack lexeme stays below ih =>
    rcases List.prefix_cons_iff.mp top with rfl | ⟨more, rfl, further⟩
    · exact ⟨[], rfl, .nil⟩
    obtain ⟨ops, same, chain⟩ := ih further fun other member => plain other (List.mem_cons_of_mem _ member)
    refine ⟨op :: ops, by rw [List.map_cons, List.map_cons, lexeme, same], List.isChain_cons.mpr ⟨?_, chain⟩⟩
    intro lower next
    -- The next operator is on top of the stack below.
    obtain ⟨later, rfl⟩ := List.head?_eq_some_iff.mp (Option.mem_def.mp next)
    obtain ⟨under, rest, rfl, lexeme', -⟩ := List.map_eq_cons_iff.mp same
    obtain ⟨deeper, rfl⟩ := further
    have stays := stays under rfl
    rw [yieldsTo_operator op lexeme'] at stays
    exact Operator.restsOn stays

/-- An operator leaves with the one on which it waits. -/
private theorem yieldsTo_above {token under : Token} {op incoming : Operator}
    (lexeme : token.lexeme = .operator op) (stays : OperatorStack.yieldsTo op under = false)
    (leaves : OperatorStack.yieldsTo incoming under = true) :
    OperatorStack.yieldsTo incoming token = true := by
  cases below : under.lexeme with
  | operator lower =>
    rw [yieldsTo_operator _ below] at stays leaves
    rw [yieldsTo_operator _ lexeme]
    exact (Operator.restsOn stays).popsBefore leaves
  | _ => simp [OperatorStack.yieldsTo, below] at leaves

/-- To output operators until one stays is to output all down to the parenthesis that have to leave. -/
theorem Settled.takeWhile_yieldsTo {stack : OperatorStack} (settled : Settled stack) (incoming : Operator) :
    stack.takeWhile (OperatorStack.yieldsTo incoming) =
      (stack.takeWhile (!OperatorStack.isLeftParen ·)).filter (OperatorStack.yieldsTo incoming) := by
  induction settled with
  | ground => rfl
  | paren opens _ _ => simp [OperatorStack.yieldsTo, OperatorStack.isLeftParen, opens]
  | @operator token op stack lexeme stays _ ih =>
    have inside : (!OperatorStack.isLeftParen token) = true := by simp [OperatorStack.isLeftParen, lexeme]
    cases leaves : OperatorStack.yieldsTo incoming token with
    | true =>
      rw [List.takeWhile_cons_of_pos leaves, ih]
      simp [inside, leaves]
    | false =>
      have settles : ¬ OperatorStack.yieldsTo incoming token = true := by simp [leaves]
      -- If the operator stays, so does the one on which it waits.
      have nothing : stack.takeWhile (OperatorStack.yieldsTo incoming) = [] := by
        cases stack with
        | nil => rfl
        | cons under rest =>
          exact List.takeWhile_cons_of_neg fun also => settles (yieldsTo_above lexeme (stays under rfl) also)
      rw [List.takeWhile_cons_of_neg settles]
      simp [inside, leaves, ← ih, nothing]

/-- A stack whose layers are in order. -/
structure Layered (stack : OperatorStack) : Prop where
  /-- What waits between two parentheses, above the last one or below the first one is a layer. -/
  layers : ∀ stretch, stretch <:+: stack → (∀ token ∈ stretch, token.lexeme ≠ .leftParen) →
    ∃ ops : List Operator, stretch.map Token.lexeme = ops.map .operator ∧ Layer ops
  /-- An incoming operator outputs all of the top layer that has to leave. -/
  complete : ∀ incoming : Operator, stack.takeWhile (OperatorStack.yieldsTo incoming) =
    (stack.takeWhile (!OperatorStack.isLeftParen ·)).filter (OperatorStack.yieldsTo incoming)

theorem Settled.layered {stack : OperatorStack} (settled : Settled stack) : Layered stack where
  layers := by
    intro stretch within plain
    obtain ⟨rest, top, below⟩ := List.infix_iff_prefix_suffix.mp within
    obtain ⟨ops, same, chain⟩ := (settled.suffix below).chain top plain
    exact ⟨ops, same, layer_of_rests (List.isChain_iff_pairwise.mp chain)⟩
  complete := settled.takeWhile_yieldsTo

/-! ### Any tokens -/

/-- Only a closing parenthesis is refused, and only if none is open. -/
theorem accept_or_refused (stack : OperatorStack) (token : Token) :
    (∃ output next, stack.accept token = .ok (output, next)) ∨
      (token.lexeme = .rightParen ∧ stack.parens = [] ∧
        stack.accept token = .error (.unopened token.position)) := by
  rcases accept_depth stack token with ⟨output, next, accepted, -⟩ | ⟨missing, refused⟩
  · exact .inl ⟨output, next, accepted⟩
  · -- The token closes more than is open, and it closes at most one.
    have some_closed : 0 < closings [token] := Nat.zero_lt_of_lt missing
    have one_closed : closings [token] ≤ 1 := List.countP_le_length
    obtain ⟨closing, member, closes⟩ := List.countP_pos_iff.mp some_closed
    cases List.mem_singleton.mp member
    exact .inr ⟨by simpa using closes, List.length_eq_zero_iff.mp (by omega), refused⟩

theorem accepts_or_refused (stack : OperatorStack) (tokens : List Token) :
    (∃ output final, Accepts stack tokens output final) ∨
      ∃ before closing after output middle, tokens = before ++ closing :: after ∧
        closing.lexeme = .rightParen ∧ Accepts stack before output middle ∧ middle.parens = [] ∧
        middle.accept closing = .error (.unopened closing.position) := by
  induction tokens generalizing stack with
  | nil => exact .inl ⟨[], stack, .done⟩
  | cons token tokens ih =>
    rcases accept_or_refused stack token with ⟨now, next, accepted⟩ | ⟨closes, none_open, refused⟩
    · rcases ih next with ⟨later, final, run⟩ |
        ⟨before, closing, after, later, middle, rfl, closes, run, none_open, refused⟩
      · exact .inl ⟨now ++ later, final, .step accepted run⟩
      · exact .inr ⟨token :: before, closing, after, now ++ later, middle, rfl, closes,
          .step accepted run, none_open, refused⟩
    · exact .inr ⟨[], token, tokens, [], stack, rfl, closes, .done, none_open, refused⟩

/-- Behind any tokens of a stream the layers of the stack are in order, and the rest of the row follows from
this stack. Only if one of the tokens closes a parenthesis that none opens there is no such stack, and that
token is reported. -/
theorem postfixRow_layered (tokens rest : List Token) (fault : Option Fault) :
    (∃ output stack, Accepts [] tokens output stack ∧ Layered stack ∧
        postfixRow ⟨tokens ++ rest, fault⟩ = (stack.drain rest fault).map (output ++ ·)) ∨
      ∃ before closing after output stack, tokens = before ++ closing :: after ∧
        closing.lexeme = .rightParen ∧ Accepts [] before output stack ∧ Layered stack ∧
        stack.parens = [] ∧ stack.accept closing = .error (.unopened closing.position) ∧
        postfixRow ⟨tokens ++ rest, fault⟩ = .error (.unopened closing.position) := by
  rcases accepts_or_refused [] tokens with ⟨output, stack, run⟩ |
    ⟨before, closing, after, output, stack, rfl, closes, run, none_open, refused⟩
  · exact .inl ⟨output, stack, run, (run.settled .ground).layered, run.drain rest fault⟩
  · refine .inr ⟨before, closing, after, output, stack, rfl, closes, run, (run.settled .ground).layered,
      none_open, refused, ?_⟩
    rw [postfixRow, List.append_assoc, List.cons_append, run.drain, drain_error refused]
    rfl

end Reckoner
