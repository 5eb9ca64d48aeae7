import Reckoner.Proofs.Expression.Classified
import Reckoner.Proofs.Token.Spacing

/-!
# Expressions with more blanks

Only the lexemes of the tokens decide about their order and their value; the positions are merely handed on
to the faults. So blanks outside the numbers keep the value of a text, and of its fault they only move the
position.

Main result: `evaluate_spaced`.
-/

namespace Reckoner

variable (spacing : Spacing)

@[simp] theorem spaced_lexeme (token : Token) : (token.spaced spacing).lexeme = token.lexeme := rfl

/-! ### The order of the tokens -/

theorem yieldsTo_spaced (op : Operator) :
    OperatorStack.yieldsTo op ∘ Token.spaced spacing = OperatorStack.yieldsTo op := rfl

theorem isLeftParen_spaced : OperatorStack.isLeftParen ∘ Token.spaced spacing = OperatorStack.isLeftParen := rfl

/-- One token does the same to the stack, with every position moved. -/
theorem accept_spaced (stack : OperatorStack) (token : Token) :
    OperatorStack.accept (stack.map (·.spaced spacing)) (token.spaced spacing) =
      ((stack.accept token).map fun (output, next) =>
        (output.map (·.spaced spacing), next.map (·.spaced spacing))).mapError (·.spaced spacing) := by
  unfold OperatorStack.accept
  rw [spaced_lexeme]
  cases token.lexeme with
  | number => rfl
  | leftParen => rfl
  | operator op =>
    simp only [List.takeWhile_map, List.dropWhile_map, yieldsTo_spaced]
    rfl
  | rightParen =>
    -- What stands below the nearest opening parenthesis decides, and moving keeps what is a parenthesis.
    have same : (fun token : Token => !OperatorStack.isLeftParen token) ∘ Token.spaced spacing =
        fun token => !OperatorStack.isLeftParen token := rfl
    simp only [List.takeWhile_map, List.dropWhile_map, same]
    cases stack.dropWhile (!OperatorStack.isLeftParen ·) with
    | nil => rfl
    | cons paren below => rfl

theorem close_spaced (stack : OperatorStack) :
    OperatorStack.close (stack.map (·.spaced spacing)) =
      (stack.close.map (List.map (·.spaced spacing))).mapError (·.spaced spacing) := by
  simp only [OperatorStack.close, List.find?_map, isLeftParen_spaced]
  cases stack.find? OperatorStack.isLeftParen with
  | none => rfl
  | some paren => rfl

theorem drain_spaced (tokens : List Token) (fault : Option Fault) (stack : OperatorStack) :
    OperatorStack.drain (stack.map (·.spaced spacing)) (tokens.map (·.spaced spacing))
        (fault.map (·.spaced spacing)) =
      ((stack.drain tokens fault).map (List.map (·.spaced spacing))).mapError (·.spaced spacing) := by
  induction tokens generalizing stack with
  | nil =>
    cases fault with
    | none => exact close_spaced spacing stack
    | some fault => rfl
  | cons token tokens ih =>
    have step := accept_spaced spacing stack token
    cases accepted : stack.accept token with
    | error refused =>
      rw [accepted] at step
      rw [List.map_cons, drain_error step, drain_error accepted]
      rfl
    | ok result =>
      rw [accepted] at step
      rw [List.map_cons, drain_ok step, drain_ok accepted, ih]
      cases result.2.drain tokens fault with
      | error later => rfl
      | ok row => simp [Except.map, Except.mapError]

theorem postfixRow_spaced (stream : TokenStream) :
    postfixRow (stream.spaced spacing) =
      ((postfixRow stream).map (List.map (·.spaced spacing))).mapError (·.spaced spacing) :=
  drain_spaced spacing stream.tokens stream.fault []

/-! ### The value of the row -/

theorem postfixValue_spaced (row : List Token) :
    postfixValue (row.map (·.spaced spacing)) = postfixValue row := by
  rw [postfixValue_eq, postfixValue_eq, List.foldlM_map]
  rfl

/-- What fails as a whole expression has no position. -/
theorem OfExpression.spaced {fault : Fault} (whole : OfExpression fault) : fault.spaced spacing = fault := by
  cases fault with
  | invalidCharacter => cases whole .null
  | unopened => cases whole .null
  | unclosed => cases whole .null
  | _ => rfl

theorem mapError_postfixValue (row : List Token) :
    (postfixValue row).mapError (·.spaced spacing) = postfixValue row := by
  cases reduced : postfixValue row with
  | ok value => rfl
  | error fault => exact congrArg Except.error ((postfixValue_ofExpression reduced).spaced spacing)

/-! ### Texts -/

variable {before blanks after : String}

/-- Blanks may be put into any text, outside its numbers. The same tokens are read, the same value is found,
or the same fault, and all positions behind the blanks move by their number. The report is made of the fault
that has moved, and names the text with the blanks as its expression. -/
theorem evaluate_spaced (blank : ∀ c ∈ blanks.toList, Text.isBlank c = true)
    (outside : ¬ InsideNumber before.toList after.toList) :
    let spacing : Spacing := ⟨before.length, blanks.length⟩
    let text := before ++ blanks ++ after
    scan text = (scan (before ++ after)).spaced spacing ∧
      evaluate text = (evaluate (before ++ after)).mapError (·.spaced spacing) ∧
      diagnosed text =
        (evaluate (before ++ after)).mapError fun fault => .ofFault (.text text) (fault.spaced spacing) := by
  intro spacing text
  have scanned : scan text = (scan (before ++ after)).spaced spacing := scan_spaced blank outside
  have evaluated : evaluate text = (evaluate (before ++ after)).mapError (·.spaced spacing) := by
    rw [evaluate, scanned, postfixRow_spaced, evaluate]
    cases postfixRow (scan (before ++ after)) with
    | error fault => rfl
    | ok row => exact (postfixValue_spaced spacing row).trans (mapError_postfixValue spacing row).symm
  refine ⟨scanned, evaluated, ?_⟩
  rw [diagnosed, evaluated]
  cases evaluate (before ++ after) with
  | error fault => rfl
  | ok value => rfl

/-- Blanks behind a sign that no number follows move the parenthesis that is never closed. -/
theorem evaluate_spaced_sign :
    (∀ c ∈ " \t".toList, Text.isBlank c = true) ∧ ¬ InsideNumber "-".toList "(1+2".toList ∧
      evaluate ("-" ++ " \t" ++ "(1+2") = .error (.unclosed (some 3)) := by
  have blank : ∀ c ∈ " \t".toList, Text.isBlank c = true := List.all_eq_true.mp (by decide)
  have outside : ¬ InsideNumber "-".toList "(1+2".toList := by
    rintro ⟨front, c, d, back, -, same, number, -⟩
    cases same
    revert number
    decide
  have plain : evaluate ("-" ++ "(1+2") = .error (.unclosed (some 1)) := by decide +kernel
  refine ⟨blank, outside, ?_⟩
  rw [(evaluate_spaced blank outside).2.1, plain]
  rfl

end Reckoner
