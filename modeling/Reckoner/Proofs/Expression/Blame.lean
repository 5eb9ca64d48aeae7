import Reckoner.Proofs.Expression.Classified
import Reckoner.Proofs.Postfix.Arrangement

/-!
# Faults that a text is blamed for

Some faults cannot come from a text: its rows have no parentheses left in them, and its operators are all
known. What a text is faulted for always has a report of its own kind.

Main result: `evaluate_ofText`.
-/

namespace Reckoner

/-! ### Rows have no parentheses -/

/-- A postfix row consists of numbers and operators. -/
theorem Reorders.not_paren {level : Level} {tokens row : List Token} (order : Reorders level tokens row) :
    ∀ token ∈ row, token.lexeme ≠ .leftParen ∧ token.lexeme ≠ .rightParen := by
  intro token member
  have solid := (List.mem_filter.mp (order.perm.subset member)).2
  simpa [Token.isParen] using solid

theorem postfixRow_not_paren {stream : TokenStream} {row : List Token} (ordered : postfixRow stream = .ok row) :
    ∀ token ∈ row, token.lexeme ≠ .leftParen ∧ token.lexeme ≠ .rightParen := by
  have clean := (accepts_of_drain ordered).1
  rw [postfixRow, clean] at ordered
  exact (postfixRow_iff.mp ordered).not_paren

theorem foldlM_ne_unexpected {row : List Token} {lexeme : Lexeme}
    (regular : ∀ token ∈ row, token.lexeme ≠ .leftParen ∧ token.lexeme ≠ .rightParen) :
    ∀ {stack : ValueStack}, row.foldlM ValueStack.accept stack ≠ .error (.unexpectedToken lexeme) := by
  induction row with
  | nil => exact fun failed => by cases failed
  | cons token row ih =>
    obtain ⟨⟨notLeft, notRight⟩, rest⟩ := List.forall_mem_cons.mp regular
    intro stack failed
    rw [List.foldlM_cons] at failed
    rcases bind_eq_error.mp failed with refused | ⟨next, -, later⟩
    · rw [ValueStack.accept] at refused
      cases here : token.lexeme with
      | number => simp [here] at refused
      | leftParen => exact notLeft here
      | rightParen => exact notRight here
      | operator op =>
        simp only [here] at refused
        cases operated : stack.operate? op <;> simp [operated] at refused
    · exact ih rest later

/-! ### Faults that a text is blamed for -/

/-- A fault of the text, not of the program: it has a report of its own kind, and is about no stray token. -/
structure OfText (fault : Fault) : Prop where
  reported : ∀ expression, (Diagnosis.ofFault expression fault).kind ≠ .general
  expected : ∀ lexeme, fault ≠ .unexpectedToken lexeme

theorem LexicalFault.ofText {text : List Char} {position : Nat} {fault : Fault}
    (lexical : LexicalFault text position fault) : OfText fault := by
  cases lexical with
  | character | number => constructor <;> exact fun _ same => nomatch same

theorem postfixRow_ofText {text : String} {fault : Fault} (failed : postfixRow (scan text) = .error fault) :
    OfText fault := by
  have verdict := postfixRow_verdict text
  rw [failed] at verdict
  cases verdict with
  | met found _ =>
    rcases found with lexical | ⟨-, rfl⟩
    · exact lexical.ofText
    · constructor <;> exact fun _ same => nomatch same
  | unclosed => constructor <;> exact fun _ same => nomatch same

theorem evaluate_ofText {text : String} {fault : Fault} (failed : evaluate text = .error fault) :
    OfText fault := by
  rcases bind_eq_error.mp failed with stopped | ⟨row, ordered, reduced⟩
  · exact postfixRow_ofText stopped
  · refine ⟨fun expression => ?_, ?_⟩
    · rw [postfixValue_ofExpression reduced expression]
      exact fun same => nomatch same
    · rintro lexeme rfl
      rw [postfixValue_eq] at reduced
      -- A token could only be unexpected while the row is reduced.
      rcases bind_eq_error.mp reduced with folded | ⟨stack, -, left⟩
      · exact foldlM_ne_unexpected (postfixRow_not_paren ordered) folded
      · match stack with
        | [] => cases left
        | [value] => cases left
        | a :: b :: below => cases left

/-- Only what the text is not to be blamed for is reported as unexpected. -/
theorem OfText.code_ne {fault : Fault} (ofText : OfText fault) (expression : Value) :
    (Diagnosis.ofFault expression fault).code ≠ unexpectedCode := by
  have reported := ofText.reported expression
  cases fault with
  | unknownOperator => exact absurd rfl reported
  | invalidCharacter => exact (by decide : "3001" ≠ unexpectedCode)
  | invalidNumber => exact (by decide : "3002" ≠ unexpectedCode)
  | unopened | unclosed => exact (by decide : "3003" ≠ unexpectedCode)
  | _ => exact (by decide : "3004" ≠ unexpectedCode)

end Reckoner
