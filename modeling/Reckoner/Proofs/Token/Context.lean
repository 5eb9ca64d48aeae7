import Mathlib.Data.List.Chain
import Reckoner.Proofs.Token.Progress

/-!
# Signs and their context

Whether a minus is a sign can be told in two ways: by the characters in front of it, blanks left out, and by
the token in front of it. Both always say the same. So the tokens of a text alone show where a sign can stand
and where a subtraction can.

Main result: `isSignAt?_iff_context`.
-/

namespace Reckoner

open Scanner

/-- An operand begins behind the tokens: there are none, or the last one is an operator or an opening
parenthesis. -/
def OperandDue (tokens : List Token) : Prop :=
  ∀ last ∈ tokens.getLast?, last.lexeme.kind = .operator ∨ last.lexeme.kind = .leftParen

/-- The sign as an operator, or a number that begins with one. -/
def Lexeme.hasSign : Lexeme → Bool
  | .operator .negate => true
  | .number text _ => text.toList.head? == some '-'
  | _ => false

/-- What may stand behind what: a subtraction behind a value, a sign where an operand begins. -/
def SignsFit (one next : Token) : Prop :=
  (next.lexeme = .operator (.binary .sub) → one.lexeme.kind = .number ∨ one.lexeme.kind = .rightParen) ∧
    (next.lexeme.hasSign = true → one.lexeme.kind = .operator ∨ one.lexeme.kind = .leftParen)

theorem operandDue_nil : OperandDue [] := by simp [OperandDue]

theorem operandDue_concat {tokens : List Token} {token : Token} :
    OperandDue (tokens ++ [token]) ↔ token.lexeme.kind = .operator ∨ token.lexeme.kind = .leftParen := by
  simp [OperandDue]

/-- Every lexeme either ends an operand or lets one begin. -/
theorem Lexeme.kind_of_not_due {lexeme : Lexeme}
    (ends : ¬ (lexeme.kind = .operator ∨ lexeme.kind = .leftParen)) :
    lexeme.kind = .number ∨ lexeme.kind = .rightParen := by
  cases lexeme <;> simp_all [kind]

theorem SymbolAt.opensOperand_iff {before rest : List Char} {c : Char} {lexeme : Lexeme}
    (symbol : SymbolAt before rest c lexeme) :
    opensOperand c = true ↔ lexeme.kind = .operator ∨ lexeme.kind = .leftParen := by
  cases symbol with
  | leftParen | rightParen | sign => decide
  | operation operation => cases operation <;> decide

/-- The scanner knows from the last token whether an operand begins. -/
theorem Reaches.operandNext_iff {text : List Char} {s : Scanner} (reached : Reaches text s) :
    s.operandNext = true ↔ OperandDue s.yielded := by
  induction reached with
  | start => exact iff_of_true rfl operandDue_nil
  | @turn s next reached turn ih =>
    obtain ⟨before, -, behind⟩ := reached.behind
    rcases turn.cases behind with ⟨c, rest, -, -, rfl⟩ | ⟨run, rest, value, -, -, -, rfl⟩ |
      ⟨c, rest, lexeme, -, symbol, rfl⟩
    · exact ih
    · rw [operandDue_concat]
      simp [Lexeme.kind]
    · rw [operandDue_concat]
      exact symbol.opensOperand_iff

/-- Looking back from where the scanner is says what the scanner knows. -/
theorem Reaches.isSignAt?_eq {text : List Char} {s : Scanner} (reached : Reaches text s) :
    isSignAt? text s.position = some s.operandNext := by
  obtain ⟨before, rfl, behind⟩ := reached.behind
  have inside : (before.length : Int) ≤ (before ++ s.rest).length := by
    rw [List.length_append]
    omega
  rw [isSignAt?, behind.position, if_pos inside, Int.toNat_natCast, List.take_left, behind.operand]
  rfl

/-! ### The tokens among themselves -/

/-- A number begins with a minus only where an operand begins. -/
theorem NumberAt.begins_of_sign {before run rest : List Char} (number : NumberAt before run rest)
    (sign : run.head? = some '-') : operandBegins before = true := by
  rcases number.shape with whole | ⟨digits, -, begins, -⟩
  · obtain ⟨tail, rfl⟩ := List.head?_eq_some_iff.mp sign
    exact absurd (whole.numeric '-' List.mem_cons_self) (by decide)
  · exact begins

theorem SymbolAt.not_begins_of_sub {before rest : List Char} {c : Char} {lexeme : Lexeme}
    (symbol : SymbolAt before rest c lexeme) (sub : lexeme = .operator (.binary .sub)) :
    operandBegins before = false := by
  cases symbol with
  | leftParen | rightParen | sign => cases sub
  | operation operation binary =>
    cases sub
    exact binary rfl

theorem SymbolAt.begins_of_sign {before rest : List Char} {c : Char} {lexeme : Lexeme}
    (symbol : SymbolAt before rest c lexeme) (sign : lexeme.hasSign = true) :
    operandBegins before = true := by
  cases symbol with
  | leftParen | rightParen | operation => cases sign
  | sign begins => exact begins

/-- What a turn yields fits the place: no subtraction where an operand begins, no sign elsewhere. -/
theorem Scanner.Turn.yields {before : List Char} {s next : Scanner} (turn : Turn s next)
    (behind : Behind before s) :
    next.yielded = s.yielded ∨ ∃ token, next.yielded = s.yielded ++ [token] ∧
      (token.lexeme = .operator (.binary .sub) → s.operandNext = false) ∧
      (token.lexeme.hasSign = true → s.operandNext = true) := by
  rcases turn.cases behind with ⟨c, rest, -, -, rfl⟩ | ⟨run, rest, value, -, number, -, rfl⟩ |
    ⟨c, rest, lexeme, -, symbol, rfl⟩
  · exact .inl rfl
  · refine .inr ⟨_, rfl, fun sub => ?_, fun sign => ?_⟩
    · cases sub
    · rw [behind.operand]
      exact number.begins_of_sign (by simpa [Lexeme.hasSign] using sign)
  · refine .inr ⟨_, rfl, fun sub => ?_, fun sign => ?_⟩ <;> rw [behind.operand]
    · exact symbol.not_begins_of_sub sub
    · exact symbol.begins_of_sign sign

/-- The signs among the tokens stand where operands begin, and the subtractions behind values. -/
theorem Reaches.signsFit {text : List Char} {s : Scanner} (reached : Reaches text s) :
    (∀ first ∈ s.yielded.head?, first.lexeme ≠ .operator (.binary .sub)) ∧ s.yielded.IsChain SignsFit := by
  induction reached with
  | start => exact ⟨by simp [Scanner.start], .nil⟩
  | @turn s next reached turn ih =>
    obtain ⟨before, -, behind⟩ := reached.behind
    have due := reached.operandNext_iff
    rcases turn.yields behind with same | ⟨token, more, sub, sign⟩
    · rwa [same]
    rw [more]
    obtain ⟨first, chain⟩ := ih
    constructor
    · cases yielded : s.yielded with
      | nil =>
        -- In front of the first token an operand begins.
        rintro _ ⟨⟩ minus
        have begins := due.mpr (yielded ▸ operandDue_nil)
        rw [sub minus] at begins
        cases begins
      | cons head tail =>
        rw [yielded] at first
        exact first
    · refine List.isChain_append.mpr ⟨chain, .singleton token, ?_⟩
      intro last lastMember _ member
      cases Option.mem_some.mp member
      constructor
      · intro minus
        refine Lexeme.kind_of_not_due fun opens => ?_
        have begins := due.mpr fun other otherMember => Option.mem_unique lastMember otherMember ▸ opens
        rw [sub minus] at begins
        cases begins
      · exact fun signed => due.mp (sign signed) last lastMember

/-- From every place that the scanner reaches it reads on to what is read of the text, and it reaches the end of the
text or a fault. At each of these places the characters in front of it make a minus a sign exactly if no token has
been yielded yet, or the last one is an operator or an opening parenthesis. So in the tokens of a text a subtraction
is never the first, and it stands behind a number or a closing parenthesis only; the sign and the numbers that begin
with one never stand there. -/
theorem isSignAt?_iff_context (text : String) :
    (∀ s, Reaches text.toList s → s.outcome = scan text ∧ text.toList.drop s.position = s.rest ∧
      ∃ sign, isSignAt? text.toList s.position = some sign ∧ (sign = true ↔ OperandDue s.yielded)) ∧
    (∃ last, Reaches text.toList last ∧ (scan text).tokens = last.yielded ∧
      (last.rest = [] ∨ ∃ fault, LexicalFault text.toList last.position fault)) ∧
    (∀ first ∈ (scan text).tokens.head?, first.lexeme ≠ .operator (.binary .sub)) ∧
    (scan text).tokens.IsChain SignsFit := by
  obtain ⟨last, reached, ends⟩ := exists_last text.toList
  have tokens : (scan text).tokens = last.yielded := reached.tokens_of_last ends
  refine ⟨fun s there => ⟨there.outcome_eq, ?_, s.operandNext, there.isSignAt?_eq, there.operandNext_iff⟩,
    ⟨last, reached, tokens, ends⟩, ?_⟩
  · obtain ⟨before, split, behind⟩ := there.behind
    rw [split, behind.position, List.drop_left]
  · rw [tokens]
    exact reached.signsFit

end Reckoner
