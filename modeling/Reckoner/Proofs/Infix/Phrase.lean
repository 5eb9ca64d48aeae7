import Reckoner.Proofs.Infix

/-!
# Phrases of tokens

The same grammar on rows of tokens, where a sign may already belong to a number. A text is an infix
expression exactly if its tokens are a phrase, and then both have the same value: `Infix.reads` takes a
derivation to the tokens that are read from its text, `Phrase.spelled` takes a phrase back to every text
that spells its tokens.
-/

namespace Reckoner

/-- A row of tokens that can be derived at a level, and the value of its derivation. -/
inductive Phrase : Level → List Token → Binary64 → Prop
  | number {token : Token} {text : String} {value : Binary64}
      (lexeme : token.lexeme = .number text value) : Phrase .signed [token] value
  | group {opening closing : Token} {tokens : List Token} {value : Binary64}
      (opens : opening.lexeme = .leftParen) (closes : closing.lexeme = .rightParen)
      (inside : Phrase .sum tokens value) : Phrase .signed (opening :: (tokens ++ [closing])) value
  | sign {token : Token} {tokens : List Token} {value : Binary64}
      (lexeme : token.lexeme = .operator .negate) (operand : Phrase .signed tokens value) :
      Phrase .signed (token :: tokens) (-value)
  | operation {token : Token} {left right : List Token} {a b : Binary64} (operation : Operation)
      (lexeme : token.lexeme = .operator (.binary operation))
      (first : Phrase operation.leftLevel left a) (second : Phrase operation.rightLevel right b) :
      Phrase operation.level (left ++ token :: right) (operation.apply a b)
  | tighter {level : Level} {tokens : List Token} {value : Binary64}
      (inner : Phrase level.tighter tokens value) : Phrase level tokens value

/-- The stream with other tokens before it. -/
def TokenStream.behind (tokens : List Token) (stream : TokenStream) : TokenStream :=
  ⟨tokens ++ stream.tokens, stream.fault⟩

theorem TokenStream.behind_behind (first second : List Token) (stream : TokenStream) :
    (stream.behind second).behind first = stream.behind (first ++ second) := by
  simp [TokenStream.behind]

theorem TokenStream.cons_behind (token : Token) (tokens : List Token) (stream : TokenStream) :
    (stream.behind tokens).cons token = stream.behind (token :: tokens) := rfl

/-! ### From a derivation to the tokens of its text -/

theorem Literal.last {run : List Char} {value : Binary64} (literal : Literal run value) :
    ∃ front c, run = front ++ [c] ∧ isNumberChar c = true :=
  (literal.maximalRun numberGoesOn_nil).last

theorem Infix.nonempty {level : Level} {text : List Char} {value : Binary64}
    (derivation : Infix level text value) : text ≠ [] := by
  induction derivation with
  | literal literal =>
    obtain ⟨front, c, rfl, -⟩ := literal.last
    simp
  | tighter _ ih => exact ih
  | _ => simp

/-- After an expression no operand begins: it ends with a number or a closing parenthesis. -/
theorem Infix.endsOperand {level : Level} {text : List Char} {value : Binary64}
    (derivation : Infix level text value) :
    ∀ before, operandBegins (before ++ text) = false := by
  induction derivation with
  | literal literal =>
    intro before
    obtain ⟨front, c, rfl, last⟩ := literal.last
    rw [← List.append_assoc, operandBegins_number _ last]
  | @group text _ _ _ =>
    intro before
    rw [← List.cons_append, ← List.append_assoc, operandBegins_solid _ (by decide)]
    decide
  | sign _ ih =>
    intro before
    rw [List.append_cons]
    exact ih _
  | operation operation _ _ _ ih =>
    intro before
    rw [← List.append_assoc, List.append_cons]
    exact ih _
  | tighter _ ih => exact ih
  | blankBefore _ _ ih =>
    intro before
    rw [List.append_cons]
    exact ih _
  | blankAfter blank _ ih =>
    intro before
    rw [← List.append_assoc, operandBegins_blank _ blank]
    exact ih before

/-- A signed operand that begins with a digit or a point is a literal. -/
theorem Infix.literal_of_goesOn {level : Level} {text : List Char} {value : Binary64}
    (derivation : Infix level text value) (tight : level = .signed ∨ level = .values)
    (goesOn : numberGoesOn text = true) :
    ∃ digits blanks, text = digits ++ blanks ∧ Literal digits value ∧
      ∀ c ∈ blanks, Text.isBlank c = true := by
  -- Groups, signs and blanks begin with another character, and operations are not tight enough.
  induction derivation with
  | @literal run _ literal => exact ⟨run, [], (List.append_nil _).symm, literal, by simp⟩
  | group | sign => cases goesOn
  | operation operation => cases operation <;> simp [Operation.level] at tight
  | tighter _ ih =>
    refine ih (Or.inr ?_) goesOn
    rcases tight with rfl | rfl <;> rfl
  | blankBefore blank =>
    rw [numberGoesOn_cons, isNumberChar_of_isBlank blank] at goesOn
    cases goesOn
  | @blankAfter _ _ _ c blank inner ih =>
    rw [numberGoesOn_append inner.nonempty] at goesOn
    obtain ⟨digits, blanks, rfl, literal, clear⟩ := ih tight goesOn
    refine ⟨digits, blanks ++ [c], List.append_assoc .., literal, ?_⟩
    intro d member
    rcases List.mem_append.mp member with old | new
    · exact clear d old
    · rwa [List.mem_singleton.mp new]

private theorem numberAt_signed {before digits rest : List Char}
    (begins : operandBegins before = true) (whole : MaximalRun digits rest) :
    NumberAt before ('-' :: digits) rest :=
  ⟨isBoundary_of_ends (by rfl), Or.inr ⟨digits, rfl, begins, whole⟩⟩

/-- What is read from an expression is a phrase of the same value, whatever stands around it. -/
theorem Infix.reads {level : Level} {text : List Char} {value : Binary64}
    (derivation : Infix level text value) :
    ∀ {before rest : List Char} {stream : TokenStream}, operandBegins before = true →
      IsBoundary before (text ++ rest) → numberGoesOn rest = false → Reads (before ++ text) rest stream →
      ∃ tokens, Phrase level tokens value ∧ Reads before (text ++ rest) (stream.behind tokens) := by
  induction derivation with
  | @literal run value literal =>
    intro before rest stream begins boundary ends later
    have whole := literal.maximalRun ends
    have read := (number?_unsigned whole.numeric value).mpr literal
    exact ⟨_, .number rfl, .number ⟨boundary, Or.inl whole⟩ read later⟩
  | @group text value inside ih =>
    intro before rest stream begins boundary ends later
    -- Inside the group an operand begins again, and the closing parenthesis ends every number.
    have opens : SymbolAt before (text ++ ')' :: rest) '(' .leftParen := .leftParen
    have closes : SymbolAt (before ++ ['('] ++ text) rest ')' .rightParen := .rightParen
    let opening : Token := ⟨.leftParen, some before.length⟩
    let closing : Token := ⟨.rightParen, some (before ++ ['('] ++ text).length⟩
    have behind : Reads (before ++ ['('] ++ text ++ [')']) rest stream := by simpa using later
    obtain ⟨tokens, phrase, reads⟩ :=
      ih (by rw [opens.opens]; rfl) opens.isBoundary rfl (.symbol closes behind)
    refine ⟨opening :: (tokens ++ [closing]), .group rfl rfl phrase, ?_⟩
    have whole := Reads.symbol opens reads
    simpa [TokenStream.behind, TokenStream.cons, opening, closing] using whole
  | @sign text value operand ih =>
    intro before rest stream begins boundary ends later
    cases goesOn : numberGoesOn text with
    | true =>
      -- Right before its digits the sign is read as part of the number.
      obtain ⟨digits, blanks, rfl, literal, blank⟩ := operand.literal_of_goesOn (Or.inl rfl) goesOn
      have whole := literal.maximalRun (numberGoesOn_blanks blank ends)
      have read := (number?_signed digits (-value)).mpr ⟨value, literal, rfl⟩
      let token : Token := ⟨.number (String.ofList ('-' :: digits)) (-value), some before.length⟩
      rw [← List.cons_append, ← List.append_assoc] at later
      have whole : Reads before ('-' :: digits ++ (blanks ++ rest)) (stream.behind [token]) :=
        .number (numberAt_signed begins whole) read (.blanks blank later)
      exact ⟨[token], .number rfl, by simpa using whole⟩
    | false =>
      -- Before anything else, also a blank, it is an operator.
      have apart : numberGoesOn (text ++ rest) = false := (numberGoesOn_append operand.nonempty).trans goesOn
      have symbol : SymbolAt before (text ++ rest) '-' (.operator .negate) := .sign begins apart
      rw [List.append_cons] at later
      obtain ⟨tokens, phrase, reads⟩ := ih (by rw [symbol.opens]; rfl) symbol.isBoundary ends later
      exact ⟨_, .sign rfl phrase, .symbol symbol reads⟩
  | @operation left right a b operation first second ihFirst ihSecond =>
    intro before rest stream begins boundary ends later
    have symbol : SymbolAt (before ++ left) (right ++ rest) operation.char
        (.operator (.binary operation)) := .operation operation fun _ => first.endsOperand before
    rw [← List.append_assoc, List.append_cons] at later
    -- The second operand comes first: what stands behind the first one is needed to read that.
    obtain ⟨tokens', phrase', reads'⟩ :=
      ihSecond (by rw [symbol.opens]; cases operation <;> rfl) symbol.isBoundary ends later
    rw [List.append_assoc, List.cons_append] at boundary ⊢
    obtain ⟨tokens, phrase, reads⟩ := ihFirst begins boundary
      (not_number_of_symbol symbol.mem).1 (.symbol symbol reads')
    exact ⟨_, .operation operation rfl phrase phrase', by
      rwa [TokenStream.cons_behind, TokenStream.behind_behind] at reads⟩
  | tighter inner ih =>
    intro before rest stream begins boundary ends later
    obtain ⟨tokens, phrase, reads⟩ := ih begins boundary ends later
    exact ⟨tokens, .tighter phrase, reads⟩
  | @blankBefore level text value c blank inner ih =>
    intro before rest stream begins boundary ends later
    rw [List.append_cons] at later
    obtain ⟨tokens, phrase, reads⟩ := ih ((operandBegins_blank before blank).trans begins)
      (isBoundary_blank before _ blank) ends later
    exact ⟨tokens, phrase, .blank blank reads⟩
  | @blankAfter level text value c blank inner ih =>
    intro before rest stream begins boundary ends later
    rw [List.append_assoc] at boundary ⊢
    rw [← List.append_assoc] at later
    exact ih begins boundary (isNumberChar_of_isBlank blank) (.blank blank later)

end Reckoner
