import Reckoner.Proofs.Expression.Accepted

/-!
# Expressions in parentheses

A text that has a value keeps it inside parentheses, whatever stands around them: neither the reading of
signs nor the stacks of operators and values reach across the opening parenthesis. This needs no derivation,
so it holds of every accepted text, also of one that is no infix expression.

* `Reads.enclosed`, the text between the parentheses is read as if it stood alone.
* `Encloses`, the tokens put their one value on the stack and leave alone what is below.
* `evaluate_enclosed`, groups, signs and operations on accepted texts.
-/

namespace Reckoner

/-! ### Reading between parentheses -/

/-- The token, read so many characters further on. -/
def Token.moved (distance : Nat) (token : Token) : Token :=
  { token with position := token.position.map (· + distance) }

@[simp] theorem moved_lexeme (distance : Nat) (token : Token) : (token.moved distance).lexeme = token.lexeme :=
  rfl

/-- Looking back from inside a group, nothing is seen of what stands before it. -/
theorem operandBegins_inside (front before : List Char) :
    operandBegins (front ++ '(' :: before) = operandBegins before := by
  have opens : opensOperand '(' = true := by decide
  have solid : Text.isBlank '(' = false := by decide
  simp only [operandBegins, operandStarts, List.reverse_append, List.reverse_cons, List.append_assoc,
    List.singleton_append, List.dropWhile_append]
  cases before.reverse.dropWhile Text.isBlank with
  | nil => simp [solid, opens]
  | cons c rest => rfl

/-- A closing parenthesis ends every number. -/
theorem numberGoesOn_closed (text rest : List Char) :
    numberGoesOn (text ++ ')' :: rest) = numberGoesOn text := by
  cases text <;> rfl

theorem MaximalRun.closed {digits after : List Char} (run : MaximalRun digits after) (rest : List Char) :
    MaximalRun digits (after ++ ')' :: rest) :=
  ⟨run.nonempty, run.numeric, (numberGoesOn_closed after rest).trans run.ends⟩

theorem IsBoundary.enclosed {before text : List Char} (boundary : IsBoundary before text)
    (front rest : List Char) : IsBoundary (front ++ '(' :: before) (text ++ ')' :: rest) := by
  intro goesOn whole c split
  rw [numberGoesOn_closed] at goesOn
  -- The character before the place is the parenthesis itself or stands inside the group.
  rcases List.eq_nil_or_concat before with rfl | ⟨inner, last, rfl⟩
  · obtain ⟨-, same⟩ := List.append_inj' split rfl
    cases same
    exact ⟨by decide, fun sign => absurd sign.1 (by decide)⟩
  · rw [List.concat_eq_append, ← List.cons_append, ← List.append_assoc] at split
    obtain ⟨rfl, same⟩ := List.append_inj' split rfl
    cases same
    rw [operandBegins_inside]
    exact boundary goesOn inner c List.concat_eq_append

theorem NumberAt.enclosed {before run after : List Char} (number : NumberAt before run after)
    (front rest : List Char) : NumberAt (front ++ '(' :: before) run (after ++ ')' :: rest) where
  boundary := by
    rw [← List.append_assoc]
    exact number.boundary.enclosed front rest
  shape := by
    rcases number.shape with whole | ⟨digits, split, begins, whole⟩
    · exact .inl (whole.closed rest)
    · exact .inr ⟨digits, split, (operandBegins_inside front before).trans begins, whole.closed rest⟩

theorem SymbolAt.enclosed {before after : List Char} {c : Char} {lexeme : Lexeme}
    (symbol : SymbolAt before after c lexeme) (front rest : List Char) :
    SymbolAt (front ++ '(' :: before) (after ++ ')' :: rest) c lexeme := by
  cases symbol with
  | leftParen => exact .leftParen
  | rightParen => exact .rightParen
  | sign begins apart =>
    exact .sign ((operandBegins_inside front before).trans begins)
      ((numberGoesOn_closed after rest).trans apart)
  | operation operation binary =>
    exact .operation operation fun minus => (operandBegins_inside front before).trans (binary minus)

/-- What is read of a text alone is read of it inside a group, further on by what stands before it. -/
theorem Reads.enclosed {before text : List Char} {stream : TokenStream} (reads : Reads before text stream)
    (front rest : List Char) {later : TokenStream} :
    stream.fault = none → Reads (front ++ '(' :: before ++ text) (')' :: rest) later →
      Reads (front ++ '(' :: before) (text ++ ')' :: rest)
        (later.behind (stream.tokens.map (·.moved (front.length + 1)))) := by
  -- Every place lies as much further on as there are characters before the inside of the group.
  have place (before : List Char) :
      (front ++ '(' :: before).length = before.length + (front.length + 1) := by
    simp only [List.length_append, List.length_cons]
    omega
  induction reads with
  | done =>
    intro _ reads
    rwa [List.append_nil] at reads
  | @blank before after c stream blank _ ih =>
    intro clean reads
    have inner := ih clean (by simpa using reads)
    exact .blank blank (by simpa using inner)
  | @number before run after value stream number read _ ih =>
    intro clean reads
    have inner := ih clean (by simpa using reads)
    rw [← List.cons_append, ← List.append_assoc] at inner
    have whole := Reads.number (number.enclosed front rest) read inner
    rw [place] at whole
    rw [List.append_assoc]
    exact whole
  | malformed => exact fun clean => nomatch clean
  | @symbol before after c lexeme stream symbol _ ih =>
    intro clean reads
    have inner := ih clean (by simpa using reads)
    rw [← List.cons_append, ← List.append_assoc] at inner
    have whole := Reads.symbol (symbol.enclosed front rest) inner
    rw [place] at whole
    exact whole
  | stray => exact fun clean => nomatch clean

/-! ### Values below -/

/-- Values that are already on the stack stay below everything that a token does. -/
theorem ValueStack.accept_below {stack next : ValueStack} {token : Token}
    (accepted : stack.accept token = .ok next) (below : ValueStack) :
    ValueStack.accept (stack ++ below) token = .ok (next ++ below) := by
  unfold ValueStack.accept at accepted ⊢
  cases lexeme : token.lexeme with
  | number text value =>
    simp only [lexeme] at accepted ⊢
    cases accepted
    rfl
  | leftParen | rightParen =>
    simp only [lexeme] at accepted
    cases accepted
  | operator op =>
    simp only [lexeme] at accepted ⊢
    -- An operator that is accepted finds its operands above.
    rcases op with operation | _
    · match stack, accepted with
      | b :: a :: stack, accepted =>
        cases accepted
        rfl
    · match stack, accepted with
      | a :: stack, accepted =>
        cases accepted
        rfl

theorem foldlM_accept_below {row : List Token} {stack next : ValueStack}
    (run : row.foldlM ValueStack.accept stack = .ok next) (below : ValueStack) :
    row.foldlM ValueStack.accept (stack ++ below) = .ok (next ++ below) := by
  induction row generalizing stack with
  | nil =>
    cases run
    rfl
  | cons token row ih =>
    rw [List.foldlM_cons] at run ⊢
    obtain ⟨middle, accepted, rest⟩ := bind_eq_ok.mp run
    exact bind_eq_ok.mpr ⟨middle ++ below, ValueStack.accept_below accepted below, ih rest⟩

/-! ### Groups -/

/-- The tokens hold together like one value: their row puts it on the stack, whatever lies there. -/
def Encloses (tokens : List Token) (value : Binary64) : Prop :=
  ∃ row, Reorders .values tokens row ∧
    ∀ stack : ValueStack, row.foldlM ValueStack.accept stack = .ok (value :: stack)

/-- A text that has a value, in parentheses: the group holds together, whatever stands around it. -/
theorem encloses_of_evaluate {text : String} {value : Binary64} (evaluated : evaluate text = .ok value)
    (front : List Char) {rest : List Char} {later : TokenStream}
    (reads : Reads (front ++ '(' :: text.toList ++ [')']) rest later) :
    ∃ tokens, Encloses tokens value ∧
      Reads front ('(' :: (text.toList ++ ')' :: rest)) (later.behind tokens) := by
  obtain ⟨tokens, row, alone, order, reduced⟩ := evaluate_eq_ok.mp evaluated
  let opening : Token := ⟨.leftParen, some front.length⟩
  let closing : Token := ⟨.rightParen, some (front ++ '(' :: text.toList).length⟩
  let move : Token → Token := (·.moved (front.length + 1))
  have grouped : Reorders .values (opening :: (tokens.map move ++ [closing])) (row.map move) :=
    .group rfl rfl .empty (order.map (moved_lexeme _))
  refine ⟨_, ⟨row.map move, grouped, fun stack => ?_⟩, ?_⟩
  · rw [postfixValue_eq] at reduced
    obtain ⟨final, run, left⟩ := bind_eq_ok.mp reduced
    rw [result_eq_ok.mp left] at run
    rw [List.foldlM_map]
    -- The places of the tokens do not matter for the values, nor does what is below on the stack.
    exact foldlM_accept_below run stack
  · have closed : Reads (front ++ '(' :: text.toList) (')' :: rest) (later.cons closing) :=
      .symbol .rightParen reads
    have inside := alone.enclosed front rest rfl (by simpa using closed)
    have whole : Reads front ('(' :: (text.toList ++ ')' :: rest)) _ := .symbol .leftParen inside
    simpa [TokenStream.behind, TokenStream.cons, opening, closing, move] using whole

private theorem evaluate_of_run {text : String} {tokens row : List Token} {value : Binary64}
    (reads : Reads [] text.toList ⟨tokens, none⟩) (order : Reorders .sum tokens row)
    (run : row.foldlM ValueStack.accept [] = .ok [value]) : evaluate text = .ok value := by
  refine evaluate_eq_ok.mpr ⟨tokens, row, reads, order, ?_⟩
  rw [postfixValue_eq]
  exact bind_eq_ok.mpr ⟨[value], run, rfl⟩

/-- A group has the value of the text inside it. -/
theorem evaluate_group {text : String} {value : Binary64} (evaluated : evaluate text = .ok value) :
    evaluate ("(" ++ text ++ ")") = .ok value := by
  obtain ⟨tokens, ⟨row, order, run⟩, reads⟩ := encloses_of_evaluate evaluated [] .done
  refine evaluate_of_run ?_ (order.loosened .sum) (run [])
  simpa [TokenStream.behind, TokenStream.done] using reads

/-- A sign before a group takes the opposite of its value. -/
theorem evaluate_signed_group {text : String} {value : Binary64} (evaluated : evaluate text = .ok value) :
    evaluate ("-(" ++ text ++ ")") = .ok (-value) := by
  obtain ⟨tokens, ⟨row, order, run⟩, reads⟩ := encloses_of_evaluate evaluated ['-'] .done
  let sign : Token := ⟨.operator .negate, some 0⟩
  have signed : Reorders .signed ([] ++ sign :: tokens) ([] ++ row ++ [sign]) :=
    .sign rfl .empty (order.loosened .signed)
  -- The parenthesis behind the minus starts no number, so the sign is an operator.
  have whole : Reads [] ('-' :: '(' :: (text.toList ++ [')'])) _ := .symbol (.sign rfl rfl) reads
  refine evaluate_of_run ?_ signed.asSum ?_
  · simpa [TokenStream.behind, TokenStream.done, TokenStream.cons, sign] using whole
  · rw [List.nil_append, List.foldlM_append, run]
    rfl

/-- An operation between two groups takes their values as its operands. -/
theorem evaluate_joined_groups {first second : String} {a b : Binary64} (left : evaluate first = .ok a)
    (right : evaluate second = .ok b) (operation : Operation) :
    evaluate ("(" ++ first ++ ")" ++ operation.char.toString ++ "(" ++ second ++ ")") =
      .ok (operation.apply a b) := by
  let front := '(' :: (first.toList ++ [')'])
  obtain ⟨tokens', ⟨row', order', run'⟩, reads'⟩ :=
    encloses_of_evaluate right (front ++ [operation.char]) .done
  -- Behind a closing parenthesis a minus is a subtraction.
  have ends : operandBegins front = false := operandBegins_solid ('(' :: first.toList) (by decide)
  have joined := Reads.symbol (.operation operation fun _ => ends) reads'
  obtain ⟨tokens, ⟨row, order, run⟩, reads⟩ := encloses_of_evaluate left [] joined
  let sign : Token := ⟨.operator (.binary operation), some front.length⟩
  have whole : Reorders operation.level (tokens ++ sign :: tokens') (row ++ row' ++ [sign]) :=
    .operation operation rfl (order.loosened _) (order'.loosened _)
  refine evaluate_of_run ?_ whole.asSum ?_
  · simpa [TokenStream.behind, TokenStream.done, TokenStream.cons, sign, front, Char.toString] using reads
  · rw [List.foldlM_append, List.foldlM_append, run]
    change (row'.foldlM ValueStack.accept [a] >>= _) = _
    rw [run']
    rfl

/-- Texts that have a value are put together by their values alone: in parentheses a text keeps its value,
a sign before the parentheses takes the opposite, and an operation between two groups takes the values of
both. -/
theorem evaluate_enclosed {text first second : String} {value a b : Binary64}
    (evaluated : evaluate text = .ok value) (left : evaluate first = .ok a)
    (right : evaluate second = .ok b) (operation : Operation) :
    evaluate ("(" ++ text ++ ")") = .ok value ∧
      evaluate ("-(" ++ text ++ ")") = .ok (-value) ∧
      evaluate ("(" ++ first ++ ")" ++ operation.char.toString ++ "(" ++ second ++ ")") =
        .ok (operation.apply a b) :=
  ⟨evaluate_group evaluated, evaluate_signed_group evaluated, evaluate_joined_groups left right operation⟩

/-- Parentheses also hold together a text in which an operator stands behind its operands. -/
theorem evaluate_enclosed_operator_behind :
    let sum := Operation.add.apply (Decimal.toBinary64 false ⟨1, 0⟩) (Decimal.toBinary64 false ⟨2, 0⟩)
    evaluate "1 2+" = .ok sum ∧ evaluate "(1 2+)" = .ok sum ∧ evaluate "-(1 2+)" = .ok (-sum) ∧
      evaluate "(1 2+)-(1 2+)" = .ok (Binary64.sub sum sum) := by
  have one : Literal ['1'] (Decimal.toBinary64 false ⟨1, 0⟩) :=
    .whole (by simp) (List.all_eq_true.mp rfl)
  have two : Literal ['2'] (Decimal.toBinary64 false ⟨2, 0⟩) :=
    .whole (by simp) (List.all_eq_true.mp rfl)
  have found := evaluate_operator_behind .add one two
  exact ⟨found, evaluate_enclosed found found found .sub⟩

end Reckoner
