import Reckoner.Proofs.Checked.Reading
import Reckoner.Proofs.Postfix.Order

/-!
# Ordering bare tokens

The operator stack over bare tokens, each of which is pulled from the text when it is needed. Operators are
looked up by their text, which may name none.

Main result: `Reads.arrange`, what is ordered in this way is the postfix row, and nothing breaks down.
-/

namespace Reckoner

namespace Checked

/-- The operator of a name. -/
def operatorNamed (text : String) : Checked Operator :=
  match Operator.ofSymbol? text with
  | some op => .ok op
  | none => .error (.breakdown ⟨.key, Text.quoted text⟩)

/-- The operators on top of the stack that must not be passed, and the rest of it. -/
def popOperators (incoming : Operator) : List RawToken → Checked (List RawToken × List RawToken)
  | [] => return ([], [])
  | top :: below =>
    if top.kind = .operator then do
      let held ← operatorNamed top.text
      if incoming.traits.popsBefore held.traits then
        let (output, rest) ← popOperators incoming below
        return (top :: output, rest)
      else return ([], top :: below)
    else return ([], top :: below)

/-- The tokens above the nearest opening parenthesis, and the rest of the stack from there on. -/
def popToParen : List RawToken → List RawToken × List RawToken
  | [] => ([], [])
  | top :: below =>
    if top.kind = .leftParen then ([], top :: below)
    else (top :: (popToParen below).1, (popToParen below).2)

def acceptToken (stack : List RawToken) (token : RawToken) : Checked (List RawToken × List RawToken) :=
  match token.kind with
  | .number => return ([token], stack)
  | .operator => do
    let incoming ← operatorNamed token.text
    let (output, rest) ← popOperators incoming stack
    return (output, token :: rest)
  | .leftParen => return ([], token :: stack)
  | .rightParen =>
    match popToParen stack with
    | (_, []) => throw (.fault (.unopened token.position))
    | (output, _ :: below) => return (output, below)

/-- The end of the tokens. Whatever is no operator counts as a parenthesis that is still open. -/
def closeStack : List RawToken → Checked (List RawToken)
  | [] => return []
  | top :: below => do
    if top.kind = .operator then return top :: (← closeStack below)
    else throw (.fault (.unclosed top.position))

/-- Puts the tokens from an index on in order, one by one as they are read. -/
def arrange (text : List Char) (index : Nat) (stack : List RawToken) : Checked (List RawToken) :=
  match _pulled : pull text index with
  | .error stop => .error stop
  | .ok none => closeStack stack
  | .ok (some (token, next)) => do
    let (output, stack) ← acceptToken stack token
    return output ++ (← arrange text next stack)
termination_by text.length - index
decreasing_by
  have progress := pull_progress _pulled
  omega

/-- A computation that cannot break down, taken for one that can. -/
def lift {α β : Type} (change : α → β) (outcome : Except Fault α) : Checked β :=
  (outcome.map change).mapError .fault

section

variable {α β : Type} (change : α → β)

@[simp] theorem lift_ok (found : α) : lift change (.ok found) = .ok (change found) := rfl

@[simp] theorem lift_error (fault : Fault) : lift change (.error fault) = .error (.fault fault) := rfl

end

/-! ### One token -/

@[simp] theorem operatorNamed_symbol (op : Operator) : operatorNamed op.symbol = .ok op := by
  rw [operatorNamed, Operator.ofSymbol?_symbol]

theorem popOperators_raw (incoming : Operator) (stack : OperatorStack) :
    popOperators incoming (stack.map Token.raw) =
      .ok ((stack.takeWhile (OperatorStack.yieldsTo incoming)).map Token.raw,
        (stack.dropWhile (OperatorStack.yieldsTo incoming)).map Token.raw) := by
  induction stack with
  | nil => rfl
  | cons top below ih =>
    rw [List.map_cons, popOperators, ih]
    cases lexeme : top.lexeme with
    | operator op =>
      have yields : OperatorStack.yieldsTo incoming top = incoming.traits.popsBefore op.traits := by
        rw [OperatorStack.yieldsTo, lexeme]
      obtain ⟨kind, name⟩ := Token.raw_operator lexeme
      rw [if_pos kind, name, operatorNamed_symbol, ok_bind]
      cases pops : incoming.traits.popsBefore op.traits <;> simp [yields, pops]
    | number | leftParen | rightParen =>
      have yields : OperatorStack.yieldsTo incoming top = false := by rw [OperatorStack.yieldsTo, lexeme]
      simp [lexeme, Lexeme.kind, yields]

theorem popToParen_raw (stack : OperatorStack) :
    popToParen (stack.map Token.raw) =
      ((stack.takeWhile (!OperatorStack.isLeftParen ·)).map Token.raw,
        (stack.dropWhile (!OperatorStack.isLeftParen ·)).map Token.raw) := by
  induction stack with
  | nil => rfl
  | cons top below ih =>
    rw [List.map_cons, popToParen, ih]
    cases lexeme : top.lexeme <;> simp [lexeme, Lexeme.kind, OperatorStack.isLeftParen]

/-- One token does the same to the stack, be it bare or not. -/
theorem acceptToken_raw (stack : OperatorStack) (token : Token) :
    acceptToken (stack.map Token.raw) token.raw =
      lift (fun (output, next) => (output.map Token.raw, next.map Token.raw)) (stack.accept token) := by
  rw [acceptToken, OperatorStack.accept, Token.raw_kind]
  cases lexeme : token.lexeme with
  | number => rfl
  | leftParen => rfl
  | operator op =>
    simp only [Lexeme.kind, (Token.raw_operator lexeme).2, operatorNamed_symbol, popOperators_raw, ok_bind]
    rfl
  | rightParen =>
    simp only [Lexeme.kind, popToParen_raw]
    cases stack.dropWhile (!OperatorStack.isLeftParen ·) with
    | nil => rfl
    | cons paren below => rfl

/-! ### The end of the tokens -/

/-- What is waiting on a stack: operators and opening parentheses. -/
def Waiting (stack : OperatorStack) : Prop :=
  ∀ token ∈ stack, token.lexeme.kind = .operator ∨ token.lexeme.kind = .leftParen

theorem Waiting.accept {stack next : OperatorStack} {token : Token} {output : List Token}
    (waiting : Waiting stack) (accepted : stack.accept token = .ok (output, next)) : Waiting next := by
  unfold OperatorStack.accept at accepted
  cases lexeme : token.lexeme with
  | number =>
    rw [lexeme] at accepted
    cases accepted
    exact waiting
  | leftParen =>
    rw [lexeme] at accepted
    cases accepted
    exact List.forall_mem_cons.mpr ⟨.inr (by rw [lexeme]; rfl), waiting⟩
  | operator op =>
    rw [lexeme] at accepted
    cases accepted
    -- The operator rests on a part of what was there before.
    refine List.forall_mem_cons.mpr ⟨.inl (by rw [lexeme]; rfl), fun token member => ?_⟩
    exact waiting token ((List.dropWhile_sublist _).subset member)
  | rightParen =>
    simp only [lexeme] at accepted
    split at accepted
    · cases accepted
    next paren below found =>
      cases accepted
      intro token member
      refine waiting token ((List.dropWhile_sublist (!OperatorStack.isLeftParen ·)).subset ?_)
      rw [found]
      exact List.mem_cons_of_mem paren member

theorem closeStack_raw {stack : OperatorStack} (waiting : Waiting stack) :
    closeStack (stack.map Token.raw) = lift (List.map Token.raw) stack.close := by
  induction stack with
  | nil => rfl
  | cons top below ih =>
    obtain ⟨first, rest⟩ := List.forall_mem_cons.mp waiting
    rw [List.map_cons, closeStack, ih rest, OperatorStack.close, OperatorStack.close]
    cases lexeme : top.lexeme with
    | operator op =>
      -- An operator is output, unless a parenthesis is open further below.
      have other : OperatorStack.isLeftParen top = false := by simp [OperatorStack.isLeftParen, lexeme]
      rw [List.find?_cons_of_neg (by simp [other]), if_pos (Token.raw_operator lexeme).1]
      cases below.find? OperatorStack.isLeftParen with
      | none => rfl
      | some paren => rfl
    | leftParen =>
      have paren : OperatorStack.isLeftParen top = true := by simp [OperatorStack.isLeftParen, lexeme]
      rw [List.find?_cons_of_pos paren, if_neg (by simp [lexeme, Lexeme.kind])]
      rfl
    -- Nothing else is ever waiting.
    | number | rightParen => simp [lexeme, Lexeme.kind] at first

/-! ### The whole text -/

section

variable {text : List Char} {index next : Nat} {stack : List RawToken}

theorem arrange_done (done : pull text index = .ok none) : arrange text index stack = closeStack stack := by
  rw [arrange]
  split <;> simp_all

theorem arrange_error {stop : Stop} (stopped : pull text index = .error stop) :
    arrange text index stack = .error stop := by
  rw [arrange]
  split <;> simp_all

theorem arrange_token {token : RawToken} (found : pull text index = .ok (some (token, next))) :
    arrange text index stack =
      acceptToken stack token >>= fun (output, stack) => (arrange text next stack).map (output ++ ·) := by
  rw [arrange]
  split
  · simp_all
  · simp_all
  next token' next' same =>
    rw [found] at same
    cases same
    cases acceptToken stack token with
    | error stop => rfl
    | ok accepted =>
      simp only [ok_bind]
      cases arrange text next accepted.2 <;> rfl

/-- Where the same token is found, the same row is arranged. -/
theorem arrange_congr {other : Nat} (same : pull text index = pull text other) :
    arrange text index stack = arrange text other stack := by
  cases found : pull text other with
  | error stop => rw [arrange_error (same.trans found), arrange_error found]
  | ok pulled =>
    cases pulled with
    | none => rw [arrange_done (same.trans found), arrange_done found]
    | some pulled => rw [arrange_token (same.trans found), arrange_token found]

end

/-- What one accepted token and the tokens behind it are arranged to. -/
theorem arrange_drain {text : List Char} {index next : Nat} {token : Token} {stream : TokenStream}
    {stack : OperatorStack} (found : pull text index = .ok (some (token.raw, next)))
    (later : ∀ {stack : OperatorStack}, Waiting stack →
      arrange text next (stack.map Token.raw) = lift (List.map Token.raw) (stack.drain stream.tokens stream.fault))
    (waiting : Waiting stack) :
    arrange text index (stack.map Token.raw) =
      lift (List.map Token.raw) (stack.drain (token :: stream.tokens) stream.fault) := by
  rw [arrange_token found, acceptToken_raw]
  cases accepted : stack.accept token with
  | error fault =>
    rw [drain_error accepted]
    rfl
  | ok result =>
    rw [drain_ok accepted, lift_ok, ok_bind]
    simp only [later (waiting.accept accepted)]
    cases result.2.drain stream.tokens stream.fault with
    | error fault => rfl
    | ok row => simp [Except.map]

end Checked

/-- Tokens that are pulled one by one are put in the same order as those of the stream. -/
theorem Reads.arrange {before text : List Char} {stream : TokenStream} (reads : Reads before text stream) :
    ∀ {stack : OperatorStack}, Checked.Waiting stack →
      Checked.arrange (before ++ text) before.length (stack.map Token.raw) =
        Checked.lift (List.map Token.raw) (stack.drain stream.tokens stream.fault) := by
  -- Each step is one round of the loop; over blanks the round only starts further behind.
  induction reads with
  | @done before =>
    intro stack waiting
    rw [List.append_nil, Checked.arrange_done (Checked.pull_done before)]
    exact Checked.closeStack_raw waiting
  | @blank before rest c stream blank _ ih =>
    intro stack waiting
    rw [Checked.arrange_congr (Checked.pull_blank blank), List.append_cons]
    exact ih waiting
  | @number before run rest value stream number read _ ih =>
    intro stack waiting
    have found := Checked.pull_number number
    rw [read] at found
    refine Checked.arrange_drain found ?_ waiting
    rw [← List.append_assoc]
    exact ih
  | @malformed before run rest number unread =>
    intro stack _
    have stopped := Checked.pull_number number
    rw [unread] at stopped
    exact Checked.arrange_error stopped
  | @symbol before rest c lexeme stream symbol _ ih =>
    intro stack waiting
    refine Checked.arrange_drain (Checked.pull_symbol symbol) ?_ waiting
    rw [List.append_cons]
    exact ih
  | stray stray => exact fun _ => Checked.arrange_error (Checked.pull_stray stray)

theorem arrange_eq (text : String) :
    Checked.arrange text.toList 0 [] = Checked.lift (List.map Token.raw) (postfixRow (scan text)) := by
  have nothing : Checked.Waiting [] := fun _ member => nomatch member
  exact (reads_scan text).arrange nothing

end Reckoner
