import Reckoner.Expression
import Reckoner.Proofs.Parentheses
import Reckoner.Proofs.Postfix.Operands
import Reckoner.Proofs.Token.Faults

/-!
# Which fault is reported

The scanner and the operator stack race: the stack takes each token as soon as it is read, so the fault that
stands first in the text is reported, be it lexical or a closing parenthesis. Parentheses that are never
closed only show at the end of the text, and missing operands after that.

Main result: `diagnosed_cases`, the report for every text.
-/

namespace Reckoner

/-! ### What is met while reading -/

/-- A fault that is met at a position of the text. -/
def Met (text : List Char) (position : Nat) (fault : Fault) : Prop :=
  LexicalFault text position fault ∨
    Unopened text position ∧ fault = .unopened (some (position : Int))

/-- Nothing is met before a position. -/
def Quiet (text : List Char) (limit : Nat) : Prop :=
  ∀ position < limit, ∀ fault, ¬ Met text position fault

/-- What putting the tokens of a text in order comes to. -/
inductive Verdict (text : List Char) : Except Fault (List Token) → Prop
  | met {position : Nat} {fault : Fault} (met : Met text position fault) (first : Quiet text position) :
      Verdict text (.error fault)
  | unclosed {position : Nat} (quiet : Quiet text text.length) (never : NeverClosed text position)
      (last : ∀ later, position < later → ¬ NeverClosed text later) :
      Verdict text (.error (.unclosed (some (position : Int))))
  | ordered {row : List Token} (quiet : Quiet text text.length)
      (closed : ∀ position, ¬ NeverClosed text position) : Verdict text (.ok row)

theorem Verdict.map {text : List Char} {found : Except Fault (List Token)} (verdict : Verdict text found)
    (change : List Token → List Token) : Verdict text (found.map change) := by
  cases verdict with
  | met met first => exact .met met first
  | unclosed quiet never last => exact .unclosed quiet never last
  | ordered quiet closed => exact .ordered quiet closed

theorem Unopened.char {text : List Char} {position : Nat} (unopened : Unopened text position) :
    text[position]? = some ')' := by
  obtain ⟨before, after, rfl, rfl, -⟩ := unopened
  simp

theorem Quiet.extend {text : List Char} {limit further : Nat} (quiet : Quiet text limit)
    (nothing : ∀ position, limit ≤ position → position < further → ∀ fault, ¬ Met text position fault) :
    Quiet text further := by
  intro position below fault
  -- The places read so far are known to be quiet.
  rcases Nat.lt_or_ge position limit with earlier | later
  · exact quiet position earlier fault
  · exact nothing position later below fault

/-- Reading one character at which nothing is met. -/
theorem Quiet.next {before rest : List Char} {c : Char} (quiet : Quiet (before ++ c :: rest) before.length)
    (regular : ∀ fault, ¬ LexicalFault (before ++ c :: rest) before.length fault)
    (opened : ¬ Unopened (before ++ c :: rest) before.length) :
    Quiet (before ++ [c] ++ rest) (before ++ [c]).length := by
  rw [List.append_assoc, List.singleton_append]
  refine quiet.extend fun position start finish fault => ?_
  rw [List.length_append, List.length_singleton] at finish
  cases Nat.le_antisymm (Nat.le_of_lt_succ finish) start
  rintro (lexical | ⟨unopened, -⟩)
  · exact regular fault lexical
  · exact opened unopened

private theorem not_unopened {before rest : List Char} {c : Char} (other : c ≠ ')') :
    ¬ Unopened (before ++ c :: rest) before.length := by
  intro unopened
  have found := unopened.char
  simp at found
  exact other found

private theorem not_paren_of_isBlank {c : Char} (blank : Text.isBlank c = true) : c ≠ '(' ∧ c ≠ ')' := by
  constructor <;> rintro rfl <;> cases blank

private theorem not_paren_of_isNumberChar {c : Char} (number : isNumberChar c = true) :
    c ≠ '(' ∧ c ≠ ')' := by
  constructor <;> rintro rfl <;> revert number <;> decide

theorem NumberAt.not_paren {before run rest : List Char} (number : NumberAt before run rest) :
    ∀ c ∈ run, c ≠ '(' ∧ c ≠ ')' := by
  intro c member
  rcases number.shape with whole | ⟨digits, rfl, -, whole⟩
  · exact not_paren_of_isNumberChar (whole.numeric c member)
  · rcases List.mem_cons.mp member with rfl | digit
    · decide
    · exact not_paren_of_isNumberChar (whole.numeric c digit)

/-- Reading a number at which nothing is met. -/
theorem Quiet.number {before run rest : List Char} (quiet : Quiet (before ++ (run ++ rest)) before.length)
    (number : NumberAt before run rest) (formed : ¬ Malformed run) :
    Quiet (before ++ run ++ rest) (before ++ run).length := by
  rw [List.append_assoc]
  refine quiet.extend fun position start finish fault => ?_
  rintro (lexical | ⟨unopened, -⟩)
  · exact LexicalFault.not_number number formed start finish lexical
  · -- The closing parenthesis would be a character of the run.
    have found := unopened.char
    rw [← List.append_assoc, List.getElem?_append_left finish, List.getElem?_append_right start] at found
    exact (number.not_paren _ (List.mem_of_getElem? found)).2 rfl

/-! ### One step of the stack -/

/-- The parentheses on the stack stand at the given positions. -/
def Holds (stack : OperatorStack) (positions : List Nat) : Prop :=
  stack.parens.map (·.position) = positions.map fun position : Nat => some (position : Int)

/-- The stack reports what is met first, or else the last parenthesis that is never closed. -/
theorem Reads.verdict {before text : List Char} {stream : TokenStream} (reads : Reads before text stream) :
    ∀ {stack : OperatorStack} {positions : List Nat}, Open before positions → Holds stack positions →
      Quiet (before ++ text) before.length →
      Verdict (before ++ text) (stack.drain stream.tokens stream.fault) := by
  induction reads with
  | @done before =>
    intro stack positions opened holds quiet
    -- The end: the stack holds the parentheses that are still open, and the text has all been read.
    obtain ⟨never, last⟩ := opened.last_neverClosed
    rw [List.append_nil] at quiet ⊢
    change Verdict before stack.close
    rw [close_eq]
    cases parens : stack.parens with
    | nil =>
      rw [Holds, parens] at holds
      cases positions with
      | nil => exact .ordered quiet fun position => last position (by simp)
      | cons position positions => cases holds
    | cons paren parens' =>
      rw [Holds, parens] at holds
      cases positions with
      | nil => cases holds
      | cons position positions =>
        simp only [List.map_cons, List.cons.injEq] at holds
        simp only [holds.1]
        exact .unclosed quiet (never position rfl) fun later beyond =>
          last later fun top same => by cases Option.mem_some.mp same; exact beyond
  | @blank before rest c stream blank _ ih =>
    intro stack positions opened holds quiet
    have neither := not_paren_of_isBlank blank
    rw [List.append_cons] 
    refine ih (opened.other neither) holds ?_
    exact quiet.next (fun _ => LexicalFault.not_blank blank) (not_unopened neither.2)
  | @number before run rest value stream number read _ ih =>
    intro stack positions opened holds quiet
    -- A number that was read is not malformed, and has no parenthesis in it.
    have formed : ¬ Malformed run := by
      rw [← number.unread_iff, read]
      simp
    rw [← List.append_assoc]
    change Verdict _ (stack.drain (_ :: stream.tokens) stream.fault)
    rw [drain_ok (accept_number stack rfl)]
    exact (ih (opened.others number.not_paren) holds (quiet.number number formed)).map _
  | @malformed before run rest number unread =>
    intro stack positions opened holds quiet
    exact .met (.inl (.number rfl number (number.unread_iff.mp unread))) quiet
  | @stray before rest c stray =>
    intro stack positions opened holds quiet
    exact .met (.inl (.character rfl stray)) quiet
  | @symbol before rest c lexeme stream symbol _ ih =>
    intro stack positions opened holds quiet
    let token : Token := ⟨lexeme, some before.length⟩
    change Verdict _ (stack.drain (token :: stream.tokens) stream.fault)
    -- A symbol that the stack accepts is no fault, so the verdict is that of the text behind it.
    have accepted {output : List Token} {next : OperatorStack} {positions' : List Nat}
        (found : stack.accept token = .ok (output, next)) (opened' : Open (before ++ [c]) positions')
        (holds' : Holds next positions') (partner : ¬ Unopened (before ++ c :: rest) before.length) :
        Verdict (before ++ c :: rest) (stack.drain (token :: stream.tokens) stream.fault) := by
      have further := quiet.next (fun _ => LexicalFault.not_symbol symbol) partner
      rw [drain_ok found, List.append_cons]
      exact (ih opened' holds' further).map _
    cases symbol with
    | leftParen =>
      refine accepted (accept_leftParen stack rfl) opened.opening ?_ (not_unopened (by decide))
      rw [Holds, parens_leftParen stack rfl, List.map_cons, List.map_cons, holds]
    | rightParen =>
      have lexeme : token.lexeme = .rightParen := rfl
      rcases parens_rightParen stack lexeme with ⟨none, refused⟩ | ⟨paren, output, next, top, found⟩
      · -- No parenthesis is on the stack, so none is open in the text: this is the first fault.
        rw [Holds, none] at holds
        have nothing := List.map_eq_nil_iff.mp holds.symm
        rw [drain_error refused]
        exact .met (.inr ⟨opened.unopened_iff.mpr nothing, rfl⟩) quiet
      · -- The one on top is the last that is open, and both are taken away.
        rw [Holds, top] at holds
        cases positions with
        | nil => cases holds
        | cons position positions =>
          refine accepted found opened.closing (List.cons.inj holds).2 ?_
          rw [opened.unopened_iff]
          simp
    | sign =>
      have lexeme : token.lexeme = .operator .negate := rfl
      obtain ⟨output, next, found, same⟩ := parens_operator stack lexeme
      refine accepted found (opened.other (by decide)) ?_ (not_unopened (by decide))
      rwa [Holds, same]
    | operation operation =>
      have lexeme : token.lexeme = .operator (.binary operation) := rfl
      have neither : operation.char ≠ '(' ∧ operation.char ≠ ')' := by cases operation <;> decide
      obtain ⟨output, next, found, same⟩ := parens_operator stack lexeme
      refine accepted found (opened.other neither) ?_ (not_unopened neither.2)
      rwa [Holds, same]

theorem postfixRow_verdict (text : String) : Verdict text.toList (postfixRow (scan text)) := by
  have quiet : Quiet ([] ++ text.toList) 0 := fun position below => absurd below (Nat.not_lt_zero position)
  exact (reads_scan text).verdict (.closed .empty) rfl quiet

/-! ### There is one verdict -/

theorem Met.lt_length {text : List Char} {position : Nat} {fault : Fault} (met : Met text position fault) :
    position < text.length := by
  rcases met with lexical | ⟨⟨before, after, rfl, rfl, -⟩, -⟩
  · cases lexical with
    | character split _ => simp [split]
    | number split number _ =>
      obtain ⟨c, tail, rfl, -⟩ := number.first
      simp [split]
  · simp

theorem Met.unique {text : List Char} {position : Nat} {fault other : Fault}
    (met : Met text position fault) (again : Met text position other) : fault = other := by
  -- A closing parenthesis is a symbol, so no lexical fault is at its place.
  have apart {fault : Fault} (lexical : LexicalFault text position fault) : ¬ Unopened text position := by
    rintro ⟨before, after, rfl, rfl, -⟩
    exact LexicalFault.not_symbol .rightParen lexical
  rcases met with lexical | ⟨unopened, rfl⟩ <;> rcases again with lexical' | ⟨unopened', rfl⟩
  · exact lexical.unique lexical'
  · exact absurd unopened' (apart lexical)
  · exact absurd unopened (apart lexical')
  · rfl

variable {text : List Char} {found : Except Fault (List Token)}

theorem Verdict.of_met {position : Nat} {fault : Fault} (verdict : Verdict text found)
    (met : Met text position fault) (first : Quiet text position) : found = .error fault := by
  cases verdict with
  | @met position' fault' met' first' =>
    -- Of two different places the later one would have something met before it.
    rcases Nat.lt_trichotomy position position' with earlier | rfl | later
    · exact absurd met (first' position earlier fault)
    · rw [met.unique met']
    · exact absurd met' (first position' later fault')
  | unclosed quiet => exact absurd met (quiet position met.lt_length fault)
  | ordered quiet => exact absurd met (quiet position met.lt_length fault)

theorem Verdict.of_unclosed {position : Nat} (verdict : Verdict text found)
    (quiet : ∀ position fault, ¬ Met text position fault) (never : NeverClosed text position)
    (last : ∀ later, position < later → ¬ NeverClosed text later) :
    found = .error (.unclosed (some (position : Int))) := by
  cases verdict with
  | met met => exact absurd met (quiet _ _)
  | @unclosed position' _ never' last' =>
    -- Both are the last one that is never closed.
    rcases Nat.lt_trichotomy position position' with below | rfl | above
    · exact absurd never' (last position' below)
    · rfl
    · exact absurd never (last' position above)
  | ordered _ closed => exact absurd never (closed position)

theorem Verdict.of_closed (verdict : Verdict text found)
    (quiet : ∀ position fault, ¬ Met text position fault) (closed : ∀ position, ¬ NeverClosed text position) :
    ∃ row, found = .ok row := by
  cases verdict with
  | met met => exact absurd met (quiet _ _)
  | unclosed _ never => exact absurd never (closed _)
  | ordered => exact ⟨_, rfl⟩

/-! ### Reports -/

/-- The value of a text, or the report of its fault, with the text as its expression. -/
def diagnosed (text : String) : Except Diagnosis Binary64 :=
  (evaluate text).mapError (Diagnosis.ofFault (.text text))

theorem diagnosed_of_error {text : String} {fault : Fault} (failed : postfixRow (scan text) = .error fault) :
    diagnosed text = .error (Diagnosis.ofFault (.text text) fault) := by
  have stopped : evaluate text = .error fault := bind_eq_error.mpr (.inl failed)
  rw [diagnosed, stopped]
  rfl

/-- The report says that the expression as a whole is not valid. -/
def OfExpression (fault : Fault) : Prop :=
  ∀ expression, Diagnosis.ofFault expression fault = .invalidExpression fault.message expression

theorem accept_ofExpression {stack : ValueStack} {token : Token} {fault : Fault}
    (refused : stack.accept token = .error fault) : OfExpression fault := by
  rw [ValueStack.accept] at refused
  cases lexeme : token.lexeme with
  | number => simp [lexeme] at refused
  | leftParen | rightParen =>
    rw [lexeme] at refused
    cases refused
    exact fun _ => rfl
  | operator op =>
    simp only [lexeme] at refused
    cases operated : stack.operate? op with
    | some next => simp [operated] at refused
    | none =>
      rw [operated] at refused
      cases refused
      exact fun _ => rfl

theorem foldlM_ofExpression {row : List Token} {fault : Fault} :
    ∀ {stack : ValueStack}, row.foldlM ValueStack.accept stack = .error fault → OfExpression fault := by
  induction row with
  | nil => exact fun failed => by cases failed
  | cons token row ih =>
    intro stack failed
    rw [List.foldlM_cons] at failed
    rcases bind_eq_error.mp failed with refused | ⟨next, -, later⟩
    · exact accept_ofExpression refused
    · exact ih later

theorem result_ofExpression {stack : ValueStack} {fault : Fault} (failed : stack.result = .error fault) :
    OfExpression fault := by
  match stack with
  | [] =>
    cases failed
    exact fun _ => rfl
  | [value] => cases failed
  | a :: b :: below =>
    cases failed
    exact fun _ => rfl

/-- A postfix row fails only as a whole expression. -/
theorem postfixValue_ofExpression {row : List Token} {fault : Fault}
    (failed : postfixValue row = .error fault) : OfExpression fault := by
  rw [postfixValue_eq] at failed
  rcases bind_eq_error.mp failed with folded | ⟨stack, -, left⟩
  · exact foldlM_ofExpression folded
  · exact result_ofExpression left

theorem ofFault_expression (expression : Value) (fault : Fault) :
    (Diagnosis.ofFault expression fault).expression = expression := by
  cases fault <;> rfl

/-- The report for every text. The first lexical fault is reported if no unopened parenthesis stands before
it, and the first unopened parenthesis if no lexical fault does. If there is neither, the last parenthesis
that is never closed is reported. Otherwise the text has a value, or it is no valid expression. Every report
names the text as its expression. -/
theorem diagnosed_cases (text : String) :
    (∀ (position : Nat) (c : Char),
      LexicalFault text.toList position (.invalidCharacter c position) →
      (∀ earlier < position, ∀ fault, ¬ LexicalFault text.toList earlier fault) →
      (∀ earlier < position, ¬ Unopened text.toList earlier) →
      diagnosed text = .error (.invalidCharacter c.toString position (.text text))) ∧
    (∀ (position : Nat) (run : String),
      LexicalFault text.toList position (.invalidNumber run) →
      (∀ earlier < position, ∀ fault, ¬ LexicalFault text.toList earlier fault) →
      (∀ earlier < position, ¬ Unopened text.toList earlier) →
      diagnosed text = .error (.invalidNumber run (.text text))) ∧
    (∀ position : Nat, Unopened text.toList position →
      (∀ earlier < position, ¬ Unopened text.toList earlier) →
      (∀ earlier < position, ∀ fault, ¬ LexicalFault text.toList earlier fault) →
      diagnosed text = .error (.mismatchedParentheses
        s!"Missing '(' for ')' at position {position}." (.text text))) ∧
    ((∀ position fault, ¬ LexicalFault text.toList position fault) →
      (∀ position, ¬ Unopened text.toList position) →
      (∀ position : Nat, NeverClosed text.toList position →
        (∀ later, position < later → ¬ NeverClosed text.toList later) →
        diagnosed text = .error (.mismatchedParentheses
          s!"Missing ')' for '(' at position {position}." (.text text))) ∧
      ((∀ position, ¬ NeverClosed text.toList position) →
        (∃ value, diagnosed text = .ok value) ∨
          ∃ message, diagnosed text = .error (.invalidExpression message (.text text)))) ∧
    ∀ diagnosis, diagnosed text = .error diagnosis → diagnosis.expression = .text text := by
  have verdict := postfixRow_verdict text
  have quiet {limit : Nat} (lexical : ∀ earlier < limit, ∀ fault, ¬ LexicalFault text.toList earlier fault)
      (opened : ∀ earlier < limit, ¬ Unopened text.toList earlier) : Quiet text.toList limit := by
    intro earlier below fault
    rintro (found | ⟨unopened, -⟩)
    · exact lexical earlier below fault found
    · exact opened earlier below unopened
  refine ⟨?_, ?_, ?_, ?_, ?_⟩
  -- The three faults that are met while reading.
  · intro position c fault lexical opened
    exact diagnosed_of_error (verdict.of_met (.inl fault) (quiet lexical opened))
  · intro position run fault lexical opened
    exact diagnosed_of_error (verdict.of_met (.inl fault) (quiet lexical opened))
  · intro position unopened opened lexical
    exact diagnosed_of_error (verdict.of_met (.inr ⟨unopened, rfl⟩) (quiet lexical opened))
  -- Nothing is met, so the text is read to its end.
  · intro lexical opened
    have nothing : ∀ position fault, ¬ Met text.toList position fault := by
      rintro position fault (found | ⟨unopened, -⟩)
      · exact lexical position fault found
      · exact opened position unopened
    constructor
    · intro position never last
      exact diagnosed_of_error (verdict.of_unclosed nothing never last)
    · intro closed
      obtain ⟨row, ordered⟩ := verdict.of_closed nothing closed
      -- The tokens are in order, so what can still fail is the counting of operands.
      have whole : evaluate text = postfixValue row := by
        rw [evaluate, ordered]
        rfl
      rw [diagnosed, whole]
      cases reduced : postfixValue row with
      | ok value => exact .inl ⟨value, rfl⟩
      | error fault =>
        refine .inr ⟨fault.message, ?_⟩
        rw [← postfixValue_ofExpression reduced]
        rfl
  -- The report is made of the fault and the text, whatever the fault.
  · intro diagnosis failed
    rw [diagnosed] at failed
    cases evaluated : evaluate text with
    | ok value => simp [evaluated, Except.mapError] at failed
    | error fault =>
      rw [evaluated] at failed
      cases failed
      exact ofFault_expression _ fault

/-- Of two faults, the one that stands first in the text is reported. -/
theorem diagnosed_race :
    diagnosed "$)" = .error (.invalidCharacter "$" 0 (.text "$)")) ∧
      diagnosed ")$" = .error (.mismatchedParentheses "Missing '(' for ')' at position 0." (.text ")$")) := by
  have nothing {claim : Nat → Prop} : ∀ earlier < 0, claim earlier :=
    fun earlier below => absurd below (Nat.not_lt_zero earlier)
  have split : "$)".toList = [] ++ '$' :: [')'] := rfl
  have stray : LexicalFault "$)".toList 0 (.invalidCharacter '$' 0) := .character split (by decide)
  have unopened : Unopened ")$".toList 0 := ⟨[], ['$'], rfl, rfl, by decide⟩
  exact ⟨(diagnosed_cases "$)").1 0 '$' stray nothing nothing,
    (diagnosed_cases ")$").2.2.1 0 unopened nothing nothing⟩

end Reckoner
