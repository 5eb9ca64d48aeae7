import Reckoner.Expression
import Reckoner.Proofs.Infix.Spelling
import Reckoner.Proofs.Postfix.Operands

/-!
# Which texts have a value

Reading, reordering and reducing together: an infix expression has the value of its derivation. The converse
holds for the texts in which no value follows another. In general it is only the operands of the postfix row
that are counted, and a row can have enough of them in the wrong places.

* `evaluate_infix`, the value of an infix expression.
* `evaluate_ok_iff`, the texts that have a value.
-/

namespace Reckoner

/-! ### Infix expressions -/

/-- An expression is read to its end, and its tokens are a phrase. -/
theorem Infix.scan_eq {text : String} {value : Binary64} (derivation : Infix .sum text.toList value) :
    ∃ tokens, scan text = ⟨tokens, none⟩ ∧ Phrase .sum tokens value := by
  have nothing : Reads ([] ++ text.toList) [] .done := .done
  obtain ⟨tokens, phrase, reads⟩ := derivation.reads operandBegins_nil (isBoundary_nil _) rfl nothing
  rw [List.append_nil] at reads
  refine ⟨tokens, reads.scan_eq.trans ?_, phrase⟩
  rw [TokenStream.behind, TokenStream.done, List.append_nil]

/-- The value of a text that can be derived as an expression is the value of its derivation: operations of
one level are taken from the left, powers from the right, and a sign before the power that follows, whether
the sign is read as part of a literal or as an operator. -/
theorem evaluate_infix {text : String} {value : Binary64} (derivation : Infix .sum text.toList value) :
    evaluate text = .ok value := by
  obtain ⟨tokens, scanned, phrase⟩ := derivation.scan_eq
  rw [evaluate, scanned]
  exact phrase.value

theorem evaluate_signed_power :
    evaluate "-2 ^ 2" =
      .ok (Binary64.pow (-Decimal.toBinary64 false ⟨2, 0⟩) (Decimal.toBinary64 false ⟨2, 0⟩)) := by
  have literal : Literal ['2'] (Decimal.toBinary64 false ⟨digitsValue ['2'], 0⟩) :=
    .whole (by simp) (List.all_eq_true.mp rfl)
  have read : digitsValue ['2'] = 2 := rfl
  rw [read] at literal
  generalize Decimal.toBinary64 false ⟨2, 0⟩ = two at literal ⊢
  have signed : Infix .signed (['-', '2'] ++ [' ']) (-two) :=
    .blankAfter (by decide) (.sign (.literal literal))
  have exponent : Infix .power [' ', '2'] two := .blankBefore (by decide) (.tighter (.literal literal))
  exact evaluate_infix (.tighter (.tighter (.operation .pow signed exponent)))

/-! ### Texts in which a value follows another -/

/-- The text ends with a value: a digit, a point or a closing parenthesis, and blanks. -/
def EndsValue (text : List Char) : Prop :=
  ∃ front c blanks, text = front ++ c :: blanks ∧ (∀ d ∈ blanks, Text.isBlank d = true) ∧
    (isNumberChar c = true ∨ c = ')')

/-- A value directly follows another: only blanks stand between the end of the one and the start of the
other. -/
def Juxtaposed (text : List Char) : Prop :=
  ∃ before c blanks d after, text = before ++ c :: (blanks ++ d :: after) ∧
    (∀ e ∈ blanks, Text.isBlank e = true) ∧
    (isNumberChar c = true ∨ c = ')') ∧ (isNumberChar d = true ∨ d = '(') ∧
    ¬ (isNumberChar c = true ∧ isNumberChar d = true ∧ blanks = [])

theorem EndsValue.blank {text : List Char} {c : Char} (ends : EndsValue text)
    (blank : Text.isBlank c = true) : EndsValue (text ++ [c]) := by
  obtain ⟨front, last, blanks, rfl, clear, value⟩ := ends
  refine ⟨front, last, blanks ++ [c], by simp, ?_, value⟩
  intro d member
  rcases List.mem_append.mp member with old | new
  · exact clear d old
  · rwa [List.mem_singleton.mp new]

theorem EndsValue.no_operand {text : List Char} (ends : EndsValue text) : operandBegins text = false := by
  obtain ⟨front, c, blanks, rfl, clear, value⟩ := ends
  rw [List.append_cons, operandBegins_blanks _ clear]
  rcases value with number | rfl
  · exact operandBegins_number front number
  · rw [operandBegins_solid front (by decide)]
    decide

/-- Behind a value, a text in which no value follows another goes on with no number and no group. -/
private theorem EndsValue.separate {before rest : List Char} {c : Char} (ends : EndsValue before)
    (separate : ¬ Juxtaposed (before ++ c :: rest)) (boundary : IsBoundary before (c :: rest)) :
    ¬ (isNumberChar c = true ∨ c = '(') := by
  intro starts
  obtain ⟨front, last, blanks, rfl, clear, value⟩ := ends
  refine separate ⟨front, last, blanks, c, rest, by simp, clear, value, starts, ?_⟩
  rintro ⟨number, goesOn, rfl⟩
  rw [(boundary goesOn front last rfl).1] at number
  cases number

theorem NumberAt.endsValue {before run rest : List Char} (number : NumberAt before run rest) :
    EndsValue (before ++ run) := by
  obtain ⟨front, c, rfl, last⟩ := number.last
  exact ⟨before ++ front, c, [], by simp, by simp, .inl last⟩

/-- Where no value follows another in a text, none does among its tokens. -/
theorem Reads.apart {before text : List Char} {stream : TokenStream} (reads : Reads before text stream) :
    ¬ Juxtaposed (before ++ text) → Apart stream.tokens ∧
      (EndsValue before → ∀ token ∈ stream.tokens.head?, token.lexeme.startsValue = false) := by
  induction reads with
  | done => exact fun _ => ⟨.nil, by simp [TokenStream.done]⟩
  | malformed => exact fun _ => ⟨.nil, by simp [TokenStream.failed]⟩
  | stray => exact fun _ => ⟨.nil, by simp [TokenStream.failed]⟩
  | blank blank _ ih =>
    intro separate
    rw [List.append_cons] at separate
    exact ⟨(ih separate).1, fun ends => (ih separate).2 (ends.blank blank)⟩
  | @number before run rest value stream number read _ ih =>
    intro separate
    obtain ⟨apart, head⟩ := ih (by rwa [← List.append_assoc] at separate)
    refine ⟨List.isChain_cons.mpr ⟨fun token member _ => head number.endsValue token member, apart⟩, ?_⟩
    intro ends
    exfalso
    -- A number with a sign begins an operand, and one without would follow the value directly.
    rcases number.shape with whole | ⟨digits, -, begins, -⟩
    · cases run with
      | nil => exact whole.nonempty rfl
      | cons c tail =>
        refine ends.separate separate number.boundary (.inl ?_)
        exact whole.numeric c List.mem_cons_self
    · rw [ends.no_operand] at begins
      cases begins
  | @symbol before rest c lexeme stream symbol _ ih =>
    intro separate
    obtain ⟨apart, head⟩ := ih (by rwa [List.append_cons] at separate)
    constructor
    · refine List.isChain_cons.mpr ⟨fun token member value => ?_, apart⟩
      cases symbol with
      | rightParen => exact head ⟨before, ')', [], rfl, by simp, .inr rfl⟩ token member
      | leftParen | sign | operation => cases value
    · intro ends token member
      cases Option.mem_some.mp member
      -- A group would follow the value directly; a sign begins an operand.
      cases symbol with
      | leftParen => exact absurd (.inr rfl) (ends.separate separate (isBoundary_of_ends rfl))
      | sign begins =>
        rw [ends.no_operand] at begins
        cases begins
      | rightParen | operation => rfl

/-! ### The texts that have a value -/

/-- A value comes from a text that can be read to its end, with tokens that can be put in order. -/
theorem evaluate_eq_ok {text : String} {value : Binary64} :
    evaluate text = .ok value ↔ ∃ tokens row, Reads [] text.toList ⟨tokens, none⟩ ∧
      Reorders .sum tokens row ∧ postfixValue row = .ok value := by
  constructor
  · intro evaluated
    have reads := reads_scan text
    obtain ⟨row, ordered, reduced⟩ := bind_eq_ok.mp evaluated
    generalize scan text = stream at reads ordered
    obtain ⟨tokens, fault⟩ := stream
    cases fault with
    | none => exact ⟨tokens, row, reads, postfixRow_iff.mp ordered, reduced⟩
    | some fault => cases (accepts_of_drain ordered).1
  · rintro ⟨tokens, row, reads, order, reduced⟩
    refine bind_eq_ok.mpr ⟨row, ?_, reduced⟩
    rw [reads.scan_eq]
    exact order.postfixRow_eq

/-- A text has a value exactly if it can be read, its parentheses match, and the operators of its postfix
row find their operands and leave one value. Where no value follows another in the text, these are the infix
expressions, with the values of their derivations. -/
theorem evaluate_ok_iff (text : String) :
    ((∃ value, evaluate text = .ok value) ↔ ∃ tokens row, Reads [] text.toList ⟨tokens, none⟩ ∧
      Reorders .sum tokens row ∧ operandCount 0 row = some 1) ∧
    (¬ Juxtaposed text.toList →
      ∀ value, evaluate text = .ok value ↔ Infix .sum text.toList value) := by
  constructor
  · simp only [evaluate_eq_ok]
    constructor
    · rintro ⟨value, tokens, row, reads, order, evaluated⟩
      exact ⟨tokens, row, reads, order, (postfixValue_iff row).mp ⟨value, evaluated⟩⟩
    · rintro ⟨tokens, row, reads, order, counted⟩
      obtain ⟨value, evaluated⟩ := (postfixValue_iff row).mpr counted
      exact ⟨value, tokens, row, reads, order, evaluated⟩
  · intro separate value
    constructor
    · intro evaluated
      obtain ⟨tokens, row, reads, order, found⟩ := evaluate_eq_ok.mp evaluated
      have counted := (postfixValue_iff row).mp ⟨value, found⟩
      -- The phrase has a value of its own, but the row has only one.
      obtain ⟨derived, phrase⟩ := phrase_of_value order counted (reads.apart separate).1
      have same := phrase.value
      rw [order.postfixRow_eq] at same
      cases found.symm.trans same
      exact phrase.spelled (reads.spells rfl)
    · -- An expression has the value of its derivation, with or without values in a row.
      intro derivation
      obtain ⟨tokens, scanned, phrase⟩ := derivation.scan_eq
      rw [evaluate, scanned]
      exact phrase.value

theorem infix_of_evaluate_unfinished_sum :
    ¬ Juxtaposed "1+".toList ∧
      ∀ value, evaluate "1+" = .ok value ↔ Infix .sum "1+".toList value := by
  have separate : ¬ Juxtaposed "1+".toList := by
    rintro ⟨before, c, blanks, d, after, split, -, -, starts, -⟩
    have behind : d ∈ "1+".toList.tail := by
      rw [split]
      cases before <;> simp
    cases List.mem_singleton.mp behind
    revert starts
    decide
  exact ⟨separate, (evaluate_ok_iff "1+").2 separate⟩

/-- An operator that stands behind both of its operands finds them as well. -/
theorem evaluate_operator_behind {first second : List Char} {a b : Binary64} (operation : Operation)
    (left : Literal first a) (right : Literal second b) :
    evaluate (String.ofList (first ++ ' ' :: (second ++ [operation.char]))) =
      .ok (operation.apply a b) := by
  have symbolic : isNumberChar operation.char = false := by cases operation <;> rfl
  have whole : NumberAt [] first (' ' :: (second ++ [operation.char])) :=
    ⟨isBoundary_nil _, .inl (left.maximalRun rfl)⟩
  have whole' : NumberAt (first ++ [' ']) second [operation.char] :=
    ⟨isBoundary_blank _ _ (by decide), .inl (right.maximalRun symbolic)⟩
  have symbol : SymbolAt (first ++ [' '] ++ second) [] operation.char (.operator (.binary operation)) :=
    .operation operation fun _ => whole'.endsOperand
  have read := (number?_unsigned (left.maximalRun numberGoesOn_nil).numeric a).mpr left
  have read' := (number?_unsigned (right.maximalRun numberGoesOn_nil).numeric b).mpr right
  have reads := Reads.number whole read (.blank (by decide) (.number whole' read' (.symbol symbol .done)))
  let one : Token := ⟨.number (String.ofList first) a, some 0⟩
  let two : Token := ⟨.number (String.ofList second) b, some (first ++ [' ']).length⟩
  let sign : Token := ⟨.operator (.binary operation), some (first ++ [' '] ++ second).length⟩
  have number : Reorders .values ([] ++ [one]) ([] ++ [one]) := .number rfl .empty
  have values : Reorders .values ([one] ++ [two]) ([one] ++ [two]) := .number rfl number
  -- The operation takes both numbers for its left operand, and nothing for its right one.
  have order : Reorders operation.level ([one, two] ++ sign :: []) ([one, two] ++ [] ++ [sign]) :=
    .operation operation rfl (values.loosened operation.leftLevel) (.nothing operation.rightLevel)
  have sum : Reorders .sum [one, two, sign] [one, two, sign] := by
    cases operation with
    | add | sub => exact order
    | mul | div => exact .tighter order
    | pow => exact .tighter (.tighter order)
  refine evaluate_eq_ok.mpr ⟨_, _, ?_, sum, rfl⟩
  rwa [String.toList_ofList]

/-- The counting of operands lets texts pass that are no infix expressions. -/
theorem evaluate_not_only_infix :
    ¬ ∀ text : String, (¬ ∃ value, Infix .sum text.toList value) →
      ∃ fault, evaluate text = .error fault := by
  intro only
  have one : Literal ['1'] _ := .whole (by simp) (List.all_eq_true.mp rfl)
  have two : Literal ['2'] _ := .whole (by simp) (List.all_eq_true.mp rfl)
  have found := evaluate_operator_behind .add one two
  have underived : ¬ ∃ value, Infix .sum "1 2+".toList value := by
    rintro ⟨value, derivation⟩
    -- Behind an expression no operand begins, but behind a plus one does.
    cases derivation.endsOperand []
  obtain ⟨fault, failed⟩ := only "1 2+" underived
  rw [show "1 2+" = String.ofList (['1'] ++ ' ' :: (['2'] ++ [Operation.add.char])) from rfl, found] at failed
  cases failed

end Reckoner
