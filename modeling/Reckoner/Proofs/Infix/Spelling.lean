import Reckoner.Proofs.Infix.Phrase

/-!
# Texts that spell tokens

`Spells text tokens` forgets where the tokens stand and keeps which characters each of them is written with.
Every text spells the tokens that are read from it, and a text that spells a phrase is an infix expression
of the same value.
-/

namespace Reckoner

/-- The characters that a lexeme is written with. -/
inductive Spelling : Lexeme → List Char → Prop
  | number {text : String} {digits : List Char} {value : Binary64} (literal : Literal digits value) :
      Spelling (.number text value) digits
  | signed {text : String} {digits : List Char} {value : Binary64} (literal : Literal digits value) :
      Spelling (.number text (-value)) ('-' :: digits)
  | leftParen : Spelling .leftParen ['(']
  | rightParen : Spelling .rightParen [')']
  | operator (operator : Operator) : Spelling (.operator operator) [operator.written]

/-- A text that consists of the given tokens, with blanks between them. -/
inductive Spells : List Char → List Token → Prop
  | done : Spells [] []
  | blank {c : Char} {text : List Char} {tokens : List Token} (blank : Text.isBlank c = true)
      (later : Spells text tokens) : Spells (c :: text) tokens
  | lexeme {run rest : List Char} {token : Token} {tokens : List Token}
      (spelling : Spelling token.lexeme run) (later : Spells rest tokens) :
      Spells (run ++ rest) (token :: tokens)

theorem NumberAt.spelling {before run rest : List Char} {value : Binary64}
    (number : NumberAt before run rest) (read : number? run = some value) :
    Spelling (.number (String.ofList run) value) run := by
  rcases number.shape with whole | ⟨digits, rfl, -, -⟩
  · exact .number ((number?_unsigned whole.numeric value).mp read)
  · obtain ⟨magnitude, literal, rfl⟩ := (number?_signed digits value).mp read
    exact .signed literal

theorem SymbolAt.spelling {before rest : List Char} {c : Char} {lexeme : Lexeme}
    (symbol : SymbolAt before rest c lexeme) : Spelling lexeme [c] := by
  cases symbol with
  | leftParen => exact .leftParen
  | rightParen => exact .rightParen
  | sign => exact .operator .negate
  | operation operation => exact .operator (.binary operation)

/-- A text that is read to its end spells the tokens read. -/
theorem Reads.spells {before text : List Char} {stream : TokenStream} (reads : Reads before text stream)
    (clean : stream.fault = none) : Spells text stream.tokens := by
  induction reads with
  | done => exact .done
  | blank blank _ ih => exact .blank blank (ih clean)
  | number number read _ ih => exact .lexeme (number.spelling read) (ih clean)
  | @symbol before rest c lexeme stream symbol _ ih =>
    change Spells ([c] ++ rest) (⟨lexeme, some before.length⟩ :: stream.tokens)
    exact .lexeme symbol.spelling (ih clean)
  | malformed | stray => cases clean

theorem Spells.split {text : List Char} {tokens : List Token} (spells : Spells text tokens) :
    ∀ {first second : List Token}, tokens = first ++ second →
      ∃ left right, text = left ++ right ∧ Spells left first ∧ Spells right second := by
  induction spells with
  | done =>
    intro first second same
    obtain ⟨rfl, rfl⟩ := List.append_eq_nil_iff.mp same.symm
    exact ⟨[], [], rfl, .done, .done⟩
  | blank blank _ ih =>
    intro first second same
    obtain ⟨left, right, rfl, before, after⟩ := ih same
    exact ⟨_, right, rfl, .blank blank before, after⟩
  | @lexeme run rest token tokens spelling later ih =>
    intro first second same
    -- The cut lies before this token or behind it.
    cases first with
    | nil =>
      rw [List.nil_append] at same
      subst same
      exact ⟨[], _, rfl, .done, .lexeme spelling later⟩
    | cons head first =>
      rw [List.cons_append] at same
      obtain ⟨rfl, tail⟩ := List.cons.inj same
      obtain ⟨left, right, rfl, before, after⟩ := ih tail
      exact ⟨run ++ left, right, (List.append_assoc ..).symm, .lexeme spelling before, after⟩

theorem Spells.blanks {text : List Char} {tokens : List Token} (spells : Spells text tokens)
    (none : tokens = []) : ∀ c ∈ text, Text.isBlank c = true := by
  induction spells with
  | done => simp
  | blank blank _ ih =>
    intro c member
    rcases List.mem_cons.mp member with rfl | later
    · exact blank
    · exact ih none c later
  | lexeme => cases none

/-- A text that spells a token is that token between blanks. -/
theorem Spells.first {text : List Char} {tokens : List Token} (spells : Spells text tokens)
    {token : Token} {later : List Token} (split : tokens = token :: later) :
    ∃ blanks run rest, text = blanks ++ (run ++ rest) ∧ (∀ c ∈ blanks, Text.isBlank c = true) ∧
      Spelling token.lexeme run ∧ Spells rest later := by
  induction spells with
  | done => cases split
  | @blank c text _ blank _ ih =>
    obtain ⟨blanks, run, rest, rfl, clear, spelling, spells⟩ := ih split
    refine ⟨c :: blanks, run, rest, rfl, ?_, spelling, spells⟩
    intro d member
    rcases List.mem_cons.mp member with rfl | old
    · exact blank
    · exact clear d old
  | @lexeme run rest _ _ spelling spells =>
    cases split
    exact ⟨[], run, rest, rfl, by simp, spelling, spells⟩

theorem Infix.padBefore {level : Level} {text blanks : List Char} {value : Binary64}
    (derivation : Infix level text value) (blank : ∀ c ∈ blanks, Text.isBlank c = true) :
    Infix level (blanks ++ text) value := by
  induction blanks with
  | nil => exact derivation
  | cons c blanks ih =>
    exact .blankBefore (blank c List.mem_cons_self) (ih fun d member => blank d (List.mem_cons_of_mem c member))

theorem Infix.padAfter {level : Level} {blanks : List Char} {value : Binary64} :
    ∀ {text : List Char}, Infix level text value → (∀ c ∈ blanks, Text.isBlank c = true) →
      Infix level (text ++ blanks) value := by
  induction blanks with
  | nil =>
    intro text derivation _
    rwa [List.append_nil]
  | cons c blanks ih =>
    intro text derivation blank
    rw [List.append_cons]
    exact ih (.blankAfter (blank c List.mem_cons_self) derivation)
      fun d member => blank d (List.mem_cons_of_mem c member)

/-- A text that spells a phrase is an expression of the same value. -/
theorem Phrase.spelled {level : Level} {tokens : List Token} {value : Binary64}
    (phrase : Phrase level tokens value) :
    ∀ {text : List Char}, Spells text tokens → Infix level text value := by
  induction phrase with
  | @number token _ value lexeme =>
    intro text spells
    obtain ⟨blanks, run, rest, rfl, clear, spelling, later⟩ := spells.first rfl
    refine .padBefore (.padAfter ?_ (later.blanks rfl)) clear
    -- A number that was read with its sign is derived as a sign before a literal.
    rw [lexeme] at spelling
    cases spelling with
    | number literal => exact .literal literal
    | signed literal => exact .sign (.literal literal)
  | @group opening closing tokens value opens closes _ ih =>
    intro text spells
    -- The text is cut at the two parentheses, and the blanks go to what they stand before.
    obtain ⟨blanks, run, rest, rfl, clear, spelling, later⟩ := spells.first rfl
    obtain ⟨inside, right, rfl, within, behind⟩ := later.split rfl
    obtain ⟨blanks', run', rest', rfl, clear', spelling', later'⟩ := behind.first rfl
    rw [opens] at spelling
    rw [closes] at spelling'
    cases spelling
    cases spelling'
    have group := Infix.group (.padAfter (ih within) clear')
    simpa using Infix.padBefore (.padAfter group (later'.blanks rfl)) clear
  | @sign token tokens value lexeme _ ih =>
    intro text spells
    obtain ⟨blanks, run, rest, rfl, clear, spelling, later⟩ := spells.first rfl
    rw [lexeme] at spelling
    cases spelling
    exact .padBefore (.sign (ih later)) clear
  | @operation token left right a b operation lexeme _ _ ihFirst ihSecond =>
    intro text spells
    -- The blanks before the operator end the first operand.
    obtain ⟨first, behind, rfl, before, after⟩ := spells.split rfl
    obtain ⟨blanks, run, rest, rfl, clear, spelling, later⟩ := after.first rfl
    rw [lexeme] at spelling
    cases spelling
    rw [← List.append_assoc]
    exact .operation operation (.padAfter (ihFirst before) clear) (ihSecond later)
  | tighter _ ih => exact fun spells => .tighter (ih spells)

end Reckoner
