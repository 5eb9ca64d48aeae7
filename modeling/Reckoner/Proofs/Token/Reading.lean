import Reckoner.Token.Scan

/-!
# What stands in a text

`Reads before text stream` lists what stands in `text` behind the characters `before`: which runs are
numbers, which characters are symbols, and where reading ends. It decides about a sign by looking back at
`before`, and about the end of a number by looking at what follows.

Main result: `reads_iff`, the scanner reads exactly what stands in the text, although it never looks back.
-/

namespace Reckoner

/-! ### Classes of characters -/

theorem isBlank_of_isNumberChar {c : Char} (number : isNumberChar c = true) : Text.isBlank c = false := by
  have bounds : 46 ≤ c.toNat ∧ c.toNat ≤ 57 := by
    simp only [isNumberChar, Char.isDigit, Bool.or_eq_true, Bool.and_eq_true, decide_eq_true_eq,
      beq_iff_eq] at number
    rcases number with ⟨low, high⟩ | rfl
    · have low' : 48 ≤ c.toNat := low
      have high' : c.toNat ≤ 57 := high
      omega
    · decide
  simp only [Text.isBlank, Bool.or_eq_false_iff, Bool.and_eq_false_iff, decide_eq_false_iff_not,
    beq_eq_false_iff_ne]
  omega

theorem isNumberChar_of_isBlank {c : Char} (blank : Text.isBlank c = true) : isNumberChar c = false := by
  cases number : isNumberChar c with
  | false => rfl
  | true => rw [isBlank_of_isNumberChar number] at blank; cases blank

/-- The characters that stand for a lexeme of their own. -/
def symbolChars : List Char := ['+', '-', '*', '/', '^', '(', ')']

theorem not_number_of_symbol {c : Char} (symbol : c ∈ symbolChars) :
    isNumberChar c = false ∧ Text.isBlank c = false := by
  simp only [symbolChars, List.mem_cons, List.not_mem_nil, or_false] at symbol
  rcases symbol with rfl | rfl | rfl | rfl | rfl | rfl | rfl <;> decide

theorem opensOperand_iff {c : Char} : opensOperand c = true ↔ c ∈ symbolChars ∧ c ≠ ')' := by
  simp only [opensOperand, operandOpeners, Operation.all, Operation.char, List.map, symbolChars,
    List.contains_iff_mem, List.mem_cons, List.not_mem_nil, or_false]
  constructor
  · rintro (rfl | rfl | rfl | rfl | rfl | rfl) <;> decide
  · rintro ⟨rfl | rfl | rfl | rfl | rfl | rfl | rfl, paren⟩ <;> simp_all

theorem opensOperand_of_isNumberChar {c : Char} (number : isNumberChar c = true) :
    opensOperand c = false := by
  cases opens : opensOperand c with
  | false => rfl
  | true =>
    have symbol := not_number_of_symbol (opensOperand_iff.mp opens).1
    rw [symbol.1] at number
    cases number

/-- A character that is neither blank nor part of a number nor a symbol. -/
def IsStray (c : Char) : Prop :=
  Text.isBlank c = false ∧ isNumberChar c = false ∧ c ∉ symbolChars

instance (c : Char) : Decidable (IsStray c) :=
  inferInstanceAs (Decidable (Text.isBlank c = false ∧ isNumberChar c = false ∧ c ∉ symbolChars))

/-! ### Looking back and ahead -/

/-- Does an operand begin behind these characters? -/
def operandBegins (before : List Char) : Bool := operandStarts before.reverse

@[simp] theorem operandBegins_nil : operandBegins [] = true := rfl

theorem operandBegins_blank (before : List Char) {c : Char} (blank : Text.isBlank c = true) :
    operandBegins (before ++ [c]) = operandBegins before := by
  simp [operandBegins, operandStarts, blank]

theorem operandBegins_blanks (before : List Char) {blanks : List Char}
    (blank : ∀ c ∈ blanks, Text.isBlank c = true) :
    operandBegins (before ++ blanks) = operandBegins before := by
  induction blanks generalizing before with
  | nil => rw [List.append_nil]
  | cons c blanks ih =>
    rw [List.append_cons, ih _ fun d member => blank d (List.mem_cons_of_mem c member),
      operandBegins_blank before (blank c List.mem_cons_self)]

theorem operandBegins_solid (before : List Char) {c : Char} (solid : Text.isBlank c = false) :
    operandBegins (before ++ [c]) = opensOperand c := by
  simp [operandBegins, operandStarts, solid]

/-- Does the text go on with a digit or a point? -/
def numberGoesOn (text : List Char) : Bool := text.head?.any isNumberChar

@[simp] theorem numberGoesOn_nil : numberGoesOn [] = false := rfl

@[simp] theorem numberGoesOn_cons (c : Char) (rest : List Char) :
    numberGoesOn (c :: rest) = isNumberChar c := rfl

theorem numberGoesOn_append {text rest : List Char} (nonempty : text ≠ []) :
    numberGoesOn (text ++ rest) = numberGoesOn text := by
  cases text with
  | nil => exact absurd rfl nonempty
  | cons c text => rfl

theorem numberGoesOn_blanks {blanks rest : List Char}
    (blank : ∀ c ∈ blanks, Text.isBlank c = true) (ends : numberGoesOn rest = false) :
    numberGoesOn (blanks ++ rest) = false := by
  cases blanks with
  | nil => exact ends
  | cons c blanks => exact isNumberChar_of_isBlank (blank c List.mem_cons_self)

/-- A run of digits and points that what follows does not make longer. -/
structure MaximalRun (digits rest : List Char) : Prop where
  nonempty : digits ≠ []
  numeric : ∀ c ∈ digits, isNumberChar c = true
  ends : numberGoesOn rest = false

theorem MaximalRun.last {digits rest : List Char} (run : MaximalRun digits rest) :
    ∃ front c, digits = front ++ [c] ∧ isNumberChar c = true :=
  ⟨digits.dropLast, digits.getLast run.nonempty, (List.dropLast_concat_getLast _).symm,
    run.numeric _ (List.getLast_mem _)⟩

theorem MaximalRun.goesOn {digits rest : List Char} (run : MaximalRun digits rest) :
    numberGoesOn (digits ++ rest) = true := by
  cases digits with
  | nil => exact absurd rfl run.nonempty
  | cons c digits => exact run.numeric c List.mem_cons_self

theorem MaximalRun.split {digits rest : List Char} (run : MaximalRun digits rest) :
    (digits ++ rest).takeWhile isNumberChar = digits ∧
      (digits ++ rest).dropWhile isNumberChar = rest := by
  have none : rest.takeWhile isNumberChar = [] ∧ rest.dropWhile isNumberChar = rest := by
    cases rest with
    | nil => exact ⟨rfl, rfl⟩
    | cons c rest =>
      have ends : isNumberChar c = false := run.ends
      simp [ends]
  rw [List.takeWhile_append_of_pos run.numeric, List.dropWhile_append_of_pos run.numeric, none.1,
    none.2, List.append_nil]
  exact ⟨rfl, rfl⟩

theorem maximalRun_takeWhile {text : List Char} (goesOn : numberGoesOn text = true) :
    MaximalRun (text.takeWhile isNumberChar) (text.dropWhile isNumberChar) where
  nonempty := by
    cases text with
    | nil => cases goesOn
    | cons c rest =>
      have number : isNumberChar c = true := goesOn
      simp [number]
  numeric := List.all_eq_true.mp List.all_takeWhile
  ends := by
    have stops := List.head?_dropWhile_not isNumberChar text
    unfold numberGoesOn
    cases found : (text.dropWhile isNumberChar).head? with
    | none => rfl
    | some c => simpa [found] using stops

/-- The place between two texts lies neither inside a number nor between a number and its sign. -/
def IsBoundary (before text : List Char) : Prop :=
  numberGoesOn text = true → ∀ front c, before = front ++ [c] →
    isNumberChar c = false ∧ ¬ (c = '-' ∧ operandBegins front = true)

/-- A whole number stands at a place: all its digits and points, and the sign that belongs to them. -/
structure NumberAt (before run rest : List Char) : Prop where
  boundary : IsBoundary before (run ++ rest)
  shape : MaximalRun run rest ∨
    ∃ digits, run = '-' :: digits ∧ operandBegins before = true ∧ MaximalRun digits rest

/-- The lexeme that a symbol stands for. A sign with a number right behind it is no lexeme of its own. -/
inductive SymbolAt (before rest : List Char) : Char → Lexeme → Prop
  | leftParen : SymbolAt before rest '(' .leftParen
  | rightParen : SymbolAt before rest ')' .rightParen
  | sign (starts : operandBegins before = true) (apart : numberGoesOn rest = false) :
      SymbolAt before rest '-' (.operator .negate)
  | operation (operation : Operation)
      (binary : operation = .sub → operandBegins before = false) :
      SymbolAt before rest operation.char (.operator (.binary operation))

/-- What stands in a text behind other characters: its tokens, and the fault that ends them. -/
inductive Reads : List Char → List Char → TokenStream → Prop
  | done {before : List Char} : Reads before [] .done
  | blank {before rest : List Char} {c : Char} {stream : TokenStream}
      (blank : Text.isBlank c = true) (later : Reads (before ++ [c]) rest stream) :
      Reads before (c :: rest) stream
  | number {before run rest : List Char} {value : Binary64} {stream : TokenStream}
      (number : NumberAt before run rest) (read : number? run = some value)
      (later : Reads (before ++ run) rest stream) :
      Reads before (run ++ rest)
        (.cons ⟨.number (String.ofList run) value, some before.length⟩ stream)
  | malformed {before run rest : List Char}
      (number : NumberAt before run rest) (unread : number? run = none) :
      Reads before (run ++ rest) (.failed (.invalidNumber (String.ofList run)))
  | symbol {before rest : List Char} {c : Char} {lexeme : Lexeme} {stream : TokenStream}
      (symbol : SymbolAt before rest c lexeme) (later : Reads (before ++ [c]) rest stream) :
      Reads before (c :: rest) (.cons ⟨lexeme, some before.length⟩ stream)
  | stray {before rest : List Char} {c : Char} (stray : IsStray c) :
      Reads before (c :: rest) (.failed (.invalidCharacter c before.length))

/-! ### One step of the scanner -/

theorem numberStarts_eq (isSign : Bool) (c : Char) (rest : List Char) :
    numberStarts isSign c rest = (isNumberChar c || (isSign && numberGoesOn rest)) := rfl

/-- How the scanner sees a number: by its first character, and then by all that go on with it. -/
theorem NumberAt.starts {before run rest : List Char} (number : NumberAt before run rest) :
    ∃ c tail, run = c :: tail ∧ Text.isBlank c = false ∧
      numberStarts (c == '-' && operandBegins before) c (tail ++ rest) = true ∧
      (tail ++ rest).takeWhile isNumberChar = tail ∧ (tail ++ rest).dropWhile isNumberChar = rest := by
  rcases number.shape with whole | ⟨digits, rfl, starts, whole⟩
  · -- Without a sign the run begins with a digit or a point of its own.
    cases run with
    | nil => exact absurd rfl whole.nonempty
    | cons c tail =>
      have first := whole.numeric c List.mem_cons_self
      obtain ⟨taken, dropped⟩ := whole.split
      simp only [List.cons_append, List.takeWhile_cons_of_pos first, List.cons.injEq, true_and] at taken
      rw [List.cons_append, List.dropWhile_cons_of_pos first] at dropped
      exact ⟨c, tail, rfl, isBlank_of_isNumberChar first, by simp [numberStarts_eq, first], taken,
        dropped⟩
  · -- With a sign it begins with the minus, at a place where an operand begins.
    exact ⟨'-', digits, rfl, by decide, by simp [numberStarts_eq, starts, whole.goesOn], whole.split⟩

/-- Only one number can stand at a place. -/
theorem NumberAt.unique {before run rest run' rest' : List Char} (number : NumberAt before run rest)
    (other : NumberAt before run' rest') (same : run ++ rest = run' ++ rest') : run = run' := by
  obtain ⟨c, tail, rfl, -, -, taken, -⟩ := number.starts
  obtain ⟨c', tail', rfl, -, -, taken', -⟩ := other.starts
  -- Behind its first character, a number takes all that can belong to it.
  rw [List.cons_append, List.cons_append] at same
  obtain ⟨rfl, tails⟩ := List.cons.inj same
  rw [← taken, ← taken', tails]

theorem scanFrom_blank {position : Nat} {operandNext : Bool} {c : Char} {rest : List Char}
    (blank : Text.isBlank c = true) :
    scanFrom position operandNext (c :: rest) = scanFrom (position + 1) operandNext rest := by
  rw [scanFrom, if_pos blank]

theorem scanFrom_number {before run rest : List Char} {value : Binary64}
    (number : NumberAt before run rest) (read : number? run = some value) :
    scanFrom before.length (operandBegins before) (run ++ rest) =
      .cons ⟨.number (String.ofList run) value, some before.length⟩
        (scanFrom (before ++ run).length false rest) := by
  obtain ⟨c, tail, rfl, solid, starts, taken, dropped⟩ := number.starts
  rw [List.cons_append, scanFrom, if_neg (by simp [solid])]
  simp only [starts, if_true, taken, dropped, List.length_append, read]

theorem scanFrom_malformed {before run rest : List Char}
    (number : NumberAt before run rest) (unread : number? run = none) :
    scanFrom before.length (operandBegins before) (run ++ rest) =
      .failed (.invalidNumber (String.ofList run)) := by
  obtain ⟨c, tail, rfl, solid, starts, taken, -⟩ := number.starts
  rw [List.cons_append, scanFrom, if_neg (by simp [solid])]
  simp only [starts, if_true, taken, unread]

theorem SymbolAt.mem {before rest : List Char} {c : Char} {lexeme : Lexeme}
    (symbol : SymbolAt before rest c lexeme) : c ∈ symbolChars := by
  cases symbol with
  | leftParen | rightParen | sign => decide
  | operation operation => cases operation <;> decide

/-- How the scanner sees a symbol: by a character that no number starts with. -/
theorem SymbolAt.found {before rest : List Char} {c : Char} {lexeme : Lexeme}
    (symbol : SymbolAt before rest c lexeme) :
    numberStarts (c == '-' && operandBegins before) c rest = false ∧
      lexemeOf? (c == '-' && operandBegins before) c = some lexeme := by
  have symbolic := (not_number_of_symbol symbol.mem).1
  cases symbol with
  | leftParen | rightParen => exact ⟨rfl, rfl⟩
  | sign starts apart => simp [numberStarts_eq, lexemeOf?, starts, apart, symbolic]
  | operation operation binary =>
    cases operation with
    | sub => simp [numberStarts_eq, binary, Operation.char]; decide
    | _ => exact ⟨rfl, rfl⟩

theorem scanFrom_symbol {before rest : List Char} {c : Char} {lexeme : Lexeme}
    (symbol : SymbolAt before rest c lexeme) :
    scanFrom before.length (operandBegins before) (c :: rest) =
      .cons ⟨lexeme, some before.length⟩
        (scanFrom (before.length + 1) (opensOperand c) rest) := by
  have solid := (not_number_of_symbol symbol.mem).2
  obtain ⟨single, found⟩ := symbol.found
  rw [scanFrom, if_neg (by simp [solid])]
  simp only [single, found, Bool.false_eq_true, if_false]

theorem scanFrom_stray {position : Nat} {operandNext : Bool} {c : Char} {rest : List Char}
    (stray : IsStray c) :
    scanFrom position operandNext (c :: rest) = .failed (.invalidCharacter c position) := by
  obtain ⟨solid, other, foreign⟩ := stray
  simp only [symbolChars, List.mem_cons, List.not_mem_nil, or_false, not_or] at foreign
  obtain ⟨plus, minus, times, slash, power, left, right⟩ := foreign
  have unnamed : Operation.ofChar? c = none := by
    simp [Operation.ofChar?, Operation.all, Operation.char, Ne.symm plus, Ne.symm minus, Ne.symm times,
      Ne.symm slash, Ne.symm power]
  rw [scanFrom, if_neg (by simp [solid])]
  simp [numberStarts, lexemeOf?, minus, other, left, right, unnamed]

/-! ### What can stand at a place -/

private theorem place_cases {before rest : List Char} {c : Char}
    (boundary : IsBoundary before (c :: rest)) :
    Text.isBlank c = true ∨
    (∃ run after, c :: rest = run ++ after ∧ NumberAt before run after) ∨
    (∃ lexeme, SymbolAt before rest c lexeme) ∨
    IsStray c := by
  by_cases blank : Text.isBlank c = true
  · exact Or.inl blank
  by_cases number : isNumberChar c = true
  · have goesOn : numberGoesOn (c :: rest) = true := number
    have whole := maximalRun_takeWhile goesOn
    have split := List.takeWhile_append_dropWhile (p := isNumberChar) (l := c :: rest)
    exact Or.inr (Or.inl ⟨_, _, split.symm, split.symm ▸ boundary, Or.inl whole⟩)
  have classified : c ∈ symbolChars ∨ IsStray c := by
    by_cases symbol : c ∈ symbolChars
    · exact Or.inl symbol
    · exact Or.inr ⟨by simpa using blank, by simpa using number, symbol⟩
  rcases classified with symbol | stray
  rotate_left
  · exact Or.inr (Or.inr (Or.inr stray))
  simp only [symbolChars, List.mem_cons, List.not_mem_nil, or_false] at symbol
  right
  rcases symbol with rfl | rfl | rfl | rfl | rfl | rfl | rfl
  · exact Or.inr (Or.inl ⟨_, .operation .add (by simp)⟩)
  · -- A minus: part of a number, a sign of its own, or a subtraction.
    cases begins : operandBegins before with
    | false => exact Or.inr (Or.inl ⟨_, .operation .sub fun _ => begins⟩)
    | true =>
      cases goesOn : numberGoesOn rest with
      | false => exact Or.inr (Or.inl ⟨_, .sign begins goesOn⟩)
      | true =>
        refine Or.inl ⟨'-' :: rest.takeWhile isNumberChar, rest.dropWhile isNumberChar, ?_, ?_, ?_⟩
        · rw [List.cons_append, List.takeWhile_append_dropWhile]
        · intro starts
          cases starts
        · exact Or.inr ⟨_, rfl, begins, maximalRun_takeWhile goesOn⟩
  · exact Or.inr (Or.inl ⟨_, .operation .mul (by simp)⟩)
  · exact Or.inr (Or.inl ⟨_, .operation .div (by simp)⟩)
  · exact Or.inr (Or.inl ⟨_, .operation .pow (by simp)⟩)
  · exact Or.inr (Or.inl ⟨_, .leftParen⟩)
  · exact Or.inr (Or.inl ⟨_, .rightParen⟩)

theorem isBoundary_nil (text : List Char) : IsBoundary [] text := by
  intro _ front c split
  simp at split

theorem isBoundary_of_ends {before text : List Char} (ends : numberGoesOn text = false) :
    IsBoundary before text := by
  intro goesOn
  rw [ends] at goesOn
  cases goesOn

theorem isBoundary_blank (before rest : List Char) {c : Char} (blank : Text.isBlank c = true) :
    IsBoundary (before ++ [c]) rest := by
  intro _ front last split
  obtain ⟨-, same⟩ := List.append_inj' split rfl
  cases same
  refine ⟨isNumberChar_of_isBlank blank, ?_⟩
  rintro ⟨rfl, -⟩
  cases blank

theorem NumberAt.ends {before run rest : List Char} (number : NumberAt before run rest) :
    numberGoesOn rest = false := by
  rcases number.shape with whole | ⟨digits, -, -, whole⟩ <;> exact whole.ends

theorem NumberAt.last {before run rest : List Char} (number : NumberAt before run rest) :
    ∃ front c, run = front ++ [c] ∧ isNumberChar c = true := by
  rcases number.shape with whole | ⟨digits, rfl, -, whole⟩
  · exact whole.last
  · obtain ⟨front, c, rfl, last⟩ := whole.last
    exact ⟨'-' :: front, c, rfl, last⟩

theorem operandBegins_number (before : List Char) {c : Char} (number : isNumberChar c = true) :
    operandBegins (before ++ [c]) = false := by
  rw [operandBegins_solid _ (isBlank_of_isNumberChar number), opensOperand_of_isNumberChar number]

theorem NumberAt.endsOperand {before run rest : List Char} (number : NumberAt before run rest) :
    operandBegins (before ++ run) = false := by
  obtain ⟨front, c, rfl, last⟩ := number.last
  rw [← List.append_assoc, operandBegins_number _ last]

theorem SymbolAt.opens {before rest : List Char} {c : Char} {lexeme : Lexeme}
    (symbol : SymbolAt before rest c lexeme) :
    operandBegins (before ++ [c]) = opensOperand c :=
  operandBegins_solid before (not_number_of_symbol symbol.mem).2

private theorem SymbolAt.sign_apart {before rest : List Char} {c : Char} {lexeme : Lexeme}
    (symbol : SymbolAt before rest c lexeme) (minus : c = '-')
    (begins : operandBegins before = true) : numberGoesOn rest = false := by
  cases symbol with
  | leftParen | rightParen => cases minus
  | sign _ apart => exact apart
  | operation operation binary =>
    cases operation with
    | sub => rw [binary rfl] at begins; cases begins
    | _ => exact absurd minus (by decide)

theorem SymbolAt.isBoundary {before rest : List Char} {c : Char} {lexeme : Lexeme}
    (symbol : SymbolAt before rest c lexeme) : IsBoundary (before ++ [c]) rest := by
  intro goesOn front last split
  obtain ⟨rfl, same⟩ := List.append_inj' split rfl
  cases same
  refine ⟨(not_number_of_symbol symbol.mem).1, ?_⟩
  -- A minus that belongs to the number behind it is not read as a symbol.
  rintro ⟨minus, begins⟩
  rw [symbol.sign_apart minus begins] at goesOn
  cases goesOn

/-! ### The scanner reads what stands in the text -/

private theorem reads_exists (text : List Char) :
    ∀ before, IsBoundary before text → ∃ stream, Reads before text stream := by
  -- A number takes several characters at once, so the induction is on the length of the text.
  induction size : text.length using Nat.strongRecOn generalizing text with
  | ind size ih =>
    subst size
    intro before boundary
    cases text with
    | nil => exact ⟨_, .done⟩
    | cons c rest =>
      rcases place_cases boundary with blank | ⟨run, after, split, number⟩ | ⟨lexeme, symbol⟩ | stray
      · obtain ⟨stream, later⟩ := ih rest.length (by simp) rest rfl _ (isBoundary_blank before rest blank)
        exact ⟨_, .blank blank later⟩
      · rw [split]
        cases read : number? run with
        | none => exact ⟨_, .malformed number read⟩
        | some value =>
          have shorter : after.length < (c :: rest).length := by
            obtain ⟨front, last, rfl, -⟩ := number.last
            rw [split]
            simp only [List.length_append, List.length_cons]
            omega
          obtain ⟨stream, later⟩ := ih _ shorter after rfl _ (isBoundary_of_ends number.ends)
          exact ⟨_, .number number read later⟩
      · obtain ⟨stream, later⟩ := ih rest.length (by simp) rest rfl _ symbol.isBoundary
        exact ⟨_, .symbol symbol later⟩
      · exact ⟨_, .stray stray⟩

theorem Reads.scanFrom_eq {before text : List Char} {stream : TokenStream}
    (reads : Reads before text stream) :
    scanFrom before.length (operandBegins before) text = stream := by
  -- Position and flag move on together with the characters already read.
  induction reads with
  | done => rw [scanFrom]
  | @blank before rest c stream blank _ ih =>
    rw [scanFrom_blank blank, ← ih, operandBegins_blank before blank, List.length_append,
      List.length_singleton]
  | number number read _ ih => rw [scanFrom_number number read, ← ih, number.endsOperand]
  | malformed number unread => exact scanFrom_malformed number unread
  | symbol symbol _ ih =>
    rw [scanFrom_symbol symbol, ← ih, symbol.opens, List.length_append, List.length_singleton]
  | stray stray => exact scanFrom_stray stray

theorem Reads.blanks {blanks : List Char} (blank : ∀ c ∈ blanks, Text.isBlank c = true) :
    ∀ {before rest : List Char} {stream : TokenStream}, Reads (before ++ blanks) rest stream →
      Reads before (blanks ++ rest) stream := by
  induction blanks with
  | nil =>
    intro before rest stream reads
    rwa [List.append_nil] at reads
  | cons c blanks ih =>
    intro before rest stream reads
    refine .blank (blank c List.mem_cons_self) (ih (fun d member => blank d (by simp [member])) ?_)
    rwa [List.append_assoc]

/-- From every boundary on, the scanner yields exactly what stands in the text. The flag that it carries
says the same as looking back. -/
theorem reads_iff {before text : List Char} (boundary : IsBoundary before text) (stream : TokenStream) :
    Reads before text stream ↔ scanFrom before.length (operandBegins before) text = stream := by
  constructor
  · exact Reads.scanFrom_eq
  · rintro rfl
    -- Something stands in the text, and the scanner has just been seen to read it.
    obtain ⟨stream, reads⟩ := reads_exists text before boundary
    rw [reads.scanFrom_eq]
    exact reads

theorem reads_scan (text : String) : Reads [] text.toList (scan text) :=
  (reads_iff (isBoundary_nil _) _).mpr rfl

theorem Reads.scan_eq {text : String} {stream : TokenStream} (reads : Reads [] text.toList stream) :
    scan text = stream :=
  reads.scanFrom_eq

end Reckoner
