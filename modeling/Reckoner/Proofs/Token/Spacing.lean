import Mathlib.Data.List.Induction
import Reckoner.Proofs.Token.Faults

/-!
# Blanks between lexemes

Blanks that are put into a text change nothing but the positions behind them, unless they split a number or
take its sign away from it. No other place matters: looking back skips blanks, and looking ahead only asks
whether a number goes on.

Main result: `scan_spaced`, for every text, also for one that cannot be read to its end.
-/

namespace Reckoner

/-! ### Positions -/

/-- Where blanks are put into a text, behind how many characters, and how many they are. -/
structure Spacing where
  place : Nat
  width : Nat

/-- What a position becomes: from the place on, all moves by the width. -/
def Spacing.shift (spacing : Spacing) (position : Int) : Int :=
  if spacing.place ≤ position then position + spacing.width else position

def Token.spaced (spacing : Spacing) (token : Token) : Token :=
  { token with position := token.position.map spacing.shift }

/-- The same fault, found at the position that its own becomes. -/
def Fault.spaced (spacing : Spacing) : Fault → Fault
  | invalidCharacter char position => invalidCharacter char (spacing.shift position).toNat
  | unopened position => unopened (position.map spacing.shift)
  | unclosed position => unclosed (position.map spacing.shift)
  | other => other

def TokenStream.spaced (spacing : Spacing) (stream : TokenStream) : TokenStream :=
  ⟨stream.tokens.map (·.spaced spacing), stream.fault.map (·.spaced spacing)⟩

@[simp] theorem Spacing.shift_before {spacing : Spacing} {position : Nat} (before : position < spacing.place) :
    spacing.shift position = position := if_neg (by omega)

@[simp] theorem Spacing.shift_behind {spacing : Spacing} {position : Nat} (behind : spacing.place ≤ position) :
    spacing.shift position = position + spacing.width := if_pos (by omega)

@[simp] theorem TokenStream.spaced_failed (spacing : Spacing) (fault : Fault) :
    (TokenStream.failed fault).spaced spacing = .failed (fault.spaced spacing) := rfl

@[simp] theorem TokenStream.spaced_cons (spacing : Spacing) (token : Token) (stream : TokenStream) :
    (stream.cons token).spaced spacing = (stream.spaced spacing).cons (token.spaced spacing) := rfl

/-! ### Where blanks cannot be put -/

theorem NumberAt.nonempty {front run rest : List Char} (number : NumberAt front run rest) : run ≠ [] := by
  obtain ⟨c, tail, rfl, -⟩ := number.first
  exact List.cons_ne_nil c tail

/-- A number that stands before a boundary ends before it, or starts right at it. -/
theorem NumberAt.split_boundary {front run tail rest after : List Char} (number : NumberAt front run tail)
    (same : run ++ tail = rest ++ after) (boundary : IsBoundary (front ++ rest) after) :
    rest = [] ∨ ∃ more, rest = run ++ more ∧ tail = more ++ after := by
  rcases List.append_eq_append_iff.mp same with ⟨more, split, behind⟩ | ⟨more, split, behind⟩
  · exact .inr ⟨more, split, behind⟩
  · by_cases none : rest = []
    · exact .inl none
    by_cases short : more = []
    · subst short
      rw [List.append_nil] at split
      exact .inr ⟨[], by simp [split], by simpa using behind.symm⟩
    -- Otherwise the boundary would lie inside the number.
    · subst split behind
      exact absurd boundary (number.inside none short)

section

variable {blanks : List Char} (blank : ∀ c ∈ blanks, Text.isBlank c = true)
include blank

/-! ### Behind the blanks -/

theorem operandBegins_spaced (before more : List Char) :
    operandBegins (before ++ blanks ++ more) = operandBegins (before ++ more) := by
  induction more using List.reverseRecOn with
  | nil => rw [List.append_nil, List.append_nil, operandBegins_blanks before blank]
  | append_singleton more c ih =>
    rw [← List.append_assoc, ← List.append_assoc]
    cases solid : Text.isBlank c with
    | true => rw [operandBegins_blank _ solid, operandBegins_blank _ solid, ih]
    | false => rw [operandBegins_solid _ solid, operandBegins_solid _ solid]

theorem IsBoundary.spaced {before more text : List Char} (boundary : IsBoundary (before ++ more) text) :
    IsBoundary (before ++ blanks ++ more) text := by
  rcases List.eq_nil_or_concat more with rfl | ⟨more, last, rfl⟩
  · rw [List.append_nil] at boundary ⊢
    rcases List.eq_nil_or_concat blanks with rfl | ⟨blanks, last, rfl⟩
    · rwa [List.append_nil]
    · rw [List.concat_eq_append, ← List.append_assoc]
      exact isBoundary_blank _ text (blank last (by simp))
  · intro goesOn front c split
    rw [List.concat_eq_append, ← List.append_assoc] at split
    obtain ⟨rfl, same⟩ := List.append_inj' split rfl
    cases same
    rw [operandBegins_spaced blank]
    exact boundary goesOn (before ++ more) last (by simp)

theorem NumberAt.behindBlanks {before more run rest : List Char} (number : NumberAt (before ++ more) run rest) :
    NumberAt (before ++ blanks ++ more) run rest where
  boundary := number.boundary.spaced blank
  shape := by
    rcases number.shape with whole | ⟨digits, split, begins, whole⟩
    · exact .inl whole
    · exact .inr ⟨digits, split, (operandBegins_spaced blank before more).trans begins, whole⟩

theorem SymbolAt.behindBlanks {before more rest : List Char} {c : Char} {lexeme : Lexeme}
    (symbol : SymbolAt (before ++ more) rest c lexeme) :
    SymbolAt (before ++ blanks ++ more) rest c lexeme := by
  cases symbol with
  | leftParen => exact .leftParen
  | rightParen => exact .rightParen
  | sign begins apart => exact .sign ((operandBegins_spaced blank before more).trans begins) apart
  | operation operation binary =>
    exact .operation operation fun minus => (operandBegins_spaced blank before more).trans (binary minus)

/-- What is read behind a place is read behind the blanks, further on by their number. -/
theorem Reads.behindBlanks {whole text : List Char} {stream : TokenStream} (reads : Reads whole text stream)
    (before : List Char) : ∀ {more : List Char}, whole = before ++ more →
      Reads (before ++ blanks ++ more) text (stream.spaced ⟨before.length, blanks.length⟩) := by
  have place (more : List Char) :
      some ((before ++ blanks ++ more).length : Int) =
        (some ((before ++ more).length : Int)).map (Spacing.shift ⟨before.length, blanks.length⟩) := by
    rw [Option.map_some, Spacing.shift_behind (by simp)]
    simp
    omega
  induction reads with
  | done => exact fun _ => .done
  | @blank _ rest c stream solid _ ih =>
    rintro more rfl
    have later := ih (List.append_assoc before more [c])
    rw [← List.append_assoc] at later
    exact .blank solid later
  | @number _ run rest value stream number read _ ih =>
    rintro more rfl
    have later := ih (List.append_assoc before more run)
    rw [← List.append_assoc] at later
    have whole := Reads.number (number.behindBlanks blank) read later
    rw [place] at whole
    exact whole
  | malformed number unread =>
    rintro more rfl
    exact .malformed (number.behindBlanks blank) unread
  | @symbol _ rest c lexeme stream symbol _ ih =>
    rintro more rfl
    have later := ih (List.append_assoc before more [c])
    rw [← List.append_assoc] at later
    have whole := Reads.symbol (symbol.behindBlanks blank) later
    rw [place] at whole
    exact whole
  | @stray _ rest c stray =>
    rintro more rfl
    have whole : Reads (before ++ blanks ++ more) (c :: rest) _ := .stray stray
    have same : Spacing.shift ⟨before.length, blanks.length⟩ (before ++ more).length =
        ((before ++ blanks ++ more).length : Int) := Option.some.inj (place more).symm
    rw [TokenStream.spaced_failed, Fault.spaced, same]
    exact whole

/-! ### Before the blanks -/

/-- Blanks behind a place at which no number goes on do not make one go on. -/
theorem numberGoesOn_spaced {rest after : List Char} (ends : numberGoesOn (rest ++ after) = false) :
    numberGoesOn (rest ++ (blanks ++ after)) = false := by
  cases rest with
  | nil =>
    rw [List.nil_append] at ends ⊢
    exact numberGoesOn_blanks blank ends
  | cons c rest => exact ends

theorem MaximalRun.beforeBlanks {digits rest after : List Char} (run : MaximalRun digits (rest ++ after)) :
    MaximalRun digits (rest ++ (blanks ++ after)) :=
  ⟨run.nonempty, run.numeric, numberGoesOn_spaced blank run.ends⟩

theorem NumberAt.beforeBlanks {front run rest after : List Char} (number : NumberAt front run (rest ++ after)) :
    NumberAt front run (rest ++ (blanks ++ after)) where
  boundary := by
    intro goesOn
    rw [numberGoesOn_append number.nonempty] at goesOn
    exact number.boundary (by rwa [numberGoesOn_append number.nonempty])
  shape := by
    rcases number.shape with whole | ⟨digits, split, begins, whole⟩
    · exact .inl (whole.beforeBlanks blank)
    · exact .inr ⟨digits, split, begins, whole.beforeBlanks blank⟩

theorem SymbolAt.beforeBlanks {front rest after : List Char} {c : Char} {lexeme : Lexeme}
    (symbol : SymbolAt front (rest ++ after) c lexeme) :
    SymbolAt front (rest ++ (blanks ++ after)) c lexeme := by
  cases symbol with
  | leftParen => exact .leftParen
  | rightParen => exact .rightParen
  | sign begins apart => exact .sign begins (numberGoesOn_spaced blank apart)
  | operation operation binary => exact .operation operation binary

/-- What is read from a place in front of a boundary is read as well with blanks at the boundary. -/
theorem Reads.spaced {front text : List Char} {stream : TokenStream} (reads : Reads front text stream) :
    ∀ {rest after : List Char}, text = rest ++ after → IsBoundary (front ++ rest) after →
      Reads front (rest ++ (blanks ++ after)) (stream.spaced ⟨(front ++ rest).length, blanks.length⟩) := by
  -- From the boundary on, everything is read behind the blanks.
  have arrived {front after : List Char} {stream : TokenStream} (reads : Reads front after stream) :
      Reads front ([] ++ (blanks ++ after)) (stream.spaced ⟨(front ++ []).length, blanks.length⟩) := by
    rw [List.nil_append, List.append_nil]
    have later := reads.behindBlanks blank front (List.append_nil front).symm
    rw [List.append_nil] at later
    exact .blanks blank later
  have place {front rest : List Char} (nonempty : rest ≠ []) :
      Spacing.shift ⟨(front ++ rest).length, blanks.length⟩ front.length = front.length := by
    have positive := List.length_pos_iff.mpr nonempty
    exact Spacing.shift_before (by simp [positive])
  have unmoved {front rest : List Char} (lexeme : Lexeme) (nonempty : rest ≠ []) :
      Token.spaced ⟨(front ++ rest).length, blanks.length⟩ ⟨lexeme, some front.length⟩ =
        ⟨lexeme, some front.length⟩ := by
    simp only [Token.spaced, Option.map_some, place nonempty]
  induction reads with
  | done =>
    intro rest after split boundary
    obtain ⟨rfl, rfl⟩ := List.append_eq_nil_iff.mp split.symm
    exact arrived .done
  | @blank front text c stream solid later ih =>
    intro rest after split boundary
    cases rest with
    | nil =>
      cases split
      exact arrived (.blank solid later)
    | cons d rest =>
      cases split
      rw [List.append_cons] at boundary ⊢
      exact .blank solid (ih rfl boundary)
  | @number front run tail value stream number read later ih =>
    intro rest after split boundary
    rcases number.split_boundary split boundary with rfl | ⟨more, rfl, rfl⟩
    · cases split
      exact arrived (.number number read later)
    · rw [← List.append_assoc] at boundary
      have whole := Reads.number (number.beforeBlanks blank) read (ih rfl boundary)
      rw [TokenStream.spaced_cons, unmoved _ (by simp [number.nonempty])]
      simpa only [List.append_assoc] using whole
  | @malformed front run tail number unread =>
    intro rest after split boundary
    rcases number.split_boundary split boundary with rfl | ⟨more, rfl, rfl⟩
    · cases split
      exact arrived (.malformed number unread)
    · rw [List.append_assoc]
      exact .malformed (number.beforeBlanks blank) unread
  | @symbol front text c lexeme stream symbol later ih =>
    intro rest after split boundary
    cases rest with
    | nil =>
      cases split
      exact arrived (.symbol symbol later)
    | cons d rest =>
      cases split
      rw [List.append_cons] at boundary
      have whole := Reads.symbol (symbol.beforeBlanks blank) (ih rfl boundary)
      rw [← List.append_cons] at whole
      rw [TokenStream.spaced_cons, unmoved lexeme (List.cons_ne_nil c rest)]
      exact whole
  | @stray front text c stray =>
    intro rest after split boundary
    cases rest with
    | nil =>
      cases split
      exact arrived (.stray stray)
    | cons d rest =>
      cases split
      rw [TokenStream.spaced_failed, Fault.spaced, place (List.cons_ne_nil _ _)]
      exact .stray stray

end

/-! ### Whole texts -/

/-- The place between two texts lies inside a number, or between a number and the minus that is its sign. -/
def InsideNumber (before after : List Char) : Prop :=
  ∃ front c d back, before = front ++ [c] ∧ after = d :: back ∧ isNumberChar d = true ∧
    (isNumberChar c = true ∨ c = '-' ∧ isSignAt? (before ++ after) front.length = some true)

theorem isSignAt?_length (front rest : List Char) :
    isSignAt? (front ++ rest) front.length = some (operandBegins front) := by
  have inside : (front.length : Int) ≤ (front ++ rest).length := by
    rw [List.length_append]
    omega
  rw [isSignAt?, if_pos inside, Int.toNat_natCast, List.take_left]
  rfl

/-- The places that are no boundaries are those inside a number. -/
theorem isBoundary_of_not_insideNumber {before after : List Char} (outside : ¬ InsideNumber before after) :
    IsBoundary before after := by
  intro goesOn front c split
  subst split
  cases after with
  | nil => cases goesOn
  | cons d back =>
    have number : isNumberChar d = true := goesOn
    constructor
    · cases digit : isNumberChar c with
      | false => rfl
      | true => exact absurd ⟨front, c, d, back, rfl, rfl, number, .inl digit⟩ outside
    · rintro ⟨rfl, begins⟩
      refine outside ⟨front, '-', d, back, rfl, rfl, number, .inr ⟨rfl, ?_⟩⟩
      rw [List.append_assoc, isSignAt?_length, begins]

/-- Blanks that are put into a text outside its numbers only move the positions behind them. -/
theorem scan_spaced {before blanks after : String} (blank : ∀ c ∈ blanks.toList, Text.isBlank c = true)
    (outside : ¬ InsideNumber before.toList after.toList) :
    scan (before ++ blanks ++ after) =
      (scan (before ++ after)).spaced ⟨before.length, blanks.length⟩ := by
  have boundary := isBoundary_of_not_insideNumber outside
  have reads := reads_scan (before ++ after)
  have spaced := reads.spaced blank String.toList_append boundary
  refine Reads.scan_eq ?_
  simpa only [String.toList_append, List.append_assoc, List.nil_append, String.length_toList] using spaced

end Reckoner
