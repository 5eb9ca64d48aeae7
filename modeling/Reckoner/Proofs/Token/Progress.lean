import Reckoner.Proofs.Token.Faults

/-!
# The scanner on its way

Where the scanner is in the course of a text, turn by turn. `Reaches text s` says that it comes to `s`; what
holds at the start and is kept by a turn holds wherever it comes, up to its last place, at the end of the text
or at a fault.

* `Turn.outcome_eq`, a turn does not change what is read in the end.
* `Turn.cases`, what a turn can do, in terms of what stands in the text.
* `exists_last`, the last place.
-/

namespace Reckoner

/-- What the scanner has yielded, how many characters it has read, whether an operand begins by what it has
yielded, and what it has still to read. -/
structure Scanner where
  yielded : List Token
  position : Nat
  operandNext : Bool
  rest : List Char

namespace Scanner

def start (text : List Char) : Scanner := ⟨[], 0, true, text⟩

/-- All that will have been read in the end. -/
def outcome (s : Scanner) : TokenStream :=
  ⟨s.yielded ++ (scanFrom s.position s.operandNext s.rest).tokens,
    (scanFrom s.position s.operandNext s.rest).fault⟩

/-- A turn of the scanner behind which it goes on. -/
inductive Turn : Scanner → Scanner → Prop
  | blank {yielded : List Token} {position : Nat} {operandNext : Bool} {c : Char} {rest : List Char}
      (blank : Text.isBlank c = true) :
      Turn ⟨yielded, position, operandNext, c :: rest⟩ ⟨yielded, position + 1, operandNext, rest⟩
  | number {yielded : List Token} {position : Nat} {operandNext : Bool} {c : Char} {rest : List Char}
      {value : Binary64} (solid : Text.isBlank c = false)
      (starts : numberStarts (c == '-' && operandNext) c rest = true)
      (read : number? (c :: rest.takeWhile isNumberChar) = some value) :
      Turn ⟨yielded, position, operandNext, c :: rest⟩
        ⟨yielded ++ [⟨.number (String.ofList (c :: rest.takeWhile isNumberChar)) value, some position⟩],
          position + (c :: rest.takeWhile isNumberChar).length, false, rest.dropWhile isNumberChar⟩
  | symbol {yielded : List Token} {position : Nat} {operandNext : Bool} {c : Char} {rest : List Char}
      {lexeme : Lexeme} (solid : Text.isBlank c = false)
      (single : numberStarts (c == '-' && operandNext) c rest = false)
      (found : lexemeOf? (c == '-' && operandNext) c = some lexeme) :
      Turn ⟨yielded, position, operandNext, c :: rest⟩
        ⟨yielded ++ [⟨lexeme, some position⟩], position + 1, opensOperand c, rest⟩

/-- A turn does not change what is read in the end. -/
theorem Turn.outcome_eq {s next : Scanner} (turn : Turn s next) : s.outcome = next.outcome := by
  cases turn with
  | blank blank => simp only [outcome, scanFrom_blank blank]
  | @number yielded position operandNext c rest value solid starts read =>
    let run := c :: rest.takeWhile isNumberChar
    have stream : scanFrom position operandNext (c :: rest) =
        .cons ⟨.number (String.ofList run) value, some position⟩
          (scanFrom (position + run.length) false (rest.dropWhile isNumberChar)) := by
      rw [scanFrom, if_neg (by simp [solid])]
      simp only [starts, if_true, read, run]
    simp [outcome, stream, TokenStream.cons, run]
  | @symbol yielded position operandNext c rest lexeme solid single found =>
    have stream : scanFrom position operandNext (c :: rest) =
        .cons ⟨lexeme, some position⟩ (scanFrom (position + 1) (opensOperand c) rest) := by
      rw [scanFrom, if_neg (by simp [solid])]
      simp only [single, Bool.false_eq_true, if_false, found]
    simp [outcome, stream, TokenStream.cons]

end Scanner

open Scanner

/-- The scanner comes to this place of the text. -/
inductive Reaches (text : List Char) : Scanner → Prop
  | start : Reaches text (start text)
  | turn {s next : Scanner} (reached : Reaches text s) (turn : Turn s next) : Reaches text next

/-- Wherever the scanner is, the same will be read in the end. -/
theorem Reaches.outcome_eq {text : String} {s : Scanner} (reached : Reaches text.toList s) :
    s.outcome = scan text := by
  induction reached with
  | start => rfl
  | turn _ turn ih => rw [← turn.outcome_eq, ih]

/-! ### A place of the text -/

/-- The characters in front of the scanner, and what they say about it. -/
structure Scanner.Behind (before : List Char) (s : Scanner) : Prop where
  position : s.position = before.length
  operand : s.operandNext = operandBegins before
  boundary : IsBoundary before s.rest

/-- Where the scanner starts a number, a whole number stands. -/
theorem numberAt_of_starts {before rest : List Char} {c : Char} (boundary : IsBoundary before (c :: rest))
    (starts : numberStarts (c == '-' && operandBegins before) c rest = true) :
    NumberAt before (c :: rest.takeWhile isNumberChar) (rest.dropWhile isNumberChar) where
  boundary := by
    rwa [List.cons_append, List.takeWhile_append_dropWhile]
  shape := by
    by_cases number : isNumberChar c = true
    · have goesOn : numberGoesOn (c :: rest) = true := number
      have whole := maximalRun_takeWhile goesOn
      rw [List.takeWhile_cons_of_pos number, List.dropWhile_cons_of_pos number] at whole
      exact .inl whole
    · simp only [numberStarts_eq, number, Bool.false_or, Bool.and_eq_true, beq_iff_eq] at starts
      obtain ⟨⟨rfl, begins⟩, goesOn⟩ := starts
      exact .inr ⟨_, rfl, begins, maximalRun_takeWhile goesOn⟩

/-- Where the scanner finds a lexeme, a symbol stands. -/
theorem symbolAt_of_found {before rest : List Char} {c : Char} {lexeme : Lexeme}
    (single : numberStarts (c == '-' && operandBegins before) c rest = false)
    (found : lexemeOf? (c == '-' && operandBegins before) c = some lexeme) :
    SymbolAt before rest c lexeme := by
  rw [numberStarts_eq, Bool.or_eq_false_iff] at single
  rw [lexemeOf?] at found
  split at found
  next sign =>
    cases found
    rw [sign, Bool.true_and] at single
    simp only [Bool.and_eq_true, beq_iff_eq] at sign
    obtain ⟨rfl, begins⟩ := sign
    exact .sign begins single.2
  next unsigned =>
    split at found
    next left =>
      cases found
      exact left ▸ .leftParen
    next =>
      split at found
      next right =>
        cases found
        exact right ▸ .rightParen
      next =>
        obtain ⟨operation, named, rfl⟩ := Option.map_eq_some_iff.mp found
        have char : operation.char = c := by simpa using List.find?_some named
        subst char
        refine .operation operation ?_
        rintro rfl
        simpa [Operation.char] using unsigned

/-- What a turn can do, in terms of what stands in the text. -/
theorem Scanner.Turn.cases {before : List Char} {s next : Scanner} (turn : Turn s next)
    (behind : Behind before s) :
    (∃ c rest, s.rest = c :: rest ∧ Text.isBlank c = true ∧
      next = ⟨s.yielded, s.position + 1, s.operandNext, rest⟩) ∨
    (∃ run rest value, s.rest = run ++ rest ∧ NumberAt before run rest ∧ number? run = some value ∧
      next = ⟨s.yielded ++ [⟨.number (String.ofList run) value, some s.position⟩], s.position + run.length,
        false, rest⟩) ∨
    (∃ c rest lexeme, s.rest = c :: rest ∧ SymbolAt before rest c lexeme ∧
      next = ⟨s.yielded ++ [⟨lexeme, some s.position⟩], s.position + 1, opensOperand c, rest⟩) := by
  obtain ⟨-, operand, boundary⟩ := behind
  cases turn with
  | blank blank => exact .inl ⟨_, _, rfl, blank, rfl⟩
  | @number yielded position operandNext c rest value solid starts read =>
    simp only at operand boundary
    subst operand
    refine .inr (.inl ⟨_, _, value, ?_, numberAt_of_starts boundary starts, read, rfl⟩)
    rw [List.cons_append, List.takeWhile_append_dropWhile]
  | @symbol yielded position operandNext c rest lexeme solid single found =>
    simp only at operand
    subst operand
    exact .inr (.inr ⟨c, rest, lexeme, rfl, symbolAt_of_found single found, rfl⟩)

/-- A turn moves on in the text, to a place that is described by the characters in front of it again. -/
theorem Scanner.Turn.behind {before : List Char} {s next : Scanner} (turn : Turn s next)
    (behind : Behind before s) :
    ∃ run, s.rest = run ++ next.rest ∧ run ≠ [] ∧ Behind (before ++ run) next := by
  rcases turn.cases behind with ⟨c, rest, split, blank, rfl⟩ | ⟨run, rest, value, split, number, -, rfl⟩ |
    ⟨c, rest, lexeme, split, symbol, rfl⟩
  · refine ⟨[c], split, by simp, ?_, ?_, isBoundary_blank before rest blank⟩
    · simp [behind.position]
    · rw [operandBegins_blank before blank]
      exact behind.operand
  · obtain ⟨d, tail, same, -⟩ := number.first
    refine ⟨run, split, by simp [same], ?_, number.endsOperand.symm, isBoundary_of_ends number.ends⟩
    simp [behind.position]
  · refine ⟨[c], split, by simp, ?_, symbol.opens.symm, symbol.isBoundary⟩
    simp [behind.position]

/-- Wherever the scanner is, it is described by the characters in front of it. -/
theorem Reaches.behind {text : List Char} {s : Scanner} (reached : Reaches text s) :
    ∃ before, text = before ++ s.rest ∧ Behind before s := by
  induction reached with
  | start => exact ⟨[], rfl, rfl, rfl, isBoundary_nil text⟩
  | turn _ turn ih =>
    obtain ⟨before, split, behind⟩ := ih
    obtain ⟨run, moved, -, behind'⟩ := turn.behind behind
    exact ⟨before ++ run, by rw [split, moved, List.append_assoc], behind'⟩

/-! ### The last place -/

/-- At the end of the text all has been read. -/
theorem Reaches.outcome_of_done {text : List Char} {s : Scanner} (reached : Reaches text s)
    (done : s.rest = []) : s.outcome = ⟨s.yielded, none⟩ ∧ s.position = text.length := by
  obtain ⟨before, rfl, behind⟩ := reached.behind
  constructor
  · rw [outcome, done, scanFrom]
    simp [TokenStream.done]
  · rw [behind.position, done, List.append_nil]

/-- At a lexical fault the scanner has come to its last place. -/
theorem Reaches.outcome_of_fault {text : List Char} {s : Scanner} {fault : Fault} (reached : Reaches text s)
    (found : LexicalFault text s.position fault) : s.outcome = ⟨s.yielded, some fault⟩ := by
  obtain ⟨before, rfl, behind⟩ := reached.behind
  rw [behind.position] at found
  rw [outcome, behind.position, behind.operand]
  rcases found.at with ⟨c, rest, split, stray, rfl⟩ | ⟨run, rest, split, number, malformed, rfl⟩
  · rw [split, scanFrom_stray stray]
    simp [TokenStream.failed]
  · rw [split, scanFrom_malformed number (number.unread_iff.mpr malformed)]
    simp [TokenStream.failed]

/-- A character that starts no number and is no symbol is stray, unless it is blank. -/
theorem isStray_of_not_found {isSign : Bool} {c : Char} {rest : List Char} (solid : Text.isBlank c = false)
    (single : numberStarts isSign c rest = false) (found : lexemeOf? isSign c = none) : IsStray c := by
  rw [numberStarts_eq, Bool.or_eq_false_iff] at single
  refine ⟨solid, single.1, fun symbol => ?_⟩
  simp only [symbolChars, List.mem_cons, List.not_mem_nil, or_false] at symbol
  rcases symbol with rfl | rfl | rfl | rfl | rfl | rfl | rfl <;> cases isSign <;> cases found

/-- From every place of the text but its end the scanner takes a turn, or it stops at a fault. -/
theorem Reaches.turn_or_fault {text : List Char} {s : Scanner} (reached : Reaches text s) :
    s.rest = [] ∨ (∃ next, Turn s next) ∨ ∃ fault, LexicalFault text s.position fault := by
  obtain ⟨before, rfl, ⟨place, operand, boundary⟩⟩ := reached.behind
  obtain ⟨yielded, position, operandNext, rest⟩ := s
  simp only at place operand boundary
  subst place operand
  cases rest with
  | nil => exact .inl rfl
  | cons c rest =>
    right
    by_cases blank : Text.isBlank c = true
    · exact .inl ⟨_, .blank blank⟩
    have solid : Text.isBlank c = false := by simpa using blank
    cases starts : numberStarts (c == '-' && operandBegins before) c rest with
    | true =>
      have number := numberAt_of_starts boundary starts
      cases read : number? (c :: rest.takeWhile isNumberChar) with
      | some value => exact .inl ⟨_, .number solid starts read⟩
      | none =>
        refine .inr ⟨_, .number ?_ number (number.unread_iff.mp read)⟩
        rw [List.cons_append, List.takeWhile_append_dropWhile]
    | false =>
      cases found : lexemeOf? (c == '-' && operandBegins before) c with
      | some lexeme => exact .inl ⟨_, .symbol solid starts found⟩
      | none => exact .inr ⟨_, .character rfl (isStray_of_not_found solid starts found)⟩

/-- The scanner comes to the end of the text or to a fault. -/
theorem exists_last (text : List Char) :
    ∃ s, Reaches text s ∧ (s.rest = [] ∨ ∃ fault, LexicalFault text s.position fault) := by
  have from_here : ∀ s, Reaches text s →
      ∃ last, Reaches text last ∧ (last.rest = [] ∨ ∃ fault, LexicalFault text last.position fault) := by
    intro s reached
    -- Every turn leaves less of the text.
    induction size : s.rest.length using Nat.strongRecOn generalizing s with
    | ind size ih =>
      subst size
      rcases reached.turn_or_fault with done | ⟨next, turn⟩ | fault
      · exact ⟨s, reached, .inl done⟩
      · obtain ⟨before, -, behind⟩ := reached.behind
        obtain ⟨run, split, nonempty, -⟩ := turn.behind behind
        have shorter : next.rest.length < s.rest.length := by
          rw [split, List.length_append]
          exact Nat.lt_add_of_pos_left (List.length_pos_iff.mpr nonempty)
        exact ih _ shorter next (reached.turn turn) rfl
      · exact ⟨s, reached, .inr fault⟩
  exact from_here _ .start

/-- What has been yielded by then is all that is read. -/
theorem Reaches.tokens_of_last {text : String} {s : Scanner} (reached : Reaches text.toList s)
    (ends : s.rest = [] ∨ ∃ fault, LexicalFault text.toList s.position fault) :
    (scan text).tokens = s.yielded := by
  rw [← reached.outcome_eq]
  rcases ends with done | ⟨fault, found⟩
  · rw [(reached.outcome_of_done done).1]
  · rw [reached.outcome_of_fault found]

end Reckoner
