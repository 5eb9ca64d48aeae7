import Mathlib.Data.Nat.Find
import Reckoner.Proofs.Checked.Ordering
import Reckoner.Proofs.Expression.Classified

/-!
# One token at a time, or all of them first

The operator stack takes the tokens while the text is being read. Were the text read to its end first, the
outcome would be the same, unless the stack refuses a closing parenthesis that stands before the first
lexical fault: one token at a time, the parenthesis is reported; in separate stages, the lexical fault.

Main result: `stagedRow_cases`.
-/

namespace Reckoner

variable {text : List Char}

/-! ### The first lexical fault -/

/-- There is no lexical fault before a position. -/
def Regular (text : List Char) (limit : Nat) : Prop :=
  ∀ position < limit, ∀ fault, ¬ LexicalFault text position fault

/-- The lexical fault that no other one stands before. -/
def FirstLexicalFault (text : List Char) (position : Nat) (fault : Fault) : Prop :=
  LexicalFault text position fault ∧ Regular text position

/-- What reading a text to its end comes to. -/
inductive Lexed (text : List Char) : Option Fault → Prop
  | clean (regular : Regular text text.length) : Lexed text none
  | failed {position : Nat} {fault : Fault} (first : FirstLexicalFault text position fault) :
      Lexed text (some fault)

theorem Regular.next {before rest : List Char} {c : Char} (regular : Regular (before ++ c :: rest) before.length)
    (here : ∀ fault, ¬ LexicalFault (before ++ c :: rest) before.length fault) :
    Regular (before ++ [c] ++ rest) (before ++ [c]).length := by
  rw [List.append_assoc, List.singleton_append, List.length_append, List.length_singleton]
  intro position below fault
  rcases Nat.lt_succ_iff_lt_or_eq.mp below with earlier | rfl
  · exact regular position earlier fault
  · exact here fault

theorem Regular.number {before run rest : List Char}
    (regular : Regular (before ++ (run ++ rest)) before.length) (number : NumberAt before run rest)
    (formed : ¬ Malformed run) : Regular (before ++ run ++ rest) (before ++ run).length := by
  rw [List.append_assoc]
  intro position below fault
  rcases Nat.lt_or_ge position before.length with earlier | later
  · exact regular position earlier fault
  · exact LexicalFault.not_number number formed later below

/-- Reading stops at the first lexical fault. -/
theorem Reads.lexed {before text : List Char} {stream : TokenStream} (reads : Reads before text stream) :
    Regular (before ++ text) before.length → Lexed (before ++ text) stream.fault := by
  induction reads with
  | @done before =>
    intro regular
    rw [List.append_nil] at regular ⊢
    exact .clean regular
  | @blank before rest c stream blank _ ih =>
    intro regular
    rw [List.append_cons]
    exact ih (regular.next fun _ => LexicalFault.not_blank blank)
  | @number before run rest value stream number read _ ih =>
    intro regular
    have formed : ¬ Malformed run := by
      rw [← number.unread_iff, read]
      simp
    rw [← List.append_assoc]
    exact ih (regular.number number formed)
  | malformed number unread =>
    exact fun regular => .failed ⟨.number rfl number (number.unread_iff.mp unread), regular⟩
  | @symbol before rest c lexeme stream symbol _ ih =>
    intro regular
    rw [List.append_cons]
    exact ih (regular.next fun _ => LexicalFault.not_symbol symbol)
  | stray stray => exact fun regular => .failed ⟨.character rfl stray, regular⟩

theorem scan_lexed (text : String) : Lexed text.toList (scan text).fault :=
  (reads_scan text).lexed fun position below => absurd below (Nat.not_lt_zero position)

theorem FirstLexicalFault.unique {position other : Nat} {fault found : Fault}
    (first : FirstLexicalFault text position fault) (again : FirstLexicalFault text other found) :
    position = other ∧ fault = found := by
  rcases Nat.lt_trichotomy position other with earlier | rfl | later
  · exact absurd first.1 (again.2 position earlier fault)
  · exact ⟨rfl, first.1.unique again.1⟩
  · exact absurd again.1 (first.2 other later found)

theorem FirstLexicalFault.fault_eq {text : String} {position : Nat} {fault : Fault}
    (first : FirstLexicalFault text.toList position fault) : (scan text).fault = some fault := by
  have lexed := scan_lexed text
  generalize (scan text).fault = found at lexed
  cases lexed with
  | clean regular => exact absurd first.1 (regular position (Met.lt_length (.inl first.1)) fault)
  | failed other => rw [(first.unique other).2]

/-! ### Separate stages -/

theorem stagedRow_clean {text : String} (clean : (scan text).fault = none) :
    stagedRow text = postfixRow (scan text) := by
  simp only [stagedRow, TokenStream.all, TokenStream.finish, postfixRow, clean]
  rfl

theorem stagedRow_failed {text : String} {fault : Fault} (failed : (scan text).fault = some fault) :
    stagedRow text = .error fault := by
  simp only [stagedRow, TokenStream.all, TokenStream.finish, failed]
  rfl

/-- The parenthesis that is refused first, if one is refused before a position. -/
theorem exists_first_unopened {position limit : Nat} (unopened : Unopened text position)
    (before : position < limit) :
    ∃ first < limit, Unopened text first ∧ ∀ earlier < first, ¬ Unopened text earlier := by
  classical
  have some : ∃ position, Unopened text position := ⟨position, unopened⟩
  exact ⟨Nat.find some, (Nat.find_min' some unopened).trans_lt before, Nat.find_spec some, fun _ => Nat.find_min some⟩

/-- A lexical fault is no parenthesis. -/
theorem LexicalFault.ne_unopened {position : Nat} {fault : Fault} (lexical : LexicalFault text position fault)
    (paren : Option Int) : fault ≠ .unopened paren := by
  cases lexical with
  | character => exact fun same => nomatch same
  | number => exact fun same => nomatch same

/-- A parenthesis is refused before the first lexical fault is reached. -/
theorem postfixRow_of_unopened_before {text : String} {position limit : Nat} {fault : Fault}
    (first : FirstLexicalFault text.toList limit fault) (before : position < limit)
    (unopened : Unopened text.toList position) (leftmost : ∀ earlier < position, ¬ Unopened text.toList earlier) :
    postfixRow (scan text) = .error (.unopened (some (position : Int))) := by
  refine (postfixRow_verdict text).of_met (.inr ⟨unopened, rfl⟩) ?_
  rintro earlier below fault (lexical | ⟨unopened', -⟩)
  · exact first.2 earlier (below.trans before) fault lexical
  · exact leftmost earlier below unopened'

/-- Otherwise the first lexical fault is reached. -/
theorem postfixRow_of_first {text : String} {position : Nat} {fault : Fault}
    (first : FirstLexicalFault text.toList position fault)
    (opened : ∀ earlier < position, ¬ Unopened text.toList earlier) :
    postfixRow (scan text) = .error fault := by
  refine (postfixRow_verdict text).of_met (.inl first.1) ?_
  rintro earlier below fault (lexical | ⟨unopened, -⟩)
  · exact first.2 earlier below fault lexical
  · exact opened earlier below unopened

/-- The two ways to put the tokens of a text in order. One pulls every token from the text when the stack asks
for it, and a fault of the text with it; the other has read all of the text before. They succeed on the same
texts with the same row, and differ exactly if an unopened parenthesis stands before the first lexical fault.
Then the first such parenthesis is reported by the one, the lexical fault by the other. -/
theorem stagedRow_cases (text : String) :
    Checked.arrange text.toList 0 [] = Checked.lift (List.map Token.raw) (postfixRow (scan text)) ∧
      (∀ row, postfixRow (scan text) = .ok row ↔ stagedRow text = .ok row) ∧
      (postfixRow (scan text) ≠ stagedRow text ↔
        ∃ limit fault position, FirstLexicalFault text.toList limit fault ∧ position < limit ∧
          Unopened text.toList position) ∧
      ∀ limit fault, FirstLexicalFault text.toList limit fault →
        stagedRow text = .error fault ∧
          ∀ position < limit, Unopened text.toList position →
            (∀ earlier < position, ¬ Unopened text.toList earlier) →
            postfixRow (scan text) = .error (.unopened (some (position : Int))) := by
  refine ⟨arrange_eq text, ?_⟩
  have failing (limit : Nat) (fault : Fault) (first : FirstLexicalFault text.toList limit fault) :
      stagedRow text = .error fault ∧
        ∀ position < limit, Unopened text.toList position →
          (∀ earlier < position, ¬ Unopened text.toList earlier) →
          postfixRow (scan text) = .error (.unopened (some (position : Int))) :=
    ⟨stagedRow_failed first.fault_eq,
      fun _ before unopened leftmost => postfixRow_of_unopened_before first before unopened leftmost⟩
  have lexed := scan_lexed text
  generalize scanned : (scan text).fault = found at lexed
  cases lexed with
  | clean regular =>
    -- Without a lexical fault both ways are the same.
    have same := stagedRow_clean scanned
    refine ⟨fun row => by rw [same], ?_, failing⟩
    constructor
    · exact fun differ => absurd same.symm differ
    · rintro ⟨limit, fault, -, first, -⟩
      exact absurd first.1 (regular limit (Met.lt_length (.inl first.1)) fault)
  | @failed limit fault first =>
    have staged := stagedRow_failed scanned
    by_cases some : ∃ position < limit, Unopened text.toList position
    · obtain ⟨position, before, unopened⟩ := some
      obtain ⟨position', before', unopened', leftmost⟩ := exists_first_unopened unopened before
      have refused := postfixRow_of_unopened_before first before' unopened' leftmost
      refine ⟨fun row => by simp [refused, staged], ?_, failing⟩
      rw [refused, staged]
      constructor
      · exact fun _ => ⟨limit, fault, position, first, before, unopened⟩
      · exact fun _ same => first.1.ne_unopened _ (Except.error.inj same).symm
    · have reached := postfixRow_of_first first fun earlier below found => some ⟨earlier, below, found⟩
      refine ⟨fun row => by simp [reached, staged], ?_, failing⟩
      rw [reached, staged]
      constructor
      · exact fun differ => absurd rfl differ
      · rintro ⟨limit', fault', position, first', before, unopened⟩
        rw [(first'.unique first).1] at before
        exact absurd ⟨position, before, unopened⟩ some

/-- The parenthesis stands before the character. -/
theorem stagedRow_paren_before_stray :
    postfixRow (scan "1)$") = .error (.unopened (some 1)) ∧
      stagedRow "1)$" = .error (.invalidCharacter '$' 2) := by
  have number : NumberAt [] ['1'] [')', '$'] :=
    ⟨isBoundary_nil _, .inl ⟨by decide, List.all_eq_true.mp (by decide), rfl⟩⟩
  have formed : ¬ Malformed ['1'] := by
    simp [Malformed]
  have start : Regular ([] ++ (['1'] ++ [')', '$'])) 0 := fun _ below => absurd below (Nat.not_lt_zero _)
  have regular : Regular (['1', ')'] ++ ['$']) 2 :=
    (start.number number formed).next fun _ => LexicalFault.not_symbol .rightParen
  have lexical : LexicalFault (['1', ')'] ++ '$' :: []) ['1', ')'].length (.invalidCharacter '$' 2) :=
    .character rfl (by decide)
  have unopened : Unopened "1)$".toList 1 := ⟨['1'], ['$'], rfl, rfl, by decide⟩
  have leftmost : ∀ earlier < 1, ¬ Unopened "1)$".toList earlier := by
    intro earlier below found
    cases Nat.lt_one_iff.mp below
    exact absurd found.char (by decide)
  have both := (stagedRow_cases "1)$").2.2.2 2 (.invalidCharacter '$' 2) ⟨lexical, regular⟩
  exact ⟨both.2 1 (by decide) unopened leftmost, both.1⟩

end Reckoner
