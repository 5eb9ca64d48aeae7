import Reckoner.Proofs.Infix.Spelling
import Reckoner.Proofs.Token.Progress

/-!
# The tokens cover the text

The tokens of a text stand in it one behind the other, each where it says, and nothing but blanks stands
between them. No character is passed over, read twice, or given to the wrong token, and this also holds of the
tokens in front of a fault.

Main result: `scan_partitions`.
-/

namespace Reckoner

/-- The characters that a lexeme takes up in a text. Only the sign is not written by its name. -/
def Lexeme.written : Lexeme → List Char
  | .operator .negate => ['-']
  | lexeme => lexeme.text.toList

namespace Token

/-- Where the token begins in its text. -/
def start (token : Token) : Nat := (token.position.getD 0).toNat

/-- Where the text goes on behind the token. -/
def stop (token : Token) : Nat := token.start + token.lexeme.written.length

/-- The token is not empty, and its characters stand in the text at its position. -/
structure StandsIn (text : List Char) (token : Token) : Prop where
  placed : token.position = some (token.start : Int)
  nonempty : token.lexeme.written ≠ []
  slice : (text.drop token.start).take token.lexeme.written.length = token.lexeme.written

/-- The place lies in the span of the token. -/
def Covers (token : Token) (place : Nat) : Prop := token.start ≤ place ∧ place < token.stop

end Token

/-- Up to a limit the text consists of the tokens, in this order, and of blanks. -/
structure Partitions (text : List Char) (tokens : List Token) (limit : Nat) : Prop where
  stands : ∀ token ∈ tokens, token.StandsIn text
  increasing : tokens.Pairwise fun one next => one.start < next.start
  apart : tokens.Pairwise fun one next => one.stop ≤ next.start
  within : ∀ token ∈ tokens, token.stop ≤ limit
  blank : ∀ place c, place < limit → text[place]? = some c → (∀ token ∈ tokens, ¬ token.Covers place) →
    Text.isBlank c = true

/-- A whole number of the text: a run of digits and points, perhaps with a sign, that neither the character
behind it nor the one in front of its digits and points makes longer. -/
inductive WholeNumber (text : List Char) : Nat → List Char → Prop
  | run (sign : List Char) {before digits after : List Char} (split : text = before ++ (sign ++ (digits ++ after)))
      (signs : sign = [] ∨ sign = ['-']) (maximal : MaximalRun digits after)
      (begins : ∀ c ∈ (before ++ sign).getLast?, isNumberChar c = false) :
      WholeNumber text before.length (sign ++ digits)

/-! ### One token more -/

theorem partitions_nil (text : List Char) : Partitions text [] 0 where
  stands := by simp
  increasing := .nil
  apart := .nil
  within := by simp
  blank := by
    intro place c below
    exact absurd below (Nat.not_lt_zero place)

/-- Behind a blank. -/
theorem Partitions.blank_behind {before rest : List Char} {c : Char} {tokens : List Token}
    (partition : Partitions (before ++ c :: rest) tokens before.length) (solid : Text.isBlank c = true) :
    Partitions (before ++ c :: rest) tokens (before.length + 1) where
  stands := partition.stands
  increasing := partition.increasing
  apart := partition.apart
  within := fun token member => Nat.le_succ_of_le (partition.within token member)
  blank := by
    intro place d below found uncovered
    rcases Nat.lt_succ_iff_lt_or_eq.mp below with earlier | rfl
    · exact partition.blank place d earlier found uncovered
    · have same : c = d := by simpa using found
      rwa [← same]

/-- Behind a token. -/
theorem Partitions.token_behind {before run rest : List Char} {tokens : List Token} {lexeme : Lexeme}
    (partition : Partitions (before ++ (run ++ rest)) tokens before.length) (written : lexeme.written = run)
    (nonempty : run ≠ []) :
    Partitions (before ++ (run ++ rest)) (tokens ++ [⟨lexeme, some before.length⟩])
      (before.length + run.length) := by
  subst written
  let token : Token := ⟨lexeme, some before.length⟩
  have place : token.start = before.length := by simp [token, Token.start]
  have positive : 0 < lexeme.written.length := List.length_pos_iff.mpr nonempty
  -- The tokens so far end where this one begins.
  have behind : ∀ one ∈ tokens, one.stop ≤ token.start := fun one member =>
    place ▸ partition.within one member
  refine ⟨?_, ?_, ?_, ?_, ?_⟩
  · refine List.forall_mem_append.mpr ⟨partition.stands, List.forall_mem_singleton.mpr ⟨?_, nonempty, ?_⟩⟩
    · rw [place]
    · rw [place]
      simp
  · refine List.pairwise_append.mpr ⟨partition.increasing, List.pairwise_singleton _ _, ?_⟩
    intro one member next last
    cases List.mem_singleton.mp last
    have wide : 0 < one.lexeme.written.length := List.length_pos_iff.mpr (partition.stands one member).nonempty
    exact Nat.lt_of_lt_of_le (Nat.lt_add_of_pos_right wide) (behind one member)
  · refine List.pairwise_append.mpr ⟨partition.apart, List.pairwise_singleton _ _, ?_⟩
    intro one member next last
    cases List.mem_singleton.mp last
    exact behind one member
  · refine List.forall_mem_append.mpr ⟨fun one member => ?_, List.forall_mem_singleton.mpr ?_⟩
    · exact Nat.le_add_right_of_le (partition.within one member)
    · exact Nat.le_of_eq (congrArg (· + lexeme.written.length) place)
  · intro spot c below found uncovered
    rcases Nat.lt_or_ge spot before.length with earlier | later
    · exact partition.blank spot c earlier found fun one member => uncovered one (by simp [member])
    · -- Such a place would lie in the new token.
      refine absurd ⟨?_, ?_⟩ (uncovered token (by simp [token]))
      · rwa [place]
      · rw [Token.stop, place]
        exact below

theorem NumberAt.wholeNumber {before run rest : List Char} (number : NumberAt before run rest) :
    WholeNumber (before ++ (run ++ rest)) before.length run := by
  rcases number.shape with whole | ⟨digits, rfl, -, whole⟩
  · refine .run [] rfl (.inl rfl) whole ?_
    intro c last
    rw [List.append_nil] at last
    obtain ⟨front, rfl⟩ := List.getLast?_eq_some_iff.mp last
    exact (number.boundary whole.goesOn front c rfl).1
  · refine .run ['-'] rfl (.inr rfl) whole ?_
    intro c last
    rw [List.getLast?_concat] at last
    cases last
    decide

/-! ### What is read -/

theorem SymbolAt.written {before rest : List Char} {c : Char} {lexeme : Lexeme}
    (symbol : SymbolAt before rest c lexeme) : lexeme.written = [c] := by
  cases symbol with
  | leftParen | rightParen | sign => rfl
  | operation operation => cases operation <;> rfl

/-- Wherever the scanner is, its tokens cover what it has read. -/
theorem Reaches.partitions {text : List Char} {s : Scanner} (reached : Reaches text s) :
    Partitions text s.yielded s.position := by
  induction reached with
  | start => exact partitions_nil text
  | @turn s next reached turn ih =>
    obtain ⟨before, rfl, behind⟩ := reached.behind
    rcases turn.cases behind with ⟨c, rest, split, blank, rfl⟩ | ⟨run, rest, value, split, number, -, rfl⟩ |
      ⟨c, rest, lexeme, split, symbol, rfl⟩
    · rw [split, behind.position] at ih ⊢
      exact ih.blank_behind blank
    · obtain ⟨d, tail, same, -⟩ := number.first
      rw [split, behind.position] at ih ⊢
      exact ih.token_behind String.toList_ofList (by simp [same])
    · have single : c :: rest = [c] ++ rest := rfl
      rw [split, behind.position, single] at ih ⊢
      exact ih.token_behind symbol.written (List.cons_ne_nil c [])

/-- A number of the text with its value, which is the nearest double to what its digits say. -/
structure ReadsNumber (text : List Char) (start : Nat) (run : String) (value : Binary64) : Prop where
  whole : WholeNumber text start run.toList
  formed : ¬ Malformed run.toList
  spelling : Spelling (.number run value) run.toList
  number : value ≠ .nan

theorem ofRank_ne_nan (negative : Bool) (rank : Nat) : Binary64.ofRank negative rank ≠ .nan := by
  unfold Binary64.ofRank
  split <;> exact Binary64.noConfusion

theorem toBinary64_ne_nan (negative : Bool) (d : Decimal) : d.toBinary64 negative ≠ .nan := by
  unfold Decimal.toBinary64
  split
  · exact ofRank_ne_nan negative 0
  · split
    · exact Binary64.noConfusion
    · exact ofRank_ne_nan negative d.rank

theorem Literal.ne_nan {run : List Char} {value : Binary64} (literal : Literal run value) : value ≠ .nan := by
  cases literal <;> exact toBinary64_ne_nan _ _

theorem Spelling.ne_nan {run : String} {chars : List Char} {value : Binary64}
    (spelling : Spelling (.number run value) chars) : value ≠ .nan := by
  cases spelling with
  | number literal => exact literal.ne_nan
  | @signed _ _ magnitude literal =>
    have positive := literal.ne_nan
    cases magnitude with
    | nan => exact absurd rfl positive
    | infinite | finite => exact Binary64.noConfusion

theorem NumberAt.readsNumber {before run rest : List Char} {value : Binary64}
    (number : NumberAt before run rest) (read : number? run = some value) :
    ReadsNumber (before ++ (run ++ rest)) before.length (String.ofList run) value := by
  have spelling := number.spelling read
  have formed : ¬ Malformed run := by
    rw [← number.unread_iff, read]
    exact Option.some_ne_none value
  refine ⟨?_, ?_, ?_, spelling.ne_nan⟩ <;> rw [String.toList_ofList]
  · exact number.wholeNumber
  · exact formed
  · exact spelling

/-- Wherever the scanner is, the numbers that it has yielded are whole numbers of the text. -/
theorem Reaches.readsNumber {text : List Char} {s : Scanner} (reached : Reaches text s) :
    ∀ token ∈ s.yielded, ∀ run value, token.lexeme = .number run value →
      ReadsNumber text token.start run value := by
  induction reached with
  | start => exact fun token member => absurd member List.not_mem_nil
  | @turn s next reached turn ih =>
    obtain ⟨before, rfl, behind⟩ := reached.behind
    rcases turn.cases behind with ⟨c, rest, split, blank, rfl⟩ | ⟨run, rest, value, split, number, read, rfl⟩ |
      ⟨c, rest, lexeme, split, symbol, rfl⟩
    · exact ih
    · refine List.forall_mem_append.mpr ⟨ih, List.forall_mem_singleton.mpr ?_⟩
      intro run' value' same
      cases same
      rw [split, behind.position]
      exact number.readsNumber read
    · refine List.forall_mem_append.mpr ⟨ih, List.forall_mem_singleton.mpr ?_⟩
      intro run value same
      simp only at same
      subst same
      cases symbol

/-- The tokens of a text cover it up to its end, or up to the first lexical fault that the scanner reaches. A
number among them is a whole run of digits and points of the text with the sign that belongs to it, has a
digit and at most one point, and has the value of its digits. The fault is a run that has no digit or a second
point, or a character that belongs to no lexeme; no other thing stops the scanner, and each of them does as
soon as it is reached. -/
theorem scan_partitions (text : String) :
    (∃ limit, Partitions text.toList (scan text).tokens limit ∧
      ((scan text).fault = none ∧ limit = text.toList.length ∨
        ∃ fault, (scan text).fault = some fault ∧ LexicalFault text.toList limit fault)) ∧
    (∀ token ∈ (scan text).tokens, ∀ run value, token.lexeme = .number run value →
      ReadsNumber text.toList token.start run value) ∧
    ∀ fault, (scan text).fault = some fault ↔
      ∃ s, Reaches text.toList s ∧ LexicalFault text.toList s.position fault := by
  obtain ⟨last, reached, ends⟩ := exists_last text.toList
  have met : ∀ {s fault}, Reaches text.toList s → LexicalFault text.toList s.position fault →
      scan text = ⟨s.yielded, some fault⟩ :=
    fun found stops => found.outcome_eq.symm.trans (found.outcome_of_fault stops)
  rw [reached.tokens_of_last ends]
  refine ⟨⟨last.position, reached.partitions, ?_⟩, reached.readsNumber, fun fault => ?_⟩
  · rcases ends with done | ⟨fault, found⟩
    · rw [← reached.outcome_eq, (reached.outcome_of_done done).1]
      exact .inl ⟨rfl, (reached.outcome_of_done done).2⟩
    · rw [met reached found]
      exact .inr ⟨fault, rfl, found⟩
  · constructor
    · intro stopped
      rcases ends with done | ⟨fault', found⟩
      · rw [← reached.outcome_eq, (reached.outcome_of_done done).1] at stopped
        cases stopped
      · rw [met reached found] at stopped
        cases stopped
        exact ⟨last, reached, found⟩
    · rintro ⟨s, there, found⟩
      rw [met there found]

end Reckoner
