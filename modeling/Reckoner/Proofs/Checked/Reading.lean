import Mathlib.Data.List.Induction
import Reckoner.Proofs.Outcome
import Reckoner.Proofs.Token.Reading

/-!
# Reading by index

The scanner as a loop over an index, with operations that can break down: there may be no character at an
index. Tokens are bare records of a kind, a text and perhaps a value, and are read one at a time.

* `isUnaryMinus_append`, looking back from a place in the text never leaves it.
* `pull_blank`, `pull_number`, `pull_symbol`, `pull_stray`, the next token is the one that stands there.
-/

namespace Reckoner

/-! ### Breaking down -/

/-- What kind of data an operation was not made for. -/
inductive Cause
  | key
  | index
  | missing
  | domain
  | range
  | zeroDivisor
  deriving DecidableEq, Repr

/-- An operation broke down. -/
structure Breakdown where
  cause : Cause
  message : String
  deriving DecidableEq, Repr

/-- Why a computation stops: a fault of the text, or a breakdown of its own. -/
inductive Stop
  | fault (fault : Fault)
  | breakdown (breakdown : Breakdown)

abbrev Checked := Except Stop

/-- A token as a record that nothing is known about. -/
structure RawToken where
  kind : Token.Kind
  text : String
  value : Option Binary64
  position : Option Int

def Token.raw (token : Token) : RawToken :=
  ⟨token.lexeme.kind, token.lexeme.text, token.lexeme.value?, token.position⟩

@[simp] theorem Token.raw_kind (token : Token) : token.raw.kind = token.lexeme.kind := rfl

@[simp] theorem Token.raw_text (token : Token) : token.raw.text = token.lexeme.text := rfl

@[simp] theorem Token.raw_value (token : Token) : token.raw.value = token.lexeme.value? := rfl

/-- A bare operator has the kind and the name of its own. -/
theorem Token.raw_operator {token : Token} {op : Operator} (lexeme : token.lexeme = .operator op) :
    token.raw.kind = .operator ∧ token.raw.text = op.symbol := by
  rw [raw_kind, raw_text, lexeme]
  exact ⟨rfl, rfl⟩

namespace Checked

/-- The character at an index. A negative index counts from the end. -/
def charAt (text : List Char) (index : Int) : Checked Char :=
  let place := if 0 ≤ index then index else text.length + index
  match if 0 ≤ place then text[place.toNat]? else none with
  | some c => .ok c
  | none => .error (.breakdown ⟨.index, "string index out of range"⟩)

/-! ### Looking back and ahead -/

/-- Goes back over blanks. -/
def lookBack (text : List Char) (index : Int) : Checked Int :=
  if 0 ≤ index then do
    let c ← charAt text index
    if Text.isBlank c then lookBack text (index - 1) else return index
  else return index
termination_by (index + 1).toNat

def isUnaryMinus (text : List Char) (index : Int) : Checked Bool := do
  let place ← lookBack text (index - 1)
  if place < 0 then return true
  return opensOperand (← charAt text place)

/-- The index behind a run of digits and points. -/
def runEnd (text : List Char) (index : Nat) : Checked Nat :=
  if index < text.length then do
    let c ← charAt text index
    if isNumberChar c then runEnd text (index + 1) else return index
  else return index
termination_by text.length - index

/-! ### One token -/

def isSign (text : List Char) (index : Nat) (c : Char) : Checked Bool :=
  if c = '-' then isUnaryMinus text index else return false

def startsNumber (text : List Char) (index : Nat) (c : Char) (sign : Bool) : Checked Bool :=
  if isNumberChar c then return true
  else if sign && index + 1 < text.length then return isNumberChar (← charAt text (index + 1 : Nat))
  else return false

def readNumber (text : List Char) (index : Nat) : Checked (RawToken × Nat) := do
  let stop ← runEnd text (index + 1)
  let run := (text.take stop).drop index
  match number? run with
  | some value => return (⟨.number, String.ofList run, some value, some index⟩, stop)
  | none => throw (.fault (.invalidNumber (String.ofList run)))

def readSymbol (index : Nat) (c : Char) (sign : Bool) : Checked RawToken :=
  if sign then return ⟨.operator, Operator.negate.symbol, none, some index⟩
  else if c ∈ Operation.all.map Operation.char then return ⟨.operator, c.toString, none, some index⟩
  else if c = '(' then return ⟨.leftParen, "(", none, some index⟩
  else if c = ')' then return ⟨.rightParen, ")", none, some index⟩
  else throw (.fault (.invalidCharacter c index))

/-- The next token from an index on, and the index behind it; none at the end of the text. -/
def pull (text : List Char) (index : Nat) : Checked (Option (RawToken × Nat)) :=
  if index < text.length then do
    let c ← charAt text index
    if Text.isBlank c then pull text (index + 1)
    else
      let sign ← isSign text index c
      if ← startsNumber text index c sign then return some (← readNumber text index)
      else return some (← readSymbol index c sign, index + 1)
  else return none
termination_by text.length - index

/-! ### Reading moves on -/

theorem le_runEnd {text : List Char} {index stop : Nat} (ended : runEnd text index = .ok stop) : index ≤ stop := by
  induction index using runEnd.induct text with
  | case1 index inside ih =>
    rw [runEnd, if_pos inside] at ended
    obtain ⟨c, -, found⟩ := bind_eq_ok.mp ended
    split at found
    · exact Nat.le_of_succ_le (ih found)
    · cases found
      exact Nat.le_refl _
  | case2 index outside =>
    rw [runEnd, if_neg outside] at ended
    cases ended
    exact Nat.le_refl _

theorem lt_readNumber {text : List Char} {index next : Nat} {token : RawToken}
    (read : readNumber text index = .ok (token, next)) : index < next := by
  obtain ⟨stop, ended, found⟩ := bind_eq_ok.mp read
  have beyond := le_runEnd ended
  simp only at found
  split at found
  · cases found
    exact beyond
  · cases found

/-- A token is found behind the index, so the tokens of a text come to an end. -/
theorem pull_progress {text : List Char} {index next : Nat} {token : RawToken}
    (pulled : pull text index = .ok (some (token, next))) : index < next ∧ index < text.length := by
  induction index using pull.induct text with
  | case1 index inside ih =>
    refine ⟨?_, inside⟩
    rw [pull, if_pos inside] at pulled
    obtain ⟨c, -, found⟩ := bind_eq_ok.mp pulled
    -- Over a blank the search goes on further behind; everything else is read here.
    split at found
    · exact Nat.lt_of_succ_lt (ih found).1
    · obtain ⟨sign, -, found⟩ := bind_eq_ok.mp found
      obtain ⟨numeric, -, found⟩ := bind_eq_ok.mp found
      split at found
      · obtain ⟨read, found, same⟩ := bind_eq_ok.mp found
        cases same
        exact lt_readNumber found
      · obtain ⟨read, found, same⟩ := bind_eq_ok.mp found
        cases same
        exact Nat.lt_succ_self index
  | case2 index outside =>
    rw [pull, if_neg outside] at pulled
    cases pulled

/-! ### What is found at a place -/

theorem charAt_append (before rest : List Char) (c : Char) :
    charAt (before ++ c :: rest) before.length = .ok c := by
  simp [charAt]

/-- Looking back stops at the start of the text, if not before. -/
theorem isUnaryMinus_append (before rest : List Char) :
    isUnaryMinus (before ++ rest) before.length = .ok (operandBegins before) := by
  induction before using List.reverseRecOn generalizing rest with
  | nil =>
    simp [isUnaryMinus, lookBack]
  | append_singleton before c ih =>
    have place : ((before ++ [c]).length : Int) - 1 = before.length := by simp
    have inside : (0 : Int) ≤ before.length := Int.natCast_nonneg _
    rw [List.append_assoc, List.singleton_append, isUnaryMinus, place, lookBack, if_pos inside, charAt_append,
      ok_bind]
    cases blank : Text.isBlank c with
    | true =>
      -- Over a blank it goes on as it would have started from there.
      rw [operandBegins_blank before blank, ← ih (c :: rest), isUnaryMinus]
      simp
    | false =>
      have outside : ¬ (before.length : Int) < 0 := Int.not_lt.mpr inside
      rw [operandBegins_solid before blank, if_neg (by simp), pure_eq_ok, ok_bind, if_neg outside, charAt_append]
      rfl

theorem isSign_append (before rest : List Char) (c : Char) :
    isSign (before ++ c :: rest) before.length c = .ok (c == '-' && operandBegins before) := by
  by_cases minus : c = '-'
  · rw [isSign, if_pos minus, isUnaryMinus_append]
    simp [minus]
  · simp [isSign, minus]

theorem startsNumber_append (before rest : List Char) (c : Char) (sign : Bool) :
    startsNumber (before ++ c :: rest) before.length c sign = .ok (numberStarts sign c rest) := by
  rw [startsNumber, numberStarts]
  cases rest with
  | nil => cases isNumberChar c <;> simp
  | cons d rest =>
    have next : charAt (before ++ c :: d :: rest) (before.length + 1 : Nat) = .ok d := by
      have found := charAt_append (before ++ [c]) rest d
      rwa [List.append_assoc, List.length_append, List.length_singleton] at found
    rw [next]
    cases isNumberChar c <;> cases sign <;> simp

theorem runEnd_append (rest : List Char) : ∀ before : List Char,
    runEnd (before ++ rest) before.length = .ok (before.length + (rest.takeWhile isNumberChar).length) := by
  induction rest with
  | nil =>
    intro before
    rw [runEnd, if_neg (by simp)]
    rfl
  | cons c rest ih =>
    intro before
    have inside : before.length < (before ++ c :: rest).length := by simp
    rw [runEnd, if_pos inside, charAt_append]
    cases number : isNumberChar c with
    | false => simp [number]
    | true =>
      have further := ih (before ++ [c])
      rw [List.append_assoc, List.length_append, List.length_singleton, Nat.add_assoc, Nat.add_comm 1] at further
      rw [ok_bind, if_pos number, List.takeWhile_cons_of_pos number, List.length_cons]
      exact further

/-! ### The next token -/

section

variable {before rest : List Char}

theorem pull_done (text : List Char) : pull text text.length = .ok none := by
  rw [pull, if_neg (Nat.lt_irrefl _)]
  rfl

theorem pull_blank {c : Char} (blank : Text.isBlank c = true) :
    pull (before ++ c :: rest) before.length = pull (before ++ c :: rest) (before ++ [c]).length := by
  have inside : before.length < (before ++ c :: rest).length := by simp
  rw [pull, if_pos inside, charAt_append]
  simp [blank]

theorem pull_solid {c : Char} (solid : Text.isBlank c = false) :
    pull (before ++ c :: rest) before.length =
      if numberStarts (c == '-' && operandBegins before) c rest then
        (readNumber (before ++ c :: rest) before.length).map some
      else (readSymbol before.length c (c == '-' && operandBegins before)).map fun token =>
        some (token, (before ++ [c]).length) := by
  have inside : before.length < (before ++ c :: rest).length := by simp
  rw [pull, if_pos inside, charAt_append, ok_bind, if_neg (by simp [solid]), isSign_append, ok_bind,
    startsNumber_append, ok_bind, List.length_append, List.length_singleton]
  split
  · cases readNumber (before ++ c :: rest) before.length <;> rfl
  · cases readSymbol before.length c (c == '-' && operandBegins before) <;> rfl

/-- The whole run is taken, and nothing behind it. -/
theorem pull_number {run : List Char} (number : NumberAt before run rest) :
    pull (before ++ (run ++ rest)) before.length =
      match number? run with
      | some value =>
        .ok (some (Token.raw ⟨.number (String.ofList run) value, some before.length⟩, (before ++ run).length))
      | none => .error (.fault (.invalidNumber (String.ofList run))) := by
  obtain ⟨c, tail, rfl, solid, starts, taken, -⟩ := number.starts
  -- The loop ends behind the run, so the slice up to there is the run.
  have stop := runEnd_append (tail ++ rest) (before ++ [c])
  have place : (before ++ [c]).length + tail.length = (before ++ c :: tail).length := by
    simp
    omega
  rw [taken, place, List.append_assoc, List.length_append, List.length_singleton, List.singleton_append] at stop
  have run : ((before ++ c :: (tail ++ rest)).take (before ++ c :: tail).length).drop before.length =
      c :: tail := by
    rw [← List.cons_append, ← List.append_assoc, List.take_left, List.drop_left]
  rw [List.cons_append, pull_solid solid, if_pos starts, readNumber, stop, ok_bind, run]
  cases read : number? (c :: tail) <;> simp only [read] <;> rfl

theorem pull_symbol {c : Char} {lexeme : Lexeme} (symbol : SymbolAt before rest c lexeme) :
    pull (before ++ c :: rest) before.length =
      .ok (some (Token.raw ⟨lexeme, some before.length⟩, (before ++ [c]).length)) := by
  have solid := (not_number_of_symbol symbol.mem).2
  rw [pull_solid solid, if_neg (by simp [symbol.found.1])]
  cases symbol with
  | leftParen => rfl
  | rightParen => rfl
  | sign begins apart =>
    rw [begins]
    rfl
  | operation operation binary =>
    cases operation with
    | sub =>
      -- Where no operand begins, a minus is no sign.
      rw [binary rfl]
      rfl
    | _ => rfl

theorem pull_stray {c : Char} (stray : IsStray c) :
    pull (before ++ c :: rest) before.length = .error (.fault (.invalidCharacter c before.length)) := by
  obtain ⟨solid, other, foreign⟩ := stray
  simp only [symbolChars, List.mem_cons, List.not_mem_nil, or_false, not_or] at foreign
  obtain ⟨plus, minus, times, slash, power, left, right⟩ := foreign
  have unnamed : c ∉ Operation.all.map Operation.char := by
    simp [Operation.all, Operation.char, plus, minus, times, slash, power]
  rw [pull_solid solid, if_neg (by simp [numberStarts_eq, other, minus]), readSymbol, if_neg (by simp [minus]),
    if_neg unnamed, if_neg left, if_neg right]
  rfl

end

end Checked

end Reckoner
