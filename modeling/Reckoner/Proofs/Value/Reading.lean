import Reckoner.Proofs.Outcome
import Reckoner.Proofs.Value.Storable
import Reckoner.Proofs.Value.Text

/-!
# Reading step by step

How a written value starts, what the reader makes of the parts that are neither lists nor objects, and how it
goes on from one item or entry to the next.

Main results: `starts_write`, `readValue_integer`, `readValue_double`, `readItems_next`, `readEntries_next`.
-/

namespace Reckoner

namespace Value

/-! ### The start of a written value -/

/-- Nothing that is skipped in front of a value or stands in its place. -/
def Begins (text : List Char) : Prop := ∀ c ∈ text.head?, isSpace c = false ∧ c ≠ ']' ∧ c ≠ '\x7d'

theorem begins_nil : Begins [] := by simp [Begins]

theorem begins_cons {c : Char} (solid : isSpace c = false) (noList : c ≠ ']') (noObject : c ≠ '\x7d')
    (rest : List Char) : Begins (c :: rest) := by
  rintro d same
  cases same
  exact ⟨solid, noList, noObject⟩

/-- A draft that starts like a value, or that stopped before it did. -/
structure Starts (draft : Draft) : Prop where
  begins : Begins draft.text
  stopped : draft.text = [] → draft.fault ≠ none

theorem starts_ofChars {text : List Char} (begins : Begins text) (nonempty : text ≠ []) :
    Starts (.ofChars text) :=
  ⟨begins, fun empty => absurd empty nonempty⟩

theorem starts_stopped (fault : WriteFault) : Starts (.stopped fault) :=
  ⟨begins_nil, fun _ => Option.some_ne_none fault⟩

theorem starts_number {numeral : Numeral} {text : List Char} (spelled : numeral.Spelled text)
    (negative : Bool) : Starts (.ofChars (minusSign negative ++ text)) := by
  obtain ⟨c, rest, rfl, digit⟩ := spelled.starts
  cases negative with
  | true => exact starts_ofChars (begins_cons rfl (by decide) (by decide) _) (List.cons_ne_nil _ _)
  | false =>
    have solid : isSpace c = false := by
      simp only [isSpace, Bool.or_eq_false_iff, beq_eq_false_iff_ne]
      exact ⟨⟨⟨ne_of_isDigit digit rfl, ne_of_isDigit digit rfl⟩, ne_of_isDigit digit rfl⟩, ne_of_isDigit digit rfl⟩
    exact starts_ofChars (begins_cons solid (ne_of_isDigit digit rfl) (ne_of_isDigit digit rfl) rest)
      (List.cons_ne_nil _ _)

theorem Starts.append {first : Draft} (starts : Starts first) (second : Draft) : Starts (first ++ second) := by
  obtain ⟨text, fault⟩ := first
  cases fault with
  | some fault => exact starts
  | none =>
    cases text with
    | nil => exact absurd rfl (starts.stopped rfl)
    | cons c rest => exact ⟨fun d first => starts.begins d first, fun empty => nomatch empty⟩

/-- What follows a draft that is whole does not change how it starts. -/
theorem Starts.before {draft : Draft} (starts : Starts draft) (whole : draft.fault = none)
    (more : List Char) : Begins (draft.text ++ more) := by
  cases text : draft.text with
  | nil => exact absurd whole (starts.stopped text)
  | cons c rest =>
    have begins := starts.begins
    rw [text] at begins
    exact fun d first => begins d first

theorem starts_write (depth : Nat) (value : Value) : Starts (value.write depth) := by
  have starts : ∀ {c : Char} (rest : List Char), isSpace c = false ∧ c ≠ ']' ∧ c ≠ '\x7d' →
      Starts (.ofChars (c :: rest)) := fun rest ⟨solid, noList, noObject⟩ =>
    starts_ofChars (begins_cons solid noList noObject rest) (List.cons_ne_nil _ _)
  cases value with
  | null => exact starts _ (by decide)
  | bool b => cases b <;> exact starts _ (by decide)
  | integer n =>
    rw [write]
    split
    · exact starts_stopped _
    · exact starts_number (.digits (isWhole_decimalDigits n.natAbs)) _
  | double x =>
    cases x with
    | nan => exact starts _ (by decide)
    | infinite negative => cases negative <;> exact starts _ (by decide)
    | finite negative rank inRange =>
      obtain ⟨numeral, spelled, -⟩ := Binary64.finite_spelled inRange
      exact starts_number spelled negative
  | text s => exact starts _ (by decide)
  | list items =>
    cases items with
    | nil => exact starts _ (by decide)
    | cons item rest =>
      rw [write]
      refine Starts.append (Starts.append ?_ _) _
      rw [writeBehind]
      split
      next long =>
        obtain ⟨fault, same⟩ := write_of_isTooLong long (depth + 1)
        rw [same]
        exact starts_stopped fault
      next => exact (starts _ (by decide)).append _
  | object entries =>
    cases entries with
    | nil => exact starts _ (by decide)
    | cons entry rest =>
      rw [write]
      exact (((starts _ (by decide)).append _).append _).append _
  | unwritable => exact starts_stopped _

theorem skipSpace_of_begins {text : List Char} (begins : Begins text) : skipSpace text = text := by
  cases text with
  | nil => rfl
  | cons c rest => simp [skipSpace, (begins c rfl).1]

theorem skipSpace_newline (depth : Nat) (text : List Char) :
    skipSpace (newline depth ++ text) = skipSpace text := by
  have blanks : ∀ c ∈ newline depth, isSpace c = true := by
    intro c member
    rcases List.mem_cons.mp member with rfl | blank
    · rfl
    · rw [List.eq_of_mem_replicate blank]
      rfl
  exact List.dropWhile_append_of_pos blanks

/-! ### Parts that are neither lists nor objects -/

theorem readValue_text (fuel : Nat) (text : CodeText) (rest : List Char) :
    readValue (fuel + 1) (writeText text ++ rest) = .ok (.text text.joined, rest) := by
  simp [writeText, readValue, readText_written, CodeText.joined, Except.map]

theorem readAtom_digit {c : Char} (digit : c.isDigit = true) (rest : List Char) :
    readAtom (c :: rest) = readNumber false (c :: rest) := by
  -- Every other atom starts with a letter or a minus.
  unfold readAtom
  split <;> first
    | rfl
    | next same => exact absurd (List.cons.inj same).1 (ne_of_isDigit digit rfl)

theorem readAtom_signed_digit {c : Char} (digit : c.isDigit = true) (rest : List Char) :
    readAtom ('-' :: c :: rest) = readNumber true (c :: rest) := by
  unfold readAtom
  split <;> first
    | next same => exact absurd (List.cons.inj same).1 (by decide)
    | next same => exact absurd (List.cons.inj (List.cons.inj same).2).1 (ne_of_isDigit digit rfl)
    | next same => rw [(List.cons.inj same).2]
    | next other => exact absurd rfl (other _)

theorem readValue_atom {c : Char} (noText : c ≠ '"') (noList : c ≠ '[') (noObject : c ≠ '\x7b') (fuel : Nat)
    (rest : List Char) : readValue (fuel + 1) (c :: rest) = readAtom (c :: rest) := by
  rw [readValue] <;> simp [noText, noList, noObject]

theorem readValue_number {numeral : Numeral} {text rest : List Char} (spelled : numeral.Spelled text)
    (fuel : Nat) (negative : Bool) :
    readValue (fuel + 1) (minusSign negative ++ text ++ rest) = readNumber negative (text ++ rest) := by
  obtain ⟨c, digits, rfl, digit⟩ := spelled.starts
  cases negative with
  | true => exact readAtom_signed_digit digit _
  | false =>
    exact (readValue_atom (ne_of_isDigit digit rfl) (ne_of_isDigit digit rfl) (ne_of_isDigit digit rfl) fuel _).trans
      (readAtom_digit digit _)

theorem readValue_integer {n : Int} (short : digitCount n.natAbs ≤ Text.digitLimit) (fuel : Nat)
    {rest : List Char} (ends : EndsNumeral rest) :
    readValue (fuel + 1) (writeInteger n ++ rest) = .ok (.integer n, rest) := by
  have spelled := Numeral.Spelled.digits (isWhole_decimalDigits n.natAbs)
  have fits : ¬ Text.digitLimit < (decimalDigits n.natAbs).length := Nat.not_lt.mpr short
  rw [writeInteger, readValue_number spelled, readNumber, spelled.scan? ends]
  simp [Numeral.isWhole, fits, signed_natAbs]

theorem readValue_tooLong {digits : List Char} (whole : IsWhole digits)
    (long : Text.digitLimit < digits.length) (fuel : Nat) {rest : List Char} (ends : EndsNumeral rest) :
    readValue (fuel + 1) (digits ++ rest) = .error (.tooLong digits.length) := by
  have spelled := Numeral.Spelled.digits whole
  have number : readNumber false (digits ++ rest) = .error (.tooLong digits.length) := by
    rw [readNumber, spelled.scan? ends]
    simp [Numeral.isWhole, long]
  rw [← number]
  exact readValue_number spelled fuel false

theorem readValue_double (x : Binary64) (fuel : Nat) {rest : List Char} (ends : EndsNumeral rest) :
    readValue (fuel + 1) (writeDouble x ++ rest) = .ok (.double x, rest) := by
  cases x with
  | nan => rfl
  | infinite negative => cases negative <;> rfl
  | finite negative rank inRange =>
    obtain ⟨numeral, spelled, notWhole, value⟩ := Binary64.finite_spelled inRange
    change readValue (fuel + 1) (minusSign negative ++ _ ++ rest) = _
    rw [readValue_number spelled, readNumber, spelled.scan? ends]
    simp [notWhole, value]

/-! ### Steps of the reader -/

section

variable {fuel depth : Nat} {text behind next rest : List Char} {item value : Value} {key : CodeText}

theorem readValue_items (begins : Begins text) :
    readValue (fuel + 1) ('[' :: (newline depth ++ text)) =
      (readItems fuel text).map fun (items, rest) => (.list items, rest) := by
  rw [readValue, skipSpace_newline, skipSpace_of_begins begins]
  split
  next => exact absurd rfl (begins _ rfl).2.1
  next => rfl

theorem readValue_entries (begins : Begins text) :
    readValue (fuel + 1) ('\x7b' :: (newline depth ++ text)) =
      (readEntries fuel text).map fun (entries, rest) => (.object (Entries.update [] entries), rest) := by
  rw [readValue, skipSpace_newline, skipSpace_of_begins begins]
  split
  next => exact absurd rfl (begins _ rfl).2.2
  next => rfl

theorem readItems_next (read : readValue fuel text = .ok (item, ',' :: (newline depth ++ next)))
    (begins : Begins next) :
    readItems (fuel + 1) text = (readItems fuel next).map fun (items, rest) => (item :: items, rest) := by
  have comma : skipSpace (',' :: (newline depth ++ next)) = ',' :: (newline depth ++ next) := rfl
  rw [readItems, read]
  simp only [bind, Except.bind, comma, skipSpace_newline, skipSpace_of_begins begins]
  cases readItems fuel next <;> rfl

theorem readItems_last (read : readValue fuel text = .ok (item, newline depth ++ ']' :: rest)) :
    readItems (fuel + 1) text = .ok ([item], rest) := by
  have bracket : skipSpace (newline depth ++ ']' :: rest) = ']' :: rest := skipSpace_newline depth _
  rw [readItems, read]
  simp only [bind, Except.bind, bracket]
  rfl

theorem readItems_cut (read : readValue fuel text = .ok (item, [])) :
    readItems (fuel + 1) text = .error .malformed := by
  rw [readItems, read]
  rfl

theorem readItems_malformed (read : readValue fuel text = .error .malformed) :
    readItems (fuel + 1) text = .error .malformed := by
  rw [readItems, read]
  rfl

theorem readKey_written (begins : Begins text) :
    readKey (writeText key ++ ':' :: ' ' :: text) = .ok (key.joined, text) := by
  have colon : skipSpace (':' :: ' ' :: text) = ':' :: ' ' :: text := rfl
  have blank : skipSpace (' ' :: text) = skipSpace text := rfl
  simp [writeText, readKey, readText_written, CodeText.joined, colon, blank, skipSpace_of_begins begins]

theorem readEntries_next (head : readKey text = .ok (key, behind))
    (read : readValue fuel behind = .ok (value, ',' :: (newline depth ++ next))) (begins : Begins next) :
    readEntries (fuel + 1) text =
      (readEntries fuel next).map fun (entries, rest) => ((key, value) :: entries, rest) := by
  have comma : skipSpace (',' :: (newline depth ++ next)) = ',' :: (newline depth ++ next) := rfl
  rw [readEntries, head]
  simp only [bind, Except.bind, read, comma, skipSpace_newline, skipSpace_of_begins begins]
  cases readEntries fuel next <;> rfl

theorem readEntries_last (head : readKey text = .ok (key, behind))
    (read : readValue fuel behind = .ok (value, newline depth ++ '\x7d' :: rest)) :
    readEntries (fuel + 1) text = .ok ([(key, value)], rest) := by
  have brace : skipSpace (newline depth ++ '\x7d' :: rest) = '\x7d' :: rest := skipSpace_newline depth _
  rw [readEntries, head]
  simp only [bind, Except.bind, read, brace]
  rfl

theorem readEntries_malformed (head : readKey text = .ok (key, behind))
    (read : readValue fuel behind = .error .malformed) :
    readEntries (fuel + 1) text = .error .malformed := by
  rw [readEntries, head]
  simp only [bind, Except.bind, read]

end

/-- An integer of too many digits stops the reader inside an object. -/
theorem ofText_entry_tooLong (key : CodeText) {digits : List Char} (whole : IsWhole digits)
    (long : Text.digitLimit < digits.length) :
    ofText ('\x7b' :: (writeText key ++ ':' :: ' ' :: (digits ++ ['\x7d']))) =
      .error (.tooLong digits.length) := by
  have ends : EndsNumeral ['\x7d'] := by simp [EndsNumeral]
  have begins : Begins (digits ++ ['\x7d']) := (starts_number (.digits whole) false).before rfl _
  have entries : ∀ fuel, readEntries (fuel + 2) (writeText key ++ ':' :: ' ' :: (digits ++ ['\x7d'])) =
      .error (.tooLong digits.length) := by
    intro fuel
    rw [readEntries, readKey_written begins]
    simp only [bind, Except.bind, readValue_tooLong whole long fuel ends]
  -- The text of a key starts with a quote.
  obtain ⟨more, text⟩ : ∃ more, writeText key ++ ':' :: ' ' :: (digits ++ ['\x7d']) = '"' :: more := ⟨_, rfl⟩
  rw [text] at entries ⊢
  have object : ∀ fuel, readValue (fuel + 3) ('\x7b' :: '"' :: more) = .error (.tooLong digits.length) := by
    intro fuel
    rw [readValue]
    show Except.map _ (readEntries (fuel + 2) ('"' :: more)) = _
    rw [entries]
    rfl
  have space : skipSpace ('\x7b' :: '"' :: more) = '\x7b' :: '"' :: more := rfl
  have depth : 2 * ('\x7b' :: '"' :: more).length + 1 = 2 * more.length + 2 + 3 := rfl
  rw [ofText, space, depth, object]
  rfl

end Value

end Reckoner
