import Reckoner.Proofs.Value.Reading

/-!
# Reading what was written

The text of a value that is written whole is read back as the reader joins it, which is the value itself if it is
storable. What a value that stops the writer leaves behind is malformed. Both hold at every depth and of every
part, so they are stated with the text that follows.

Main results: `ofText_written`, `ofText_storable`, `ofText_stuck`.
-/

namespace Reckoner

namespace Value

/-! ### Values that are read back -/

/-- The value is written whole, and its text is read back whatever follows it. -/
structure Restored (value : Value) : Prop where
  whole : ∀ depth, (value.write depth).fault = none
  read : ∀ {depth fuel : Nat} {rest : List Char}, EndsNumeral rest → (value.write depth).text.length < fuel →
    readValue fuel ((value.write depth).text ++ rest) = .ok (value.reread, rest)

/-- Writing the value stops, and what was written of it cannot be read. -/
structure Lost (fault : WriteFault) (value : Value) : Prop where
  stopped : ∀ depth, (value.write depth).fault = some fault
  read : ∀ {depth fuel : Nat}, (value.write depth).text.length < fuel →
    readValue fuel (value.write depth).text = .error .malformed

theorem endsNumeral_comma (rest : List Char) : EndsNumeral (',' :: rest) := by simp [EndsNumeral]

theorem endsNumeral_newline (depth : Nat) (rest : List Char) : EndsNumeral (newline depth ++ rest) := by
  simp [EndsNumeral, newline]

theorem length_newline (depth : Nat) : (newline depth).length = 4 * depth + 1 := by simp [newline]

section

variable {fault : WriteFault} {depth closing fuel : Nat} {item value : Value} {items : List Value}
  {key : CodeText} {entries : Entries CodeText Value} {rest : List Char}

/-! #### Lists -/

theorem writeItems_whole (all : ∀ item ∈ items, Restored item) (depth : Nat) :
    (writeItems depth items).fault = none := by
  induction items with
  | nil => rfl
  | cons item items ih =>
    rw [writeItems_of_whole ((all item List.mem_cons_self).whole depth)]
    exact ih fun other member => all other (List.mem_cons_of_mem item member)

/-- The items are read one after another. Each step takes one unit of depth, and from the text more than one
character: the item and what separates it from the next one. -/
theorem readItems_written (first : Restored item) (others : ∀ other ∈ items, Restored other)
    (enough : ((item.write depth).text ++ (writeItems depth items).text).length + 1 < fuel) :
    readItems fuel
        ((item.write depth).text ++ ((writeItems depth items).text ++ (newline closing ++ ']' :: rest))) =
      .ok ((item :: items).map reread, rest) := by
  induction items generalizing item fuel with
  | nil =>
    cases fuel with
    | zero => exact absurd enough (Nat.not_lt_zero _)
    | succ fuel =>
      rw [List.length_append] at enough
      exact readItems_last (first.read (endsNumeral_newline closing _) (by omega))
  | cons next items ih =>
    cases fuel with
    | zero => exact absurd enough (Nat.not_lt_zero _)
    | succ fuel =>
      obtain ⟨second, others⟩ := List.forall_mem_cons.mp others
      -- The comma that is written before the next item ends the text of this one.
      rw [writeItems_of_whole (second.whole depth)] at enough ⊢
      simp only [List.length_append, List.length_cons, length_newline] at enough
      simp only [List.cons_append, List.append_assoc]
      rw [readItems_next (first.read (endsNumeral_comma _) (by omega))
        ((starts_write depth next).before (second.whole depth) _),
        ih second others (by rw [List.length_append]; omega)]
      rfl

theorem writeItems_stopped (lost : Lost fault value) (written : ∀ item ∈ items, Restored item) (depth : Nat)
    (after : List Value) : (writeItems depth (items ++ value :: after)).fault = some fault := by
  induction items with
  | nil =>
    rcases writeItems_of_stopped (lost.stopped depth) after with same | same
    all_goals exact congrArg Draft.fault same
  | cons item items ih =>
    obtain ⟨first, written⟩ := List.forall_mem_cons.mp written
    rw [List.cons_append, writeItems_of_whole (first.whole depth)]
    exact ih written

/-- Reading comes past the items that were written, and then to a cut or to the item that stopped the writing. -/
theorem readItems_stuck (first : Restored item) (written : ∀ other ∈ items, Restored other)
    (lost : Lost fault value) (after : List Value)
    (enough : ((item.write depth).text ++ (writeItems depth (items ++ value :: after)).text).length + 1 < fuel) :
    readItems fuel ((item.write depth).text ++ (writeItems depth (items ++ value :: after)).text) =
      .error .malformed := by
  induction items generalizing item fuel with
  | nil =>
    cases fuel with
    | zero => exact absurd enough (Nat.not_lt_zero _)
    | succ fuel =>
      rw [List.nil_append] at enough ⊢
      rcases writeItems_of_stopped (lost.stopped depth) after with same | same
      · -- Not even the comma was written, so the list ends behind an item.
        rw [same] at enough ⊢
        exact readItems_cut (first.read endsNumeral_nil (by rw [List.length_append] at enough; omega))
      · rw [same] at enough ⊢
        simp only [List.length_append, List.length_cons, length_newline] at enough
        rw [readItems_next (first.read (endsNumeral_comma _) (by omega)) (starts_write depth value).begins]
        cases fuel with
        | zero => omega
        | succ fuel =>
          rw [readItems_malformed (lost.read (by omega))]
          rfl
  | cons next items ih =>
    cases fuel with
    | zero => exact absurd enough (Nat.not_lt_zero _)
    | succ fuel =>
      obtain ⟨second, written⟩ := List.forall_mem_cons.mp written
      rw [List.cons_append, writeItems_of_whole (second.whole depth)] at enough ⊢
      simp only [List.length_append, List.length_cons, length_newline] at enough
      rw [readItems_next (first.read (endsNumeral_comma _) (by omega))
        ((starts_write depth next).before (second.whole depth) _),
        ih second written (by rw [List.length_append]; omega)]
      rfl

theorem Restored.list (all : ∀ item ∈ items, Restored item) : Restored (.list items) := by
  cases items with
  | nil =>
    refine ⟨fun depth => rfl, fun {depth fuel rest} _ enough => ?_⟩
    cases fuel with
    | zero => exact absurd enough (Nat.not_lt_zero _)
    | succ fuel =>
      rw [reread]
      rfl
  | cons item items =>
    obtain ⟨first, others⟩ := List.forall_mem_cons.mp all
    have text : ∀ depth, write depth (.list (item :: items)) = .ofChars ('[' :: (newline (depth + 1) ++
        ((item.write (depth + 1)).text ++ ((writeItems (depth + 1) items).text ++ (newline depth ++ [']']))))) := by
      intro depth
      rw [write_list_of_whole (first.whole (depth + 1)), writeItems_whole others]
      simp [Draft.ofChars]
    refine ⟨fun depth => by rw [text]; rfl, fun {depth fuel rest} _ enough => ?_⟩
    rw [text] at enough ⊢
    simp only [Draft.ofChars, List.length_append, List.length_cons, length_newline] at enough
    cases fuel with
    | zero => omega
    | succ fuel =>
      simp only [Draft.ofChars, List.cons_append, List.append_assoc, List.nil_append]
      rw [readValue_items ((starts_write (depth + 1) item).before (first.whole (depth + 1)) _),
        readItems_written first others (by rw [List.length_append]; omega), reread]
      rfl

theorem readValue_nil (fuel : Nat) : readValue fuel [] = .error .malformed := by
  cases fuel <;> rfl

theorem Lost.list (written : ∀ item ∈ items, Restored item) (lost : Lost fault value) (after : List Value) :
    Lost fault (.list (items ++ value :: after)) := by
  cases items with
  | nil =>
    refine ⟨fun depth => ?_, fun {depth fuel} enough => ?_⟩
    · rcases write_list_of_stopped (lost.stopped (depth + 1)) after with same | same
      all_goals exact congrArg Draft.fault same
    · rcases write_list_of_stopped (lost.stopped (depth + 1)) after with same | same
      · -- Not even the bracket was written.
        rw [List.nil_append, same]
        exact readValue_nil fuel
      · rw [List.nil_append, same] at enough ⊢
        simp only [List.length_append, List.length_cons, length_newline] at enough
        rcases fuel with _ | _ | fuel
        · omega
        · omega
        · rw [readValue_items (starts_write (depth + 1) value).begins, readItems_malformed (lost.read (by omega))]
          rfl
  | cons item items =>
    obtain ⟨first, written⟩ := List.forall_mem_cons.mp written
    have text : ∀ depth, write depth (.list (item :: items ++ value :: after)) =
        ⟨'[' :: (newline (depth + 1) ++ ((item.write (depth + 1)).text ++
          (writeItems (depth + 1) (items ++ value :: after)).text)), some fault⟩ := by
      intro depth
      rw [List.cons_append, write_list_of_whole (first.whole (depth + 1)), writeItems_stopped lost written]
      rfl
    refine ⟨fun depth => by rw [text], fun {depth fuel} enough => ?_⟩
    rw [text] at enough ⊢
    simp only [List.length_append, List.length_cons, length_newline] at enough
    cases fuel with
    | zero => omega
    | succ fuel =>
      rw [readValue_items ((starts_write (depth + 1) item).before (first.whole (depth + 1)) _),
        readItems_stuck first written lost after (by rw [List.length_append]; omega)]
      rfl

/-! #### Objects -/

theorem readKey_entry (key : CodeText) {more : List Char} (begins : Begins ((value.write depth).text ++ more)) :
    readKey (entryText depth key value ++ more) = .ok (key.joined, (value.write depth).text ++ more) := by
  simpa [entryText] using @readKey_written _ key begins

theorem readKey_entryText (depth : Nat) (key : CodeText) (value : Value) :
    readKey (entryText depth key value) = .ok (key.joined, (value.write depth).text) :=
  readKey_written (starts_write depth value).begins

theorem begins_entryText (depth : Nat) (key : CodeText) (value : Value) : Begins (entryText depth key value) :=
  begins_cons rfl (by decide) (by decide) _

theorem begins_entry (depth : Nat) (key : CodeText) (value : Value) (more : List Char) :
    Begins (entryText depth key value ++ more) :=
  begins_cons rfl (by decide) (by decide) _

theorem writeEntries_whole (all : ∀ entry ∈ entries, Restored entry.2) (depth : Nat) :
    (writeEntries depth entries).fault = none := by
  induction entries with
  | nil => rfl
  | cons entry entries ih =>
    rw [writeEntries_of_whole entry.1 ((all entry List.mem_cons_self).whole depth)]
    exact ih fun other member => all other (List.mem_cons_of_mem entry member)

theorem readEntries_written (first : Restored value) (others : ∀ other ∈ entries, Restored other.2)
    (enough : (entryText depth key value ++ (writeEntries depth entries).text).length + 1 < fuel) :
    readEntries fuel
        (entryText depth key value ++ ((writeEntries depth entries).text ++ (newline closing ++ '\x7d' :: rest))) =
      .ok (((key, value) :: entries).map fun entry => (entry.1.joined, entry.2.reread), rest) := by
  induction entries generalizing key value fuel with
  | nil =>
    cases fuel with
    | zero => exact absurd enough (Nat.not_lt_zero _)
    | succ fuel =>
      simp only [entryText, List.length_append, List.length_cons] at enough
      exact readEntries_last (readKey_entry key ((starts_write depth value).before (first.whole depth) _))
        (first.read (endsNumeral_newline closing _) (by omega))
  | cons next entries ih =>
    cases fuel with
    | zero => exact absurd enough (Nat.not_lt_zero _)
    | succ fuel =>
      obtain ⟨second, others⟩ := List.forall_mem_cons.mp others
      rw [writeEntries_of_whole next.1 (second.whole depth)] at enough ⊢
      simp only [List.length_append, List.length_cons, length_newline] at enough
      simp only [List.cons_append, List.append_assoc]
      rw [readEntries_next (readKey_entry key ((starts_write depth value).before (first.whole depth) _))
        (first.read (endsNumeral_comma _) ?_) (begins_entry depth next.1 next.2 _)]
      · rw [ih second others (by rw [List.length_append]; omega)]
        rfl
      · simp only [entryText, List.length_append, List.length_cons] at enough
        omega

theorem writeEntries_stopped (lost : Lost fault value) (written : ∀ entry ∈ entries, Restored entry.2)
    (depth : Nat) (after : Entries CodeText Value) :
    (writeEntries depth (entries ++ (key, value) :: after)).fault = some fault := by
  induction entries with
  | nil => exact congrArg Draft.fault (writeEntries_of_stopped key (lost.stopped depth) after)
  | cons entry entries ih =>
    obtain ⟨first, written⟩ := List.forall_mem_cons.mp written
    rw [List.cons_append, writeEntries_of_whole entry.1 (first.whole depth)]
    exact ih written

theorem readEntries_stuck {front : CodeText} {head : Value} (first : Restored head)
    (written : ∀ entry ∈ entries, Restored entry.2) (lost : Lost fault value) (after : Entries CodeText Value)
    (enough : (entryText depth front head ++
      (writeEntries depth (entries ++ (key, value) :: after)).text).length + 1 < fuel) :
    readEntries fuel
        (entryText depth front head ++ (writeEntries depth (entries ++ (key, value) :: after)).text) =
      .error .malformed := by
  induction entries generalizing front head fuel with
  | nil =>
    rw [List.nil_append, writeEntries_of_stopped key (lost.stopped depth)] at enough ⊢
    simp only [entryText, List.length_append, List.length_cons, length_newline] at enough
    rcases fuel with _ | _ | fuel
    · omega
    · omega
    · rw [readEntries_next (readKey_entry front ((starts_write depth head).before (first.whole depth) _))
        (first.read (endsNumeral_comma _) (by omega)) (begins_entryText depth key value),
        readEntries_malformed (readKey_entryText _ key value) (lost.read (by omega))]
      rfl
  | cons next entries ih =>
    cases fuel with
    | zero => exact absurd enough (Nat.not_lt_zero _)
    | succ fuel =>
      obtain ⟨second, written⟩ := List.forall_mem_cons.mp written
      rw [List.cons_append, writeEntries_of_whole next.1 (second.whole depth)] at enough ⊢
      simp only [List.length_append, List.length_cons, length_newline] at enough
      rw [readEntries_next (readKey_entry front ((starts_write depth head).before (first.whole depth) _))
        (first.read (endsNumeral_comma _) ?_) (begins_entry depth next.1 next.2 _)]
      · rw [ih second written (by rw [List.length_append]; omega)]
        rfl
      · simp only [entryText, List.length_append, List.length_cons] at enough
        omega

theorem Restored.object (all : ∀ entry ∈ entries, Restored entry.2) :
    Restored (.object entries) := by
  cases entries with
  | nil =>
    refine ⟨fun depth => rfl, fun {depth fuel rest} _ enough => ?_⟩
    cases fuel with
    | zero => exact absurd enough (Nat.not_lt_zero _)
    | succ fuel =>
      rw [reread]
      rfl
  | cons entry entries =>
    obtain ⟨first, others⟩ := List.forall_mem_cons.mp all
    have text : ∀ depth, write depth (.object (entry :: entries)) =
        .ofChars ('\x7b' :: (newline (depth + 1) ++ (entryText (depth + 1) entry.1 entry.2 ++
          ((writeEntries (depth + 1) entries).text ++ (newline depth ++ ['\x7d']))))) := by
      intro depth
      rw [write_object_of_whole entry.1 (first.whole (depth + 1)), writeEntries_whole others]
      simp [Draft.ofChars]
    refine ⟨fun depth => by rw [text]; rfl, fun {depth fuel rest} _ enough => ?_⟩
    rw [text] at enough ⊢
    simp only [Draft.ofChars, List.length_append, List.length_cons, length_newline] at enough
    cases fuel with
    | zero => omega
    | succ fuel =>
      simp only [Draft.ofChars, List.cons_append, List.append_assoc, List.nil_append]
      rw [readValue_entries (begins_entry (depth + 1) entry.1 entry.2 _),
        readEntries_written first others (by rw [List.length_append]; omega), reread]
      rfl

theorem Lost.object (written : ∀ entry ∈ entries, Restored entry.2) (lost : Lost fault value)
    (after : Entries CodeText Value) : Lost fault (.object (entries ++ (key, value) :: after)) := by
  cases entries with
  | nil =>
    have text : ∀ depth, write depth (.object ([] ++ (key, value) :: after)) =
        ⟨'\x7b' :: (newline (depth + 1) ++ entryText (depth + 1) key value), some fault⟩ :=
      fun depth => write_object_of_stopped key (lost.stopped (depth + 1)) after
    refine ⟨fun depth => by rw [text], fun {depth fuel} enough => ?_⟩
    rw [text] at enough ⊢
    simp only [entryText, List.length_append, List.length_cons, length_newline] at enough
    rcases fuel with _ | _ | fuel
    · omega
    · omega
    · rw [readValue_entries (begins_entryText (depth + 1) key value),
        readEntries_malformed (readKey_entryText _ key value) (lost.read (by omega))]
      rfl
  | cons entry entries =>
    obtain ⟨first, written⟩ := List.forall_mem_cons.mp written
    have text : ∀ depth, write depth (.object (entry :: entries ++ (key, value) :: after)) =
        ⟨'\x7b' :: (newline (depth + 1) ++ (entryText (depth + 1) entry.1 entry.2 ++
          (writeEntries (depth + 1) (entries ++ (key, value) :: after)).text)), some fault⟩ := by
      intro depth
      rw [List.cons_append, write_object_of_whole entry.1 (first.whole (depth + 1)),
        writeEntries_stopped lost written]
      rfl
    refine ⟨fun depth => by rw [text], fun {depth fuel} enough => ?_⟩
    rw [text] at enough ⊢
    simp only [List.length_append, List.length_cons, length_newline] at enough
    cases fuel with
    | zero => omega
    | succ fuel =>
      rw [readValue_entries (begins_entry (depth + 1) entry.1 entry.2 _),
        readEntries_stuck first written lost after (by rw [List.length_append]; omega)]
      rfl

end

/-! ### Storable and stuck values -/

theorem Restored.atom {value back : Value} {text : List Char} (same : value.reread = back)
    (written : ∀ depth, value.write depth = .ofChars text)
    (read : ∀ {fuel : Nat} {rest : List Char}, EndsNumeral rest →
      readValue (fuel + 1) (text ++ rest) = .ok (back, rest)) : Restored value where
  whole depth := by rw [written]; rfl
  read {depth fuel rest} ends enough := by
    cases fuel with
    | zero => exact absurd enough (Nat.not_lt_zero _)
    | succ fuel =>
      rw [written, same]
      exact read ends

theorem Written.restored {value : Value} (written : Written value) : Restored value := by
  induction written with
  | null => exact .atom Storable.null.reread_eq (fun _ => rfl) fun _ => rfl
  | bool b => cases b <;> exact .atom (Storable.bool _).reread_eq (fun _ => rfl) fun _ => rfl
  | @integer n short =>
    have text : ∀ depth, write depth (.integer n) = .ofChars (writeInteger n) := by
      intro depth
      rw [write, if_neg (by simpa [isTooLong] using short)]
    exact .atom (Storable.integer short).reread_eq text (readValue_integer short _)
  | double x => exact .atom (Storable.double x).reread_eq (fun _ => rfl) (readValue_double x _)
  | text s => exact .atom (by rw [reread]) (fun _ => rfl) fun _ => readValue_text _ s _
  | list all ih => exact .list ih
  | object all ih => exact .object ih

theorem Stuck.lost {fault : WriteFault} {value : Value} (stuck : Stuck fault value) : Lost fault value := by
  induction stuck with
  | unwritable known => exact ⟨fun _ => congrArg some known.symm, fun _ => readValue_nil _⟩
  | @integer n long known =>
    have written : ∀ depth, write depth (.integer n) = .stopped fault := by
      intro depth
      rw [write, if_pos (by simpa [isTooLong] using long), known]
    refine ⟨fun depth => by rw [written]; rfl, fun {depth fuel} _ => ?_⟩
    rw [written]
    exact readValue_nil fuel
  | list after written stuck ih => exact .list (fun item member => (written item member).restored) ih after
  | object after written stuck ih => exact .object (fun entry member => (written entry member).restored) ih after

theorem skipSpace_draft (value : Value) : skipSpace value.draft.text = value.draft.text :=
  skipSpace_of_begins (starts_write 0 value).begins

/-- The depth with which a whole text is read is enough. -/
theorem length_draft_lt (value : Value) : (value.write 0).text.length < 2 * value.draft.text.length + 1 := by
  rw [draft]
  omega

/-- A value that nothing stops the writer in is written whole, and its text is read back. -/
theorem ofText_written {value : Value} (written : Written value) :
    value.draft.fault = none ∧ ofText value.draft.text = .ok value.reread := by
  have restored := written.restored
  have read : readValue (2 * value.draft.text.length + 1) value.draft.text = .ok (value.reread, []) := by
    have read := restored.read endsNumeral_nil (length_draft_lt value)
    rwa [List.append_nil] at read
  refine ⟨restored.whole 0, ?_⟩
  rw [ofText, skipSpace_draft, read]
  rfl

/-- A storable value is written whole, and its text is read as the value. -/
theorem ofText_storable {value : Value} (storable : Storable value) :
    value.draft.fault = none ∧ ofText value.draft.text = .ok value := by
  have back := ofText_written storable.written
  rwa [storable.reread_eq] at back

/-- What is left of a value that stops the writer cannot be read. -/
theorem ofText_stuck {fault : WriteFault} {value : Value} (stuck : Stuck fault value) :
    value.draft.fault = some fault ∧ ofText value.draft.text = .error .malformed := by
  have lost := stuck.lost
  have read : readValue (2 * value.draft.text.length + 1) value.draft.text = .error .malformed :=
    lost.read (length_draft_lt value)
  refine ⟨lost.stopped 0, ?_⟩
  rw [ofText, skipSpace_draft, read]
  rfl

end Value

end Reckoner
