import Reckoner.Proofs.Decimal.Written
import Reckoner.Proofs.Entries
import Reckoner.Proofs.Value.Pairs
import Reckoner.Value.Writer

/-!
# Values that can be stored

A value is written whole if nothing in it stops the writer, else there is a first part of it that does. What is
read back of a whole value is the value itself if it is storable: if its keys are distinct and its texts
unpaired at every depth.

Main results: `written_or_stuck`, `Storable.reread_eq`.
-/

namespace Reckoner

namespace Value

/-- A value that nothing stops the writer in. -/
inductive Written : Value → Prop
  | null : Written null
  | bool (b : Bool) : Written (bool b)
  | integer {n : Int} (short : digitCount n.natAbs ≤ Text.digitLimit) : Written (integer n)
  | double (x : Binary64) : Written (double x)
  | text (s : CodeText) : Written (text s)
  | list {items : List Value} (all : ∀ item ∈ items, Written item) : Written (list items)
  | object {entries : Entries CodeText Value} (all : ∀ entry ∈ entries, Written entry.2) :
    Written (object entries)

/-- A value that is written whole and read back as it was. -/
inductive Storable : Value → Prop
  | null : Storable null
  | bool (b : Bool) : Storable (bool b)
  | integer {n : Int} (short : digitCount n.natAbs ≤ Text.digitLimit) : Storable (integer n)
  | double (x : Binary64) : Storable (double x)
  | text {s : CodeText} (unpaired : s.Unpaired) : Storable (text s)
  | list {items : List Value} (all : ∀ item ∈ items, Storable item) : Storable (list items)
  | object {entries : Entries CodeText Value} (distinct : entries.Distinct)
    (unpaired : ∀ entry ∈ entries, entry.1.Unpaired) (all : ∀ entry ∈ entries, Storable entry.2) :
    Storable (object entries)

theorem Storable.distinct {entries : Entries CodeText Value} (storable : Storable (.object entries)) :
    entries.Distinct := by
  cases storable with
  | object distinct unpaired all => exact distinct

theorem Storable.written {value : Value} (storable : Storable value) : Written value := by
  induction storable with
  | null => exact .null
  | bool b => exact .bool b
  | integer short => exact .integer short
  | double x => exact .double x
  | text unpaired => exact .text _
  | list all ih => exact .list ih
  | object distinct unpaired all ih => exact .object ih

/-- A value whose writing stops inside it, behind parts that were written. -/
inductive Stuck (fault : WriteFault) : Value → Prop
  | unwritable (known : fault = .unwritable) : Stuck fault unwritable
  | integer {n : Int} (long : Text.digitLimit < digitCount n.natAbs)
    (known : fault = .tooLong (digitCount n.natAbs)) : Stuck fault (integer n)
  | list {before : List Value} {item : Value} (after : List Value)
    (written : ∀ item ∈ before, Written item) (stuck : Stuck fault item) :
    Stuck fault (list (before ++ item :: after))
  | object {before : Entries CodeText Value} {key : CodeText} {value : Value} (after : Entries CodeText Value)
    (written : ∀ entry ∈ before, Written entry.2) (stuck : Stuck fault value) :
    Stuck fault (object (before ++ (key, value) :: after))

/-- Of things that all go one way or the other, all go the one way or there is a first that does not. -/
theorem all_or_first {α : Type} {Good Bad : α → Prop} {row : List α} (each : ∀ x ∈ row, Good x ∨ Bad x) :
    (∀ x ∈ row, Good x) ∨ ∃ before x after, row = before ++ x :: after ∧ (∀ y ∈ before, Good y) ∧ Bad x := by
  induction row with
  | nil => exact .inl fun _ member => nomatch member
  | cons x row ih =>
    rcases each x List.mem_cons_self with good | bad
    · rcases ih fun y member => each y (List.mem_cons_of_mem x member) with all | ⟨before, y, after, rfl, goods, bad⟩
      · exact .inl (List.forall_mem_cons.mpr ⟨good, all⟩)
      · exact .inr ⟨x :: before, y, after, rfl, List.forall_mem_cons.mpr ⟨good, goods⟩, bad⟩
    · exact .inr ⟨[], x, row, rfl, by simp, bad⟩

/-- The value of an entry is smaller than the entries, so a value may be taken apart by recursion. -/
theorem sizeOf_entry_lt {entries : Entries CodeText Value} {entry : CodeText × Value} (member : entry ∈ entries) :
    sizeOf entry.2 < sizeOf entries := by
  have inside := List.sizeOf_lt_of_mem member
  have part : sizeOf entry = 1 + sizeOf entry.1 + sizeOf entry.2 := rfl
  omega

/-- Writing goes through, or there is a part that stops it. -/
theorem written_or_stuck (value : Value) : Written value ∨ ∃ fault, Stuck fault value := by
  cases value with
  | null => exact .inl .null
  | bool b => exact .inl (.bool b)
  | integer n =>
    by_cases short : digitCount n.natAbs ≤ Text.digitLimit
    · exact .inl (.integer short)
    · exact .inr ⟨_, .integer (Nat.lt_of_not_le short) rfl⟩
  | double x => exact .inl (.double x)
  | text s => exact .inl (.text s)
  | list items =>
    rcases all_or_first fun item (member : item ∈ items) => written_or_stuck item with
      all | ⟨before, item, after, rfl, written, fault, stuck⟩
    · exact .inl (.list all)
    · exact .inr ⟨fault, .list after written stuck⟩
  | object entries =>
    rcases all_or_first fun entry (member : entry ∈ entries) => written_or_stuck entry.2 with
      all | ⟨before, entry, after, rfl, written, fault, stuck⟩
    · exact .inl (.object all)
    · exact .inr ⟨fault, .object after written stuck⟩
  | unwritable => exact .inr ⟨_, .unwritable rfl⟩
termination_by sizeOf value
decreasing_by
  all_goals subst value
  all_goals simp_wf
  · have := List.sizeOf_lt_of_mem member
    omega
  · have := sizeOf_entry_lt member
    omega

/-! ### What is read back -/

/-- The value that is read back when it was written whole: the texts are joined, and of entries whose keys are
joined to the same key, the last one is kept. -/
def reread : Value → Value
  | text s => text s.joined
  | list items => list (items.map reread)
  | object entries => object (Entries.update [] (entries.map fun entry => (entry.1.joined, entry.2.reread)))
  | value => value
decreasing_by
  · have := List.sizeOf_lt_of_mem ‹_›
    simp_wf
    omega
  · have := sizeOf_entry_lt ‹_›
    simp_wf
    omega

/-- A storable value is read back as it was. -/
theorem Storable.reread_eq {value : Value} (storable : Storable value) : value.reread = value := by
  induction storable with
  | null => rw [reread] <;> exact nofun
  | bool b => rw [reread] <;> exact nofun
  | integer short => rw [reread] <;> exact nofun
  | double x => rw [reread] <;> exact nofun
  | text unpaired => rw [reread, unpaired.joined_eq]
  | list all ih => rw [reread, List.map_congr_left ih, List.map_id']
  | @object entries distinct unpaired all ih =>
    have same : ∀ entry ∈ entries, (entry.1.joined, entry.2.reread) = entry :=
      fun entry member => Prod.ext (unpaired entry member).joined_eq (ih entry member)
    rw [reread, List.map_congr_left same, List.map_id', Entries.update_nil distinct]

end Value

/-! ### Drafts -/

namespace Draft

/-- Behind a draft that is whole, writing goes on. -/
@[simp] theorem whole_append (text : List Char) (second : Draft) :
    (⟨text, none⟩ : Draft) ++ second = ⟨text ++ second.text, second.fault⟩ := rfl

@[simp] theorem ofChars_append (text : List Char) (second : Draft) :
    ofChars text ++ second = ⟨text ++ second.text, second.fault⟩ := rfl

/-- Behind a draft that has stopped, nothing is written. -/
@[simp] theorem stopped_append (text : List Char) (fault : Value.WriteFault) (second : Draft) :
    (⟨text, some fault⟩ : Draft) ++ second = ⟨text, some fault⟩ := rfl

end Draft

/-! ### What is written -/

namespace Value

section

variable {depth : Nat} {value : Value} {lead : List Char} {fault : WriteFault}

/-- An integer of too many digits is not written at all. -/
theorem write_of_isTooLong (long : value.isTooLong = true) (depth : Nat) :
    ∃ fault, value.write depth = .stopped fault := by
  cases value with
  | integer n => exact ⟨_, by rw [write, if_pos long]⟩
  | _ => cases long

theorem writeBehind_of_whole (whole : (value.write depth).fault = none) :
    writeBehind lead value (value.write depth) = ⟨lead ++ (value.write depth).text, none⟩ := by
  have short : ¬ value.isTooLong = true := by
    intro long
    obtain ⟨fault, stopped⟩ := write_of_isTooLong long depth
    rw [stopped] at whole
    cases whole
  rw [writeBehind, if_neg short, Draft.ofChars_append, whole]

/-- A value that stops the writing takes the text in front of it along if it is an integer itself. -/
theorem writeBehind_of_stopped (stopped : (value.write depth).fault = some fault) :
    writeBehind lead value (value.write depth) = ⟨[], some fault⟩ ∨
      writeBehind lead value (value.write depth) = ⟨lead ++ (value.write depth).text, some fault⟩ := by
  rw [writeBehind]
  split
  next long =>
    obtain ⟨other, same⟩ := write_of_isTooLong long depth
    rw [same] at stopped ⊢
    cases stopped
    exact .inl rfl
  next => exact .inr (by rw [Draft.ofChars_append, stopped])

theorem writeItems_of_whole (whole : (value.write depth).fault = none) (rest : List Value) :
    writeItems depth (value :: rest) =
      ⟨',' :: (newline depth ++ ((value.write depth).text ++ (writeItems depth rest).text)),
        (writeItems depth rest).fault⟩ := by
  simp [writeItems, writeBehind_of_whole whole]

theorem writeItems_of_stopped (stopped : (value.write depth).fault = some fault) (rest : List Value) :
    writeItems depth (value :: rest) = ⟨[], some fault⟩ ∨
      writeItems depth (value :: rest) = ⟨',' :: (newline depth ++ (value.write depth).text), some fault⟩ := by
  rw [writeItems]
  rcases writeBehind_of_stopped stopped with same | same
  · exact .inl (by rw [same, Draft.stopped_append])
  · exact .inr (by rw [same, Draft.stopped_append, List.cons_append])

theorem write_list_of_whole (whole : (value.write (depth + 1)).fault = none) (rest : List Value) :
    write depth (list (value :: rest)) =
      ⟨'[' :: (newline (depth + 1) ++ ((value.write (depth + 1)).text ++ (writeItems (depth + 1) rest).text)),
        (writeItems (depth + 1) rest).fault⟩ ++ Draft.ofChars (newline depth ++ [']']) := by
  simp [write, writeBehind_of_whole whole]

theorem write_list_of_stopped (stopped : (value.write (depth + 1)).fault = some fault) (rest : List Value) :
    write depth (list (value :: rest)) = ⟨[], some fault⟩ ∨
      write depth (list (value :: rest)) =
        ⟨'[' :: (newline (depth + 1) ++ (value.write (depth + 1)).text), some fault⟩ := by
  rw [write]
  rcases writeBehind_of_stopped stopped with same | same
  · exact .inl (by rw [same, Draft.stopped_append, Draft.stopped_append])
  · exact .inr (by rw [same, Draft.stopped_append, Draft.stopped_append, List.cons_append])

/-- The text of an entry. -/
def entryText (depth : Nat) (key : CodeText) (value : Value) : List Char :=
  writeText key ++ ':' :: ' ' :: (value.write depth).text

theorem writeEntries_of_whole (key : CodeText) (whole : (value.write depth).fault = none)
    (rest : Entries CodeText Value) :
    writeEntries depth ((key, value) :: rest) =
      ⟨',' :: (newline depth ++ (entryText depth key value ++ (writeEntries depth rest).text)),
        (writeEntries depth rest).fault⟩ := by
  simp [writeEntries, entryText, whole]

theorem writeEntries_of_stopped (key : CodeText) (stopped : (value.write depth).fault = some fault)
    (rest : Entries CodeText Value) :
    writeEntries depth ((key, value) :: rest) =
      ⟨',' :: (newline depth ++ entryText depth key value), some fault⟩ := by
  simp [writeEntries, entryText, stopped]

theorem write_object_of_whole (key : CodeText) (whole : (value.write (depth + 1)).fault = none)
    (rest : Entries CodeText Value) :
    write depth (object ((key, value) :: rest)) =
      ⟨'\x7b' :: (newline (depth + 1) ++
          (entryText (depth + 1) key value ++ (writeEntries (depth + 1) rest).text)),
        (writeEntries (depth + 1) rest).fault⟩ ++ Draft.ofChars (newline depth ++ ['\x7d']) := by
  simp [write, entryText, whole]

theorem write_object_of_stopped (key : CodeText) (stopped : (value.write (depth + 1)).fault = some fault)
    (rest : Entries CodeText Value) :
    write depth (object ((key, value) :: rest)) =
      ⟨'\x7b' :: (newline (depth + 1) ++ entryText (depth + 1) key value), some fault⟩ := by
  simp [write, entryText, stopped]

end

end Value

end Reckoner
