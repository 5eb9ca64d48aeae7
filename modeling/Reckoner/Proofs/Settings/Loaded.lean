import Reckoner.Proofs.Value.Readable
import Reckoner.Settings.Store

/-!
# What is loaded

A file holds an object, or its reading stops at an integer that is too long, or it leaves the defaults as they
are. A key of the loaded settings has the value that the file sets for it, or else its default.

Main results: `SettingsFile.load_of_holds`, `SettingsFile.load_of_stopsAt`, `SettingsFile.load_of_neither`,
`SettingsFile.load_get?`.
-/

namespace Reckoner

namespace SettingsFile

/-! ### What is in a file -/

/-- The text in a file, if there is a file and its bytes are strictly the encoding of a text. -/
def text? (file : SettingsFile) : Option String :=
  match file.reachable, file.state with
  | true, .content bytes => String.fromUTF8? bytes
  | _, _ => none

/-- The text in the file is that of an object with these entries. -/
def Holds (file : SettingsFile) (entries : Settings) : Prop :=
  ∃ text, file.text? = some text ∧ Value.ofText text.toList = .ok (.object entries)

/-- Reading the text in the file stops at an integer of so many digits. -/
def StopsAt (file : SettingsFile) (digits : Nat) : Prop :=
  ∃ text, file.text? = some text ∧ Value.ofText text.toList = .error (.tooLong digits)

theorem text?_ofText (text : String) : (ofText text).text? = some text := dif_pos text.isValidUTF8

variable {file : SettingsFile} {text : String} {entries : Settings} {digits : Nat}

theorem Holds.storable (holds : file.Holds entries) : Value.Storable (.object entries) := by
  obtain ⟨text, -, read⟩ := holds
  exact Value.ofText_eq_ok read

/-- What a file is read as, by what its text is read as. -/
def comesTo : Except Value.ReadFault Value → Except TooLong (Except Unusable Value)
  | .ok value => .ok (.ok value)
  | .error .malformed => .ok (.error .malformed)
  | .error (.tooLong digits) => .error ⟨digits⟩

theorem read_of_text (found : file.text? = some text) : file.read = comesTo (Value.ofText text.toList) := by
  obtain ⟨state, reachable⟩ := file
  cases reachable with
  | false => cases found
  | true =>
    cases state with
    | absent => cases found
    | directory => cases found
    | content bytes =>
      have decoded : String.fromUTF8? bytes = some text := found
      simp only [read, decoded, Bool.not_true, Bool.false_eq_true, if_false]
      cases Value.ofText text.toList with
      | ok value => rfl
      | error fault => cases fault <;> rfl

theorem read_of_no_text (missing : file.text? = none) : ∃ cause, file.read = .ok (.error cause) := by
  obtain ⟨state, reachable⟩ := file
  cases reachable with
  | false => exact ⟨.missing, rfl⟩
  | true =>
    cases state with
    | absent => exact ⟨.missing, rfl⟩
    | directory => exact ⟨.directory, rfl⟩
    | content bytes =>
      have undecoded : String.fromUTF8? bytes = none := missing
      exact ⟨.notUnicode, by simp [read, undecoded]⟩

theorem holds_of_read (found : file.read = .ok (.ok (.object entries))) : file.Holds entries := by
  cases content : file.text? with
  | none =>
    obtain ⟨cause, read⟩ := read_of_no_text content
    rw [read] at found
    cases found
  | some text =>
    rw [read_of_text content] at found
    cases outcome : Value.ofText text.toList with
    | ok value =>
      rw [outcome] at found
      cases found
      exact ⟨text, content, outcome⟩
    | error fault =>
      rw [outcome] at found
      cases fault <;> cases found

/-! ### Loaded settings -/

theorem load_of_holds (holds : file.Holds entries) (defaults : Settings) :
    file.load defaults = .ok (defaults.update entries, []) := by
  obtain ⟨text, found, read⟩ := holds
  rw [load, SettingsFile.entries, read_of_text found, read]
  rfl

theorem load_of_stopsAt (stops : file.StopsAt digits) (defaults : Settings) :
    file.load defaults = .error ⟨digits⟩ := by
  obtain ⟨text, found, read⟩ := stops
  rw [load, SettingsFile.entries, read_of_text found, read]
  rfl

theorem load_of_malformed (found : file.text? = some text) (read : Value.ofText text.toList = .error .malformed)
    (defaults : Settings) : file.load defaults = .ok (defaults, [.notUsable .malformed]) := by
  rw [load, SettingsFile.entries, read_of_text found, read]
  rfl

/-- A file that holds no object leaves the defaults, unless its reading stops. -/
theorem load_of_neither (holdsNone : ∀ entries, ¬ file.Holds entries) (goesOn : ∀ digits, ¬ file.StopsAt digits)
    (defaults : Settings) : ∃ notices, file.load defaults = .ok (defaults, notices) := by
  cases found : file.text? with
  | none =>
    obtain ⟨cause, read⟩ := read_of_no_text found
    rw [load, entries, read]
    exact ⟨_, rfl⟩
  | some text =>
    rw [load, entries, read_of_text found]
    cases read : Value.ofText text.toList with
    | ok value =>
      -- A value that is no object gives no entries, and a notice.
      cases value with
      | object entries => exact absurd ⟨text, found, read⟩ (holdsNone entries)
      | _ => exact ⟨_, rfl⟩
    | error fault =>
      cases fault with
      | malformed => exact ⟨_, rfl⟩
      | tooLong digits => exact absurd ⟨text, found, read⟩ (goesOn digits)

/-- What the file sets for a key, if it holds an object. -/
def set? (file : SettingsFile) (key : CodeText) : Option Value :=
  match file.read with
  | .ok (.ok (.object entries)) => Entries.get? entries key
  | _ => none

/-- Every key of the loaded settings has the value set in the file, or else its default. -/
theorem load_get? {file : SettingsFile} {defaults settings : Settings} {notices : List Notice}
    (loaded : file.load defaults = .ok (settings, notices)) (key : CodeText) :
    settings.get? key = (file.set? key).or (defaults.get? key) := by
  unfold load entries at loaded
  unfold set?
  cases found : file.read with
  | error cause =>
    rw [found] at loaded
    cases loaded
  | ok result =>
    rw [found] at loaded
    cases result with
    | error cause =>
      cases loaded
      rfl
    | ok value =>
      -- Only an object sets anything; with every other value the defaults are loaded.
      cases value with
      | object entries =>
        cases loaded
        exact Entries.get?_update defaults (holds_of_read found).storable.distinct key
      | _ =>
        cases loaded
        rfl

/-- A file that cannot be loaded sets nothing. -/
theorem set?_of_load_error {file : SettingsFile} {defaults : Settings} {cause : TooLong}
    (failed : file.load defaults = .error cause) (key : CodeText) : file.set? key = none := by
  unfold load entries at failed
  unfold set?
  cases found : file.read with
  | error cause => rfl
  | ok result =>
    rw [found] at failed
    rcases result with cause | value
    · cases failed
    · cases value <;> cases failed

end SettingsFile

end Reckoner
