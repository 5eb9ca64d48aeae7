import Reckoner.Proofs.Settings.Loaded
import Reckoner.Proofs.Value.RoundTrip

/-!
# Saved settings

What is saved whole is loaded again, laid over the defaults. A save that fails leaves the file alone if it
could not be opened; else it leaves the text that was written before the fault, and the defaults are loaded.

Main results: `SettingsFile.save_round_trip`, `SettingsFile.save_failed`.
-/

namespace Reckoner

/-! ### The defaults -/

namespace Settings

theorem distinct_defaults : Entries.Distinct defaults := by
  unfold Entries.Distinct
  decide

theorem storable_defaults : ∀ entry ∈ defaults, Value.Storable entry.2 := by
  have places : digitCount defaultPlaces.natAbs ≤ Text.digitLimit := by decide
  simp only [defaults, List.forall_mem_cons]
  exact ⟨.bool false, .bool true, .bool false, .integer places, .bool false, nofun⟩

theorem unpaired_defaults : ∀ entry ∈ defaults, entry.1.Unpaired := by
  simp only [defaults, List.forall_mem_cons]
  exact ⟨CodeText.unpaired_ofString _, CodeText.unpaired_ofString _, CodeText.unpaired_ofString _,
    CodeText.unpaired_ofString _, CodeText.unpaired_ofString _, nofun⟩

/-- What can be stored alone can be stored over the defaults. -/
theorem storable_update {entries : Settings} (storable : Value.Storable (.object entries)) :
    Value.Storable (.object (defaults.update entries)) := by
  cases storable with
  | object distinct unpaired all =>
    refine .object (distinct_defaults.update entries) (fun entry member => ?_) fun entry member => ?_
    · rcases Entries.mem_update member with old | new
      · exact unpaired_defaults entry old
      · exact unpaired entry new
    · rcases Entries.mem_update member with old | new
      · exact storable_defaults entry old
      · exact all entry new

end Settings

namespace SettingsFile

variable {file : SettingsFile} {entries settings : Settings}

/-! ### What a save leaves -/

/-- The file can be opened for writing. -/
def Writable (file : SettingsFile) : Prop := file.reachable = true ∧ file.state ≠ .directory

/-- Whatever stood in a file that can be written, its new text is what the writer leaves. -/
theorem save_of_writable (writable : file.Writable) (value : Value) :
    file.save value = (ofText (String.ofList value.draft.text), saveResult value.draft.fault) := by
  obtain ⟨state, reachable⟩ := file
  obtain ⟨rfl, other⟩ := writable
  cases state with
  | directory => exact absurd rfl other
  | _ => rfl

theorem writable_ofText (text : String) : (ofText text).Writable := ⟨rfl, nofun⟩

theorem writable_absent : absent.Writable := ⟨rfl, nofun⟩

theorem save_of_not_writable (closed : ¬ file.Writable) (value : Value) :
    ∃ cause, file.save value = (file, .ok (.error cause)) := by
  obtain ⟨state, reachable⟩ := file
  cases reachable with
  | false => exact ⟨.missing, rfl⟩
  | true =>
    cases state with
    | directory => exact ⟨.directory, rfl⟩
    | absent => exact absurd ⟨rfl, nofun⟩ closed
    | content bytes => exact absurd ⟨rfl, nofun⟩ closed

/-- A saved object is what the file holds. -/
theorem save_storable (writable : file.Writable) (storable : Value.Storable (.object entries)) :
    (file.save (.object entries)).2 = .ok (.ok ()) ∧ (file.save (.object entries)).1.Holds entries := by
  obtain ⟨whole, read⟩ := Value.ofText_storable storable
  rw [save_of_writable writable, whole]
  refine ⟨rfl, _, text?_ofText _, ?_⟩
  rwa [String.toList_ofList]

/-- An object that stops the writer leaves a file that cannot be read. -/
theorem save_stuck {fault : Value.WriteFault} (writable : file.Writable)
    (stuck : Value.Stuck fault (.object entries)) :
    (file.save (.object entries)).2 = saveResult (some fault) ∧
      ∀ defaults, (file.save (.object entries)).1.load defaults = .ok (defaults, [.notUsable .malformed]) := by
  obtain ⟨stopped, read⟩ := Value.ofText_stuck stuck
  rw [save_of_writable writable, stopped]
  refine ⟨rfl, load_of_malformed (text?_ofText _) ?_⟩
  rwa [String.toList_ofList]

/-! ### Round trip -/

/-- Loaded settings are storable entries laid over the defaults. -/
theorem load_storable {notices : List Notice} (loaded : file.load Settings.defaults = .ok (settings, notices)) :
    ∃ entries, Value.Storable (.object entries) ∧ settings = Settings.defaults.update entries := by
  by_cases stops : ∃ digits, file.StopsAt digits
  · obtain ⟨digits, stops⟩ := stops
    rw [load_of_stopsAt stops] at loaded
    cases loaded
  · by_cases holds : ∃ entries, file.Holds entries
    · obtain ⟨entries, holds⟩ := holds
      rw [load_of_holds holds] at loaded
      cases loaded
      exact ⟨entries, holds.storable, rfl⟩
    · obtain ⟨others, same⟩ := load_of_neither (not_exists.mp holds) (not_exists.mp stops) Settings.defaults
      rw [same] at loaded
      cases loaded
      exact ⟨[], .object List.nodup_nil nofun nofun, rfl⟩

/-- Every object that can be stored is saved over any file that can be written, and loading that file gives
its values in the places of the defaults, then its other entries. From any file that loads, saving what is
loaded once and once more writes the same file. -/
theorem save_round_trip (file : SettingsFile) :
    (∀ entries : Settings, Value.Storable (.object entries) → file.Writable →
      (file.save (.object entries)).2.map (saved (.object entries)) = .ok (.object entries) ∧
        ∀ fallback, (file.save (.object entries)).1.answer Settings.defaults (.text Settings.allKey) fallback =
          .ok (.object (Settings.defaults.overlaid entries), [])) ∧
      ∀ settings notices, file.load Settings.defaults = .ok (settings, notices) →
        ∃ again others, (file.save (.object settings)).1.load Settings.defaults = .ok (again, others) ∧
          ((file.save (.object settings)).1.save (.object again)).1 = (file.save (.object settings)).1 := by
  constructor
  · intro entries storable writable
    obtain ⟨finished, holds⟩ := save_storable writable storable
    refine ⟨by rw [finished]; rfl, fun fallback => ?_⟩
    rw [answer, load_of_holds holds, Entries.update_eq_overlaid Settings.distinct_defaults storable.distinct]
    rfl
  · intro settings notices loaded
    by_cases writable : file.Writable
    · -- The first save holds what was loaded, and loading that gives it again.
      obtain ⟨entries, storable, rfl⟩ := load_storable loaded
      obtain ⟨-, holds⟩ := save_storable writable (Settings.storable_update storable)
      have again := load_of_holds holds Settings.defaults
      rw [Entries.update_update Settings.distinct_defaults storable.distinct] at again
      refine ⟨_, _, again, ?_⟩
      rw [save_of_writable writable, save_of_writable (writable_ofText _)]
    · obtain ⟨cause, closed⟩ := save_of_not_writable writable (.object settings)
      exact ⟨settings, notices, by rw [closed]; exact loaded, by rw [closed, closed]⟩

def loneHalf : CodeText := .ofHalf ⟨0xd83d, by decide⟩

/-- Settings with values inside others. -/
def nestedSettings : Settings :=
  [(loneHalf, .list [.text "1/\u00b0", .text loneHalf, .double .nan, .object [("position", .integer (-3))], .null]),
    (Settings.placesKey, .integer 3)]

private theorem storable_nestedSettings : Value.Storable (.object nestedSettings) := by
  have short : digitCount (-3 : Int).natAbs ≤ Text.digitLimit := by decide
  have position : Value.Storable (.object [("position", .integer (-3))]) := by
    refine .object (by simp [Entries.Distinct]) ?_ ?_
    · exact List.forall_mem_singleton.mpr (CodeText.unpaired_ofString _)
    · exact List.forall_mem_singleton.mpr (.integer short)
  have items : Value.Storable
      (.list [.text "1/\u00b0", .text loneHalf, .double .nan, .object [("position", .integer (-3))], .null]) := by
    refine .list ?_
    simp only [List.forall_mem_cons]
    exact ⟨.text (CodeText.unpaired_ofString _), .text (CodeText.unpaired_ofHalf _), .double _, position, .null,
      List.forall_mem_nil _⟩
  refine .object ?_ ?_ ?_
  · unfold Entries.Distinct
    decide
  · simp only [nestedSettings, List.forall_mem_cons]
    exact ⟨CodeText.unpaired_ofHalf _, CodeText.unpaired_ofString _, List.forall_mem_nil _⟩
  · simp only [nestedSettings, List.forall_mem_cons]
    exact ⟨items, .integer short, List.forall_mem_nil _⟩

/-- The places are loaded as they were set, and the new entry behind the defaults. -/
theorem save_round_trip_nestedSettings :
    (absent.save (.object nestedSettings)).1.answer Settings.defaults (.text Settings.allKey) .null =
        .ok (.object [(Settings.darkModeKey, .bool false), (Settings.showExpressionKey, .bool true),
          (Settings.evaluatePastedKey, .bool false), (Settings.placesKey, .integer 3),
          (Settings.debugKey, .bool false),
          (loneHalf, .list [.text "1/\u00b0", .text loneHalf, .double .nan,
            .object [("position", .integer (-3))], .null])], []) ∧
      ∃ again others, (absent.save (.object Settings.defaults)).1.load Settings.defaults = .ok (again, others) ∧
        ((absent.save (.object Settings.defaults)).1.save (.object again)).1 =
          (absent.save (.object Settings.defaults)).1 := by
  obtain ⟨saves, settles⟩ := save_round_trip absent
  refine ⟨?_, settles Settings.defaults [.notUsable .missing] rfl⟩
  exact (saves nestedSettings storable_nestedSettings ⟨rfl, nofun⟩).2 .null

/-! ### Failed saves -/

/-- A save that answers with an empty object for settings that are not empty has failed. Either the file could
not be opened, and is as it was, or writing stopped at a value that cannot be written. Then the file holds the
text in front of that value, and every key is answered from the defaults. -/
theorem save_failed (file : SettingsFile) (entries : Settings) (nonempty : entries ≠ [])
    (failed : (file.save (.object entries)).2.map (saved (.object entries)) = .ok (.object [])) :
    (¬ file.Writable ∧ (file.save (.object entries)).1 = file) ∨
      file.Writable ∧ Value.Stuck .unwritable (.object entries) ∧
        (file.save (.object entries)).1 = ofText (String.ofList (Value.object entries).draft.text) ∧
        ∀ defaults key fallback, (file.save (.object entries)).1.answer defaults key fallback =
          .ok (defaults.lookUp key fallback, [.notUsable .malformed]) := by
  by_cases writable : file.Writable
  · rcases Value.written_or_stuck (.object entries) with written | ⟨fault, stuck⟩
    · -- Writing goes through, and what is answered is not empty.
      rw [save_of_writable writable, (Value.ofText_written written).1] at failed
      injection failed with same
      injection same with same
      exact absurd same nonempty
    · obtain ⟨finished, loaded⟩ := save_stuck writable stuck
      cases fault with
      | tooLong digits =>
        -- This fault is not answered at all.
        rw [finished] at failed
        cases failed
      | unwritable =>
        refine .inr ⟨writable, stuck, by rw [save_of_writable writable], fun defaults key fallback => ?_⟩
        rw [answer, loaded]
        rfl
  · obtain ⟨cause, closed⟩ := save_of_not_writable writable (.object entries)
    exact .inl ⟨writable, by rw [closed]⟩

/-- A file that a failed save does not leave as it was: it is overwritten before the fault is met. -/
theorem save_unwritable_overwrites :
    let file := (absent.save (.object [(Settings.darkModeKey, .bool true)])).1
    let after := (file.save (.object [("a", .unwritable)])).1
    (file.save (.object [("a", .unwritable)])).2.map (saved (.object [("a", .unwritable)])) = .ok (.object []) ∧
      after ≠ file ∧
      file.answer Settings.defaults (.text Settings.darkModeKey) (.integer 0) = .ok (.bool true, []) ∧
      after.answer Settings.defaults (.text Settings.darkModeKey) (.integer 0) =
        .ok (.bool false, [.notUsable .malformed]) := by
  intro file after
  have storable : Value.Storable (.object [(Settings.darkModeKey, .bool true)]) :=
    .object (by simp [Entries.Distinct]) (List.forall_mem_singleton.mpr (CodeText.unpaired_ofString _))
      (List.forall_mem_singleton.mpr (.bool true))
  have stuck : Value.Stuck .unwritable (.object ([] ++ [(("a" : CodeText), .unwritable)])) :=
    .object [] (List.forall_mem_nil _) (.unwritable rfl)
  have writable : file.Writable := by
    show (absent.save _).1.Writable
    rw [save_of_writable writable_absent]
    exact writable_ofText _
  have holds : file.Holds [(Settings.darkModeKey, .bool true)] := (save_storable writable_absent storable).2
  obtain ⟨finished, loaded⟩ := save_stuck writable stuck
  have dark : file.answer Settings.defaults (.text Settings.darkModeKey) (.integer 0) = .ok (.bool true, []) := by
    rw [answer, load_of_holds holds]
    rfl
  have light : after.answer Settings.defaults (.text Settings.darkModeKey) (.integer 0) =
      .ok (.bool false, [.notUsable .malformed]) := by
    rw [answer, show after.load Settings.defaults = _ from loaded Settings.defaults]
    rfl
  refine ⟨?_, ?_, dark, light⟩
  · rw [show (file.save (.object [("a", .unwritable)])).2 = _ from finished]
    rfl
  · intro same
    rw [same, dark] at light
    cases light

/-- Settings with a value that cannot be written. -/
def partlyWritable : Settings := [("a", .integer 1), ("b", .list [.null, .unwritable])]

theorem save_failed_partlyWritable :
    (absent.save (.object partlyWritable)).2.map (saved (.object partlyWritable)) = .ok (.object []) ∧
      (absent.save (.object partlyWritable)).1 =
        ofText "\x7b\n    \"a\": 1,\n    \"b\": [\n        null,\n        " := by
  have failed : (absent.save (.object partlyWritable)).2.map (saved (.object partlyWritable)) = .ok (.object []) := rfl
  refine ⟨failed, ?_⟩
  rcases save_failed absent partlyWritable (by decide) failed with ⟨closed, -⟩ | ⟨-, -, left, -⟩
  · exact absurd ⟨rfl, nofun⟩ closed
  · rw [left]
    rfl

end SettingsFile

end Reckoner
