import Reckoner.Proofs.Settings.Loaded
import Reckoner.Proofs.Value.Reading

/-!
# Files that are usable

Whatever stands under the name of a settings file, loading it comes to settings that have all default keys,
and to the defaults themselves unless the file holds an object. There is one exception: an integer that is
too long ends the loading.

Main result: `SettingsFile.answer_outcome`.
-/

namespace Reckoner

namespace SettingsFile

/-- Loading a file and asking it for a key either stops at an integer that is too long, which stands in the
text of the file with all of its digits, or gives settings with all default keys in front. These are the
defaults themselves unless the file holds an object. -/
theorem answer_outcome (file : SettingsFile) (defaults : Settings) (key fallback : Value) :
    (∃ digits, file.StopsAt digits ∧ (∃ text, file.text? = some text ∧ Value.LongRun digits text.toList) ∧
        file.load defaults = .error ⟨digits⟩ ∧ file.answer defaults key fallback = .error ⟨digits⟩) ∨
      (∀ digits, ¬ file.StopsAt digits) ∧
        ∃ settings notices, file.load defaults = .ok (settings, notices) ∧
          file.answer defaults key fallback = .ok (settings.lookUp key fallback, notices) ∧
          defaults.map (·.1) <+: settings.map (·.1) ∧
          ((∀ entries, ¬ file.Holds entries) → settings = defaults) := by
  by_cases stops : ∃ digits, file.StopsAt digits
  · obtain ⟨digits, stops⟩ := stops
    have loaded := load_of_stopsAt stops defaults
    have run : ∃ text, file.text? = some text ∧ Value.LongRun digits text.toList := by
      obtain ⟨text, found, read⟩ := stops
      exact ⟨text, found, Value.ofText_eq_tooLong read⟩
    refine .inl ⟨digits, stops, run, loaded, ?_⟩
    rw [answer, loaded]
    rfl
  · have goesOn := not_exists.mp stops
    have answered : ∀ {settings notices}, file.load defaults = .ok (settings, notices) →
        file.answer defaults key fallback = .ok (settings.lookUp key fallback, notices) := by
      intro settings notices loaded
      rw [answer, loaded]
      rfl
    by_cases holds : ∃ entries, file.Holds entries
    · obtain ⟨entries, holds⟩ := holds
      have loaded := load_of_holds holds defaults
      exact .inr ⟨goesOn, _, _, loaded, answered loaded, Entries.keys_prefix_update defaults entries,
        fun none => absurd holds (none entries)⟩
    · obtain ⟨notices, loaded⟩ := load_of_neither (not_exists.mp holds) goesOn defaults
      exact .inr ⟨goesOn, _, _, loaded, answered loaded, List.prefix_refl _, fun _ => rfl⟩

/-- The exception is met: by every object with an integer of too many digits for its only value. -/
theorem stopsAt_entry (key : CodeText) {digits : List Char} (whole : IsWhole digits)
    (long : Text.digitLimit < digits.length) :
    (ofText (String.ofList ('\x7b' :: (Value.writeText key ++ ':' :: ' ' :: (digits ++ ['\x7d']))))).StopsAt
      digits.length := by
  refine ⟨_, text?_ofText _, ?_⟩
  rw [String.toList_ofList]
  exact Value.ofText_entry_tooLong key whole long

end SettingsFile

end Reckoner
