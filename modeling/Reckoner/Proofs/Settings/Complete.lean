import Reckoner.Proofs.Settings.Saved

/-!
# Complete settings

Settings that are complete begin with the keys of the defaults, and all their values can be stored. Loading
gives complete settings. Saved to a file that can be written, they are what is loaded next.

Main results: `SettingsFile.complete_of_load`, `SettingsFile.load_saved`.
-/

namespace Reckoner

namespace Settings

/-- The settings have the keys of the defaults in front, and can be stored. -/
structure Complete (settings : Settings) : Prop where
  storable : Value.Storable (.object settings)
  begins : defaults.map (·.1) <+: settings.map (·.1)

variable {settings : Settings}

theorem Complete.distinct (complete : settings.Complete) : Entries.Distinct settings := complete.storable.distinct

theorem Complete.ne_nil (complete : settings.Complete) : settings ≠ [] := by
  rintro rfl
  cases List.prefix_nil.mp complete.begins

/-- Settings stay complete when values that can be stored take the place of others. -/
theorem Complete.replace (complete : settings.Complete) (new? : CodeText → Option Value)
    (storable : ∀ key value, new? key = some value → Value.Storable value) :
    Complete (Entries.replace settings new?) := by
  constructor
  · cases complete.storable with
    | object distinct unpaired all =>
      refine .object (distinct.replace new?) (fun entry member => ?_) fun entry member => ?_
      · obtain ⟨old, here, same⟩ := Entries.mem_replace member
        exact unpaired (entry.1, old) here
      · obtain ⟨old, here, same⟩ := Entries.mem_replace member
        rw [same]
        cases found : new? entry.1 with
        | none => exact all _ here
        | some value => exact storable entry.1 value found
  · rw [Entries.keys_replace]
    exact complete.begins

end Settings

namespace SettingsFile

variable {file : SettingsFile} {settings : Settings}

theorem complete_of_load {notices : List Notice} (loaded : file.load Settings.defaults = .ok (settings, notices)) :
    settings.Complete := by
  obtain ⟨entries, storable, rfl⟩ := load_storable loaded
  exact ⟨Settings.storable_update storable, Entries.keys_prefix_update _ _⟩

/-- Complete settings are saved whole, and they are what is loaded next. -/
theorem load_saved (writable : file.Writable) (complete : settings.Complete) :
    (file.save (.object settings)).2 = .ok (.ok ()) ∧ (file.save (.object settings)).1.Holds settings ∧
      (file.save (.object settings)).1.load Settings.defaults = .ok (settings, []) := by
  obtain ⟨finished, holds⟩ := save_storable writable complete.storable
  refine ⟨finished, holds, ?_⟩
  rw [load_of_holds holds,
    Entries.update_of_keys_prefix Settings.distinct_defaults complete.distinct complete.begins]

end SettingsFile

end Reckoner
