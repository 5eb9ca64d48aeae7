import Reckoner.Calculation
import Reckoner.Proofs.Settings.Loaded

/-!
# Calculations and their settings

A calculation reads the settings before the expression. Whatever the file holds, the settings only decide
how a result is rounded, with one exception: an infinite number of decimal places is not caught.

Main result: `calculate_cases`.
-/

namespace Reckoner

theorem Value.places_eq_unbounded {value : Value} :
    value.places = .unbounded ↔ ∃ negative, value = .double (.infinite negative) := by
  constructor
  · intro unbounded
    unfold Value.places at unbounded
    split at unbounded
    next => cases unbounded
    next => cases unbounded
    next negative => exact ⟨negative, rfl⟩
    next => split at unbounded <;> cases unbounded
    next => split at unbounded <;> cases unbounded
    next => cases unbounded
  · rintro ⟨negative, rfl⟩
    rfl

/-- The places are infinite exactly if the file says so. -/
theorem SettingsFile.places_eq_unbounded {file : SettingsFile} :
    file.places = .unbounded ↔
      ∃ negative, file.set? Settings.placesKey = some (.double (.infinite negative)) := by
  have default : Settings.defaults.get? Settings.placesKey = some (.integer Settings.defaultPlaces) := rfl
  rw [SettingsFile.places]
  cases loaded : file.load Settings.defaults with
  | error cause => simp [SettingsFile.set?_of_load_error loaded]
  | ok result =>
    obtain ⟨settings, notices⟩ := result
    -- The default is finite, so infinite places must come from the file.
    have found := SettingsFile.load_get? loaded Settings.placesKey
    rw [default] at found
    simp only [found, Value.places_eq_unbounded]
    cases file.set? Settings.placesKey with
    | none => simp
    | some value => simp

/-- The loaded settings have a value for the places: the default if the file sets none. -/
theorem SettingsFile.exists_places {file : SettingsFile} {settings : Settings} {notices : List Notice}
    (loaded : file.load Settings.defaults = .ok (settings, notices)) :
    ∃ value, settings.get? Settings.placesKey = some value := by
  have default : Settings.defaults.get? Settings.placesKey = some (.integer Settings.defaultPlaces) := rfl
  rw [SettingsFile.load_get? loaded, default]
  cases file.set? Settings.placesKey with
  | none => exact ⟨_, rfl⟩
  | some value => exact ⟨value, rfl⟩

/-- The number of places that results are rounded to: what the loaded value means as a number, or the default if
it means none or if loading stops. An infinite value is not in effect as any number. -/
inductive SettingsFile.PlacesInEffect (file : SettingsFile) : Int → Prop
  | given {settings : Settings} {notices : List Notice} {value : Value} {places : Int}
    (loaded : file.load Settings.defaults = .ok (settings, notices))
    (set : settings.get? Settings.placesKey = some value) (number : value.places = .given places) :
    PlacesInEffect file places
  | unusable {settings : Settings} {notices : List Notice} {value : Value}
    (loaded : file.load Settings.defaults = .ok (settings, notices))
    (set : settings.get? Settings.placesKey = some value) (noNumber : value.places = .unusable) :
    PlacesInEffect file Settings.defaultPlaces
  | unloadable {cause : TooLong} (stopped : file.load Settings.defaults = .error cause) :
    PlacesInEffect file Settings.defaultPlaces

theorem SettingsFile.resolve_eq_ok_iff {file : SettingsFile} {places : Int} :
    file.places.resolve = .ok places ↔ file.PlacesInEffect places := by
  constructor
  · intro resolved
    rw [SettingsFile.places] at resolved
    cases loaded : file.load Settings.defaults with
    | error cause =>
      rw [loaded] at resolved
      cases resolved
      exact .unloadable loaded
    | ok result =>
      -- A value is always found, so what is in effect depends on what it means.
      obtain ⟨value, set⟩ := SettingsFile.exists_places loaded
      simp only [loaded, set, Option.getD_some] at resolved
      cases meant : value.places with
      | given n =>
        rw [meant] at resolved
        cases resolved
        exact .given loaded set meant
      | unusable =>
        rw [meant] at resolved
        cases resolved
        exact .unusable loaded set meant
      | unbounded =>
        rw [meant] at resolved
        cases resolved
  · intro effective
    cases effective with
    | given loaded set number =>
      simp only [SettingsFile.places, loaded, set, Option.getD_some, number]
      rfl
    | unusable loaded set noNumber =>
      simp only [SettingsFile.places, loaded, set, Option.getD_some, noNumber]
      rfl
    | unloadable stopped =>
      simp only [SettingsFile.places, stopped]
      rfl

theorem Display.answer_cases (display : Display) :
    display.answer = "= " ++ display.text ∨ display.answer = "≈ " ++ display.text := by
  unfold Display.answer
  split
  · exact .inr rfl
  · exact .inl rfl

/-- A calculation with an infinite number of decimal places set in the file fails, whatever the expression.
With every other file it answers exactly if the expression has a value, and otherwise it reports the fault
of the expression. -/
theorem calculate_cases (file : SettingsFile) (problem : String) :
    ((∃ negative, file.set? Settings.placesKey = some (.double (.infinite negative))) →
      calculate file (.text problem) = .error .unboundedPlaces) ∧
    ((∀ negative, file.set? Settings.placesKey ≠ some (.double (.infinite negative))) →
      (∀ value, evaluate problem = .ok value →
        ∃ places, calculate file (.text problem) = .ok (value.display (some places)) ∧
          ((value.display (some places)).answer = "= " ++ (value.display (some places)).text ∨
            (value.display (some places)).answer = "≈ " ++ (value.display (some places)).text)) ∧
      ∀ fault, evaluate problem = .error fault →
        calculate file (.text problem) = .error (.fault problem fault)) := by
  constructor
  · intro infinite
    rw [calculate, SettingsFile.places_eq_unbounded.mpr infinite]
    rfl
  · intro bounded
    -- Whatever else is set, there is a number of places to round to.
    obtain ⟨places, resolved⟩ : ∃ places, file.places.resolve = .ok places := by
      cases asked : file.places with
      | given places => exact ⟨places, rfl⟩
      | unusable => exact ⟨Settings.defaultPlaces, rfl⟩
      | unbounded =>
        obtain ⟨negative, set⟩ := SettingsFile.places_eq_unbounded.mp asked
        exact absurd set (bounded negative)
    have calculated : calculate file (.text problem) = calculateTo places (.text problem) := by
      rw [calculate, resolved]
      rfl
    rw [calculated, calculateTo]
    constructor
    · intro value evaluated
      rw [evaluated]
      exact ⟨places, rfl, Display.answer_cases _⟩
    · intro fault evaluated
      rw [evaluated]

/-- The text of a file that asks for infinitely many decimal places. -/
def infinitePlaces : String := "\x7b\"decimal_places\": Infinity\x7d"

private theorem set?_infinitePlaces :
    (SettingsFile.ofText infinitePlaces).set? Settings.placesKey = some (.double (.infinite false)) := by
  have decoded : String.fromUTF8? infinitePlaces.toUTF8 = some infinitePlaces :=
    dif_pos infinitePlaces.isValidUTF8
  -- The reader is stepped by its equations: evaluated as a whole it unfolds for every unit of its depth.
  have entries (depth : Nat) : Value.readEntries (depth + 2) "\"decimal_places\": Infinity\x7d".toList =
      .ok ([("decimal_places", .double (.infinite false))], []) := by
    have key : Value.readKey "\"decimal_places\": Infinity\x7d".toList =
        .ok ("decimal_places", "Infinity\x7d".toList) := rfl
    have value : Value.readValue (depth + 1) "Infinity\x7d".toList =
        .ok (.double (.infinite false), ['\x7d']) := by
      change Value.readAtom "Infinity\x7d".toList = _
      rfl
    rw [Value.readEntries, key]
    simp only [bind, Except.bind, value]
    rfl
  have object : Value.readValue (54 + 3) infinitePlaces.toList =
      .ok (.object [("decimal_places", .double (.infinite false))], []) := by
    have split : infinitePlaces.toList = '\x7b' :: "\"decimal_places\": Infinity\x7d".toList := rfl
    rw [split, Value.readValue]
    change Except.map _ (Value.readEntries (54 + 2) "\"decimal_places\": Infinity\x7d".toList) = _
    rw [entries]
    rfl
  have read : Value.ofText infinitePlaces.toList =
      .ok (.object [("decimal_places", .double (.infinite false))]) := by
    have space : Value.skipSpace infinitePlaces.toList = infinitePlaces.toList := rfl
    have length : 2 * infinitePlaces.toList.length + 1 = 54 + 3 := rfl
    rw [Value.ofText, space, length, object]
    rfl
  simp only [SettingsFile.set?, SettingsFile.read, SettingsFile.ofText, Bool.not_true, Bool.false_eq_true,
    if_false, decoded, read]
  rfl

/-- With this file a calculation fails that answers without a file. -/
theorem calculate_third_infinitePlaces :
    calculate (SettingsFile.ofText infinitePlaces) (.text "1/3") = .error .unboundedPlaces ∧
      ∀ value, evaluate "1/3" = .ok value →
        ∃ places, calculate .absent (.text "1/3") = .ok (value.display (some places)) := by
  refine ⟨(calculate_cases _ "1/3").1 ⟨false, set?_infinitePlaces⟩, fun value evaluated => ?_⟩
  have usable : ∀ negative, SettingsFile.absent.set? Settings.placesKey ≠ some (.double (.infinite negative)) :=
    fun negative => by simp [SettingsFile.set?, SettingsFile.read, SettingsFile.absent]
  obtain ⟨places, calculated, -⟩ := ((calculate_cases .absent "1/3").2 usable).1 value evaluated
  exact ⟨places, calculated⟩

end Reckoner
