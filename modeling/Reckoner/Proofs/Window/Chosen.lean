import Mathlib.Data.List.Forall2
import Reckoner.Proofs.Window.Presses

/-!
# What the user chose is saved

When the first press of the OK button is accepted, the file has the settings that the dialog was opened with,
in their order. Those with a checkbox or a field that is filled have what the user chose, and all others are
as they were. The window has what a new window would load, and the closed dialog changes nothing more.

Main result: `openSettings_accepted`.
-/

namespace Reckoner.Window

open Dialog

/-! ### Choices -/

/-- A setting's widget, its value before, and the value that the user chose for it: what the checkbox shows, or
the integer in the field. A blank field leaves the value as it is, and a value without a widget stays, too. -/
inductive Chosen : Option Widget → Value → Value → Prop
  | checked (label : Value) (before on : Bool) : Chosen (some (.checkbox label on)) (.bool before) (.bool on)
  | typed (label : CodeText) (placeholder text : String) (before n : Int) (filled : Text.trim text ≠ "")
    (read : Text.readInteger (Text.trim text) = .ok n) :
    Chosen (some (.field label placeholder text)) (.integer before) (.integer n)
  | blank (label : CodeText) (placeholder text : String) (before : Int) (empty : Text.trim text = "") :
    Chosen (some (.field label placeholder text)) (.integer before) (.integer before)
  | fixed {value : Value} (untouched : value.isEditable = false) : Chosen none value value

theorem Chosen.unique {widget : Option Widget} {value first second : Value} (one : Chosen widget value first)
    (other : Chosen widget value second) : first = second := by
  cases one with
  | checked label before on =>
    cases other
    rfl
  | typed label placeholder text before n filled read =>
    cases other with
    | typed _ _ _ _ m _ again =>
      cases read.symm.trans again
      rfl
    | blank _ _ _ _ empty => exact absurd empty filled
  | blank label placeholder text before empty =>
    cases other with
    | typed _ _ _ _ n filled _ => exact absurd empty filled
    | blank => rfl
  | fixed untouched =>
    cases other
    rfl

/-- What a widget that is not refused asks for is what the user chose. -/
theorem Dialog.Suits.chosen {value : Value} {widget : Option Widget} {key : CodeText} (suits : Suits value widget)
    (taken : ∀ shown, widget = some shown → shown.isRefused key = false) :
    Chosen widget value ((widget.bind Widget.asked?).getD value) := by
  cases suits with
  | checkbox label set checked => exact .checked label set checked
  | none fixed => exact .fixed fixed
  | field label placeholder text set =>
    have accepted := taken _ rfl
    unfold Widget.isRefused at accepted
    rw [Option.bind_some, Widget.asked?]
    by_cases empty : Text.trim text = ""
    · rw [if_pos empty]
      exact .blank label placeholder text set empty
    · rw [if_neg empty]
      cases read : Text.readInteger (Text.trim text) with
      | ok n => exact .typed label placeholder text set n empty read
      | error fault => simp [empty, read] at accepted

/-- Where no widget is refused, every setting gets what the user chose for it. -/
theorem Dialog.chosen_replace {settings : Settings} {widgets : Entries CodeText Widget}
    (suited : ∀ entry ∈ settings, Suits entry.2 (widgets.get? entry.1)) (taken : isRefused widgets = false) :
    List.Forall₂ (fun old new => new.1 = old.1 ∧ Chosen (widgets.get? old.1) old.2 new.2) settings
      (Entries.replace settings (asked? widgets)) := by
  rw [isRefused_eq_false] at taken
  refine List.forall₂_map_right_iff.mpr (List.forall₂_same.mpr fun entry member => ⟨rfl, ?_⟩)
  exact (suited entry member).chosen fun _ found => taken _ (Entries.mem_of_get? found)

/-! ### Before the first press and after the last -/

/-- Edits press nothing. -/
theorem Dialog.presses_of_edits {edits : List DialogAction} (unpressed : ∀ action ∈ edits, action.isEdit = true)
    (widgets : Entries CodeText Widget) : presses widgets edits = [] := by
  induction edits generalizing widgets with
  | nil => rfl
  | cons action rest ih =>
    obtain ⟨first, others⟩ := List.forall_mem_cons.mp unpressed
    have other : action ≠ .ok := by
      rintro rfl
      cases first
    rw [presses, if_neg other, List.nil_append, ih others]

theorem Reaction.andThen_quiet {reaction : Reaction} (succeeded : reaction.failure = none) :
    (reaction.andThen fun _ => .quiet reaction.desktop) = reaction := by
  obtain ⟨desktop, records, boxes, handedOn, announced, failure⟩ := reaction
  cases succeeded
  simp [Reaction.andThen, Reaction.quiet]

/-- In a dialog that is closed, nothing that the user does has an effect. -/
theorem actAll_closed {reaction : Reaction} {opened : OpenDialog} (succeeded : reaction.failure = none)
    (closed : opened.outcome.isSome = true) (later : List DialogAction) :
    (actAll reaction opened later).1 = reaction := by
  induction later generalizing opened with
  | nil => rfl
  | cons action rest ih =>
    rw [actAll, succeeded]
    cases action with
    | check key on | fill key text =>
      simp only [act, Reaction.andThen_quiet succeeded]
      exact ih closed
    | ok | cancel =>
      simp only [act, closed, if_true, Reaction.andThen_quiet succeeded]
      exact ih closed

/-! ### The first press -/

variable {desktop : Desktop} {settings descriptions : Settings} {notices others : List SettingsFile.Notice}
  {edits : List DialogAction}

/-- Edits change the widgets alone. -/
theorem acted_edits (loaded : desktop.settingsFile.load Settings.defaults = .ok (settings, notices))
    (built : (plan descriptions settings).badLabel = none) (unpressed : ∀ action ∈ edits, action.isEdit = true) :
    (acted desktop descriptions settings edits).1.LeavesAlone desktop ∧
      (acted desktop descriptions settings edits).2 =
        ⟨⟨settings, standing (plan descriptions settings).widgets edits⟩, none⟩ := by
  have silent := presses_of_edits unpressed (plan descriptions settings).widgets
  have stays : .cancel ∉ edits := fun member => Bool.false_ne_true (unpressed _ member)
  have refused : ∀ widgets ∈ presses (plan descriptions settings).widgets edits, isRefused widgets = true := by
    rw [silent]
    exact nofun
  obtain ⟨alone, left⟩ := acted_refused loaded built stays refused
  refine ⟨alone, left.trans ?_⟩
  rw [silent]
  show (⟨⟨Entries.replace settings fun _ => none, _⟩, none⟩ : OpenDialog) = _
  rw [Entries.replace_none]

/-- The settings are saved and in effect: they are what is loaded next, and a new window has the same settings
as this one. That they were saved was announced once. -/
structure Reaction.Saves (reaction : Reaction) (desktop : Desktop) (saved : Settings) : Prop where
  desktop : reaction.desktop = desktop.withSaved saved
  failure : reaction.failure = none
  announced : reaction.announced = 1
  loads : reaction.desktop.settingsFile.load Settings.defaults = .ok (saved, [])
  current : ∀ (descriptionsFile : SettingsFile) (clipboard : String) (keyboard : Keyboard) (log : Log.Hierarchy),
    (Desktop.start reaction.desktop.settingsFile descriptionsFile clipboard keyboard log).map (·.window.settings) =
      .ok reaction.desktop.window.settings

theorem Reaction.saves_of_desktop {reaction : Reaction} {saved : Settings} (complete : saved.Complete)
    (writable : desktop.settingsFile.Writable) (after : reaction.desktop = desktop.withSaved saved)
    (succeeded : reaction.failure = none) (once : reaction.announced = 1) : reaction.Saves desktop saved := by
  have loads : (desktop.withSaved saved).settingsFile.load Settings.defaults = .ok (saved, []) :=
    (SettingsFile.load_saved writable complete).2.2
  refine ⟨after, succeeded, once, after ▸ loads, fun descriptionsFile clipboard keyboard log => ?_⟩
  rw [after, Desktop.start, loads]
  rfl

/-- The first press is accepted exactly if no field is refused then, so it is if there were no edits. When it is
accepted, the settings that were loaded are saved with what the user chose, in their order, whatever the user
still does in the dialog. Without edits they are saved as they were. -/
theorem openSettings_accepted (loaded : desktop.settingsFile.load Settings.defaults = .ok (settings, notices))
    (described :
      desktop.descriptionsFile.load Settings.defaultDescriptions = .ok (Settings.defaultDescriptions, others))
    (writable : desktop.settingsFile.Writable) (unpressed : ∀ action ∈ edits, action.isEdit = true) :
    let widgets := standing (plan Settings.defaultDescriptions settings).widgets edits
    let outcome? := (openSettings desktop (edits ++ [.ok])).2.map (·.outcome)
    (outcome? = some (some .accepted) ↔ isRefused widgets = false) ∧
      (edits = [] → isRefused widgets = false) ∧
      (outcome? = some (some .accepted) →
        ∃ saved : Settings,
          List.Forall₂ (fun old new => new.1 = old.1 ∧ Chosen (widgets.get? old.1) old.2 new.2) settings saved ∧
            (edits = [] → saved = settings) ∧
            ∀ later, (openSettings desktop (edits ++ .ok :: later)).1.Saves desktop saved) := by
  intro widgets outcome?
  have complete := SettingsFile.complete_of_load loaded
  have texts : ∀ entry ∈ Settings.defaultDescriptions, ∃ label, entry.2 = .text label := by
    simp [Settings.defaultDescriptions]
  have built := built_of_texts texts settings
  have orderly := (orderly_plan built complete.distinct).standing edits
  obtain ⟨alone, left⟩ := acted_edits loaded built unpressed
  have view := openSettings_eq loaded described built
  have decided : outcome? = some (some .accepted) ↔ isRefused widgets = false := by
    show (openSettings desktop (edits ++ [.ok])).2.map (·.outcome) = _ ↔ _
    rw [view, acted_append_ok alone left]
    cases refused : isRefused widgets with
    | true => simp [actAll, (pressOk_refused desktop orderly refused).2]
    | false => simp [actAll, pressOk_accepted orderly complete writable refused]
  refine ⟨decided, ?_, fun accepted => ?_⟩
  · rintro rfl
    exact isRefused_eq_false.mpr (plan_not_refused built complete.distinct)
  · have taken := decided.mp accepted
    have saves := complete.replace (asked? widgets) fun _ _ => storable_of_asked?
    refine ⟨Entries.replace settings (asked? widgets), chosen_replace ?_ taken, ?_, fun later => ?_⟩
    · exact fun entry member => (get?_plan built complete.distinct entry member).suits.standing edits
    · rintro rfl
      exact replace_plan built complete.distinct
    · rw [view, acted_append_ok alone left, pressOk_accepted orderly complete writable taken, alone.andThen_eq,
        actAll_closed rfl rfl]
      exact Reaction.saves_of_desktop saves writable rfl rfl rfl

/-- Two halves for keys, one of them for a value as well. -/
def halfEntries : Settings :=
  [(.ofHalf ⟨0xd800, by decide⟩, .integer 5), (.ofHalf ⟨0xd801, by decide⟩, .text (.ofHalf ⟨0xd801, by decide⟩))]

theorem load_halfEntries :
    (desktopWith halfEntries).settingsFile.load Settings.defaults = .ok (Settings.defaults ++ halfEntries, []) := by
  have short : digitCount (5 : Int).natAbs ≤ Text.digitLimit := by decide
  have storable : Value.Storable (.object halfEntries) := by
    refine .object ?_ ?_ ?_
    · unfold Entries.Distinct
      decide
    · simp only [halfEntries, List.forall_mem_cons]
      exact ⟨CodeText.unpaired_ofHalf _, CodeText.unpaired_ofHalf _, List.forall_mem_nil _⟩
    · simp only [halfEntries, List.forall_mem_cons]
      exact ⟨.integer short, .text (CodeText.unpaired_ofHalf _), List.forall_mem_nil _⟩
  exact load_desktopWith storable

/-- The user turns dark mode on and types three places. Both are saved, and the integer that was set stays, as
does the text. What is typed into the dialog when it is closed does not count. -/
theorem openSettings_accepted_dark :
    let edits : List DialogAction := [.check Settings.darkModeKey true, .fill Settings.placesKey " 3 "]
    let saved : Settings :=
      [(Settings.darkModeKey, .bool true), (Settings.showExpressionKey, .bool true),
        (Settings.evaluatePastedKey, .bool false), (Settings.placesKey, .integer 3),
        (Settings.debugKey, .bool false)] ++ halfEntries
    (openSettings (desktopWith halfEntries)
      (edits ++ [.ok, .fill (.ofHalf ⟨0xd800, by decide⟩) "7", .ok])).1.Saves (desktopWith halfEntries) saved := by
  intro edits saved
  have writable : (desktopWith halfEntries).settingsFile.Writable := ⟨rfl, nofun⟩
  have unpressed : ∀ action ∈ edits, action.isEdit = true := by decide
  obtain ⟨decided, -, kept⟩ := openSettings_accepted load_halfEntries rfl writable unpressed
  obtain ⟨found, chosen, -, saves⟩ := kept (decided.mpr (by decide))
  have same : found = saved := by
    refine List.right_unique_forall₂' ?_ chosen ?_
    · rintro old ⟨key, first⟩ ⟨_, second⟩ ⟨rfl, one⟩ ⟨rfl, other⟩
      exact Prod.ext rfl (one.unique other)
    · exact .cons ⟨rfl, .checked _ false true⟩ <| .cons ⟨rfl, .checked _ true true⟩ <|
        .cons ⟨rfl, .checked _ false false⟩ <| .cons ⟨rfl, .typed _ _ " 3 " 10 3 (by decide) rfl⟩ <|
        .cons ⟨rfl, .checked _ false false⟩ <| .cons ⟨rfl, .blank _ _ "" 5 rfl⟩ <|
        .cons ⟨rfl, .fixed rfl⟩ .nil
  exact same ▸ saves _

end Reckoner.Window
