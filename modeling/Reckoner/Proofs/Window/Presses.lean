import Reckoner.Proofs.Settings.Complete
import Reckoner.Proofs.Window.Widgets

/-!
# Presses of the OK button

A press is refused if a field is. Then nothing is saved, but the settings in the dialog already have what the
widgets in front of that field ask for. A press that is not refused saves all that the widgets ask for; a
field that is blank by then has the number that an earlier press took over from it.

Main results: `pressOk_refused`, `pressOk_accepted`, `actAll_refused`, `press_after_refused`.
-/

namespace Reckoner.Window

namespace Dialog

variable {dialog : Dialog} {widgets : Entries CodeText Widget}

/-- Is one of the widgets refused? -/
def isRefused (widgets : Entries CodeText Widget) : Bool := widgets.any fun (key, widget) => widget.isRefused key

theorem isRefused_eq_false : isRefused widgets = false ↔ ∀ entry ∈ widgets, entry.2.isRefused entry.1 = false := by
  simp [isRefused]

/-- The settings are distinct, and there are widgets for some of them, in their order. -/
structure Orderly (dialog : Dialog) : Prop where
  distinct : dialog.settings.Distinct
  sublist : (dialog.widgets.map (·.1)).Sublist (dialog.settings.map (·.1))

theorem orderly_plan {descriptions settings : Settings} (built : (plan descriptions settings).badLabel = none)
    (distinct : Entries.Distinct settings) : Orderly ⟨settings, (plan descriptions settings).widgets⟩ :=
  ⟨distinct, keys_plan built⟩

theorem Orderly.edit (orderly : dialog.Orderly) (action : DialogAction) : (dialog.edit action).Orderly := by
  rw [edit_eq]
  refine ⟨orderly.distinct, ?_⟩
  rw [keys_edited]
  exact orderly.sublist

theorem Orderly.replace (orderly : dialog.Orderly) (new? : CodeText → Option Value) :
    Orderly ⟨Entries.replace dialog.settings new?, dialog.widgets⟩ := by
  refine ⟨orderly.distinct.replace new?, ?_⟩
  rw [Entries.keys_replace]
  exact orderly.sublist

theorem Orderly.standing (orderly : dialog.Orderly) (actions : List DialogAction) :
    Orderly ⟨dialog.settings, standing dialog.widgets actions⟩ := by
  refine ⟨orderly.distinct, ?_⟩
  rw [keys_standing]
  exact orderly.sublist

theorem Orderly.takeOverAll (orderly : dialog.Orderly) :
    (takeOverAll dialog.settings dialog.widgets).1 =
      Entries.replace dialog.settings (asked? (accepted dialog.widgets)) :=
  takeOverAll_settings orderly.distinct (orderly.distinct.sublist orderly.sublist)
    fun _ member => orderly.sublist.subset member

end Dialog

open Dialog

variable {desktop : Desktop} {dialog : Dialog}

/-! ### Reactions that change nothing -/

/-- The reaction leaves the desktop as it was. Records and boxes are no part of the desktop. -/
structure Reaction.LeavesAlone (reaction : Reaction) (desktop : Desktop) : Prop where
  desktop : reaction.desktop = desktop
  failure : reaction.failure = none
  announced : reaction.announced = 0

theorem Reaction.LeavesAlone.quiet (desktop : Desktop) : (Reaction.quiet desktop).LeavesAlone desktop :=
  ⟨rfl, rfl, rfl⟩

theorem Reaction.LeavesAlone.tell (desktop : Desktop) (level : Int) (text : CodeText) :
    (desktop.tell level text).LeavesAlone desktop := ⟨rfl, rfl, rfl⟩

theorem Reaction.LeavesAlone.andThen_eq {first : Reaction} (alone : first.LeavesAlone desktop)
    (next : Desktop → Reaction) :
    first.andThen next =
      { next desktop with
        records := first.records ++ (next desktop).records
        boxes := first.boxes ++ (next desktop).boxes
        handedOn := first.handedOn ++ (next desktop).handedOn } := by
  unfold Reaction.andThen
  simp [alone.failure, alone.desktop, alone.announced]

theorem Reaction.LeavesAlone.andThen {first : Reaction} (alone : first.LeavesAlone desktop)
    (next : Desktop → Reaction) (then_alone : (next desktop).LeavesAlone desktop) :
    (first.andThen next).LeavesAlone desktop := by
  rw [alone.andThen_eq]
  exact ⟨then_alone.desktop, then_alone.failure, then_alone.announced⟩

theorem tellSkipped_leavesAlone (desktop : Desktop) (keys : List CodeText) :
    (tellSkipped desktop keys).LeavesAlone desktop := by
  suffices runs : ∀ reaction : Reaction, reaction.LeavesAlone desktop →
      (keys.foldl (fun reaction key =>
        reaction.andThen (·.tell Log.warningLevel (skippedMessage key))) reaction).LeavesAlone desktop from
    runs _ (.quiet desktop)
  induction keys with
  | nil => exact fun _ alone => alone
  | cons key rest ih => exact fun _ alone => ih _ (alone.andThen _ (.tell desktop _ _))

/-! ### One press -/

/-- A refused press leaves the desktop alone and the dialog open. The settings in the dialog have what the
widgets in front of the refused field ask for. -/
theorem pressOk_refused (desktop : Desktop) (orderly : dialog.Orderly) (refused : isRefused dialog.widgets = true) :
    (pressOk desktop ⟨dialog, none⟩).1.LeavesAlone desktop ∧
      (pressOk desktop ⟨dialog, none⟩).2 =
        ⟨⟨Entries.replace dialog.settings (asked? (accepted dialog.widgets)), dialog.widgets⟩, none⟩ := by
  have settings := orderly.takeOverAll
  unfold pressOk
  cases stopped : (takeOverAll dialog.settings dialog.widgets).2 with
  | none =>
    rw [takeOverAll_none, ← isRefused_eq_false, refused] at stopped
    cases stopped
  | some refusal =>
    simp only [stopped, settings]
    exact ⟨⟨rfl, rfl, rfl⟩, trivial⟩

/-- The desktop once settings are saved and have taken effect. -/
def Desktop.withSaved (desktop : Desktop) (settings : Settings) : Desktop :=
  { desktop with
    settingsFile := (desktop.settingsFile.save (.object settings)).1
    window := { desktop.window with settings := settings }
    log := desktop.log.setLevel Log.programLogger (levelFor settings) }

/-- A press that is not refused saves what all widgets ask for, announces it once and closes the dialog. -/
theorem pressOk_accepted (orderly : dialog.Orderly) (complete : Settings.Complete dialog.settings)
    (writable : desktop.settingsFile.Writable) (taken : isRefused dialog.widgets = false) :
    pressOk desktop ⟨dialog, none⟩ =
      ({ Reaction.quiet (desktop.withSaved (Entries.replace dialog.settings (asked? dialog.widgets))) with
        announced := 1 },
      ⟨⟨Entries.replace dialog.settings (asked? dialog.widgets), dialog.widgets⟩, some .accepted⟩) := by
  have settings := orderly.takeOverAll
  rw [accepted_of_none_refused (isRefused_eq_false.mp taken)] at settings
  have stopped := (takeOverAll_none dialog.settings).mpr (isRefused_eq_false.mp taken)
  have replaced := complete.replace (asked? dialog.widgets) fun _ _ => storable_of_asked?
  obtain ⟨finished, -, loaded⟩ := SettingsFile.load_saved writable replaced
  -- Saved settings are not empty, so the answer is not taken for that of a failed save.
  obtain ⟨first, rest, nonempty⟩ := List.exists_cons_of_ne_nil replaced.ne_nil
  unfold pressOk
  simp only [settings, stopped, finished]
  rw [nonempty] at loaded ⊢
  simp only [SettingsFile.saved, Except.map, announceSaved, applySettings, loaded]
  rfl

/-! ### Runs of presses -/

theorem actAll_append (reaction : Reaction) (opened : OpenDialog) (first second : List DialogAction) :
    actAll reaction opened (first ++ second) =
      actAll (actAll reaction opened first).1 (actAll reaction opened first).2 second := by
  induction first generalizing reaction opened with
  | nil => rfl
  | cons action rest ih =>
    rw [List.cons_append, actAll, actAll]
    split
    next failed =>
      cases second with
      | nil => rfl
      | cons => rw [actAll, if_pos failed]
    next => exact ih _ _

/-- Is the action one on a widget? -/
def DialogAction.isEdit : DialogAction → Bool
  | check _ _ | fill _ _ => true
  | ok | cancel => false

theorem act_edit {action : DialogAction} (edits : action.isEdit = true) (desktop : Desktop) (opened : OpenDialog) :
    act desktop opened action = (.quiet desktop, { opened with dialog := opened.dialog.edit action }) := by
  cases action with
  | check key on => rfl
  | fill key text => rfl
  | ok => cases edits
  | cancel => cases edits

/-- The widgets as they stand at each press of the OK button. -/
def Dialog.presses (widgets : Entries CodeText Widget) : List DialogAction → List (Entries CodeText Widget)
  | [] => []
  | action :: rest =>
    (if action = .ok then [widgets] else []) ++ presses (edited widgets action) rest

/-- What was asked for under a key at the last of the presses that took it over. -/
def Dialog.lastAsked? (presses : List (Entries CodeText Widget)) (key : CodeText) : Option Value :=
  presses.reverse.findSome? fun widgets => asked? (accepted widgets) key

theorem Dialog.lastAsked?_cons (first : Entries CodeText Widget) (rest : List (Entries CodeText Widget)) (key : CodeText) :
    lastAsked? (first :: rest) key = (lastAsked? rest key).or (asked? (accepted first) key) := by
  simp [lastAsked?, List.findSome?_append]

theorem Dialog.storable_of_lastAsked? {presses : List (Entries CodeText Widget)} {key : CodeText} {value : Value}
    (asks : lastAsked? presses key = some value) : Value.Storable value := by
  obtain ⟨widgets, -, asks⟩ := List.exists_of_findSome?_eq_some asks
  exact storable_of_asked? asks

theorem actAll_cons {reaction : Reaction} (alone : reaction.LeavesAlone desktop) (opened : OpenDialog)
    (action : DialogAction) (rest : List DialogAction) :
    actAll reaction opened (action :: rest) =
      actAll (reaction.andThen fun _ => (act desktop opened action).1) (act desktop opened action).2 rest := by
  rw [actAll, alone.failure, alone.desktop]
  rfl

/-- While every press is refused, the desktop is left alone and the dialog stays open. The settings in the
dialog have what was asked for last. -/
theorem actAll_refused {reaction : Reaction} {actions : List DialogAction}
    (alone : reaction.LeavesAlone desktop) (orderly : dialog.Orderly) (stays : .cancel ∉ actions)
    (refused : ∀ widgets ∈ presses dialog.widgets actions, isRefused widgets = true) :
    (actAll reaction ⟨dialog, none⟩ actions).1.LeavesAlone desktop ∧
      (actAll reaction ⟨dialog, none⟩ actions).2 =
        ⟨⟨Entries.replace dialog.settings (lastAsked? (presses dialog.widgets actions)),
          standing dialog.widgets actions⟩, none⟩ := by
  induction actions generalizing reaction dialog with
  | nil =>
    refine ⟨alone, ?_⟩
    show _ = (⟨⟨Entries.replace dialog.settings fun _ => none, _⟩, none⟩ : OpenDialog)
    rw [Entries.replace_none]
    rfl
  | cons action rest ih =>
    rw [List.mem_cons, not_or] at stays
    obtain ⟨here, later⟩ := stays
    rw [actAll_cons alone]
    cases kind : action.isEdit with
    | true =>
      have unpressed : action ≠ .ok := by
        rintro rfl
        cases kind
      have now : presses dialog.widgets (action :: rest) = presses (edited dialog.widgets action) rest := by
        rw [presses, if_neg unpressed, List.nil_append]
      have edit := edit_eq dialog action
      have again := orderly.edit action
      rw [act_edit kind, now]
      rw [now] at refused
      rw [edit] at again ⊢
      exact ih (alone.andThen _ (.quiet desktop)) again later refused
    | false =>
      cases action with
      | check => cases kind
      | fill => cases kind
      | cancel => exact absurd rfl here
      | ok =>
        -- A refused press leaves its mark in the dialog alone.
        have now : presses dialog.widgets (.ok :: rest) = dialog.widgets :: presses dialog.widgets rest := rfl
        rw [now, List.forall_mem_cons] at refused
        have press : act desktop ⟨dialog, none⟩ .ok = pressOk desktop ⟨dialog, none⟩ := rfl
        obtain ⟨silent, left⟩ := pressOk_refused desktop orderly refused.1
        rw [press, left, now]
        obtain ⟨still, settings⟩ := ih (alone.andThen (fun _ => (pressOk desktop _).1) silent)
          (orderly.replace (asked? (accepted dialog.widgets))) later refused.2
        refine ⟨still, settings.trans ?_⟩
        rw [Entries.replace_replace, funext (lastAsked?_cons dialog.widgets _)]
        rfl

/-! ### A press after refused ones -/

/-- The dialog for these settings after some actions, and the reaction to them. -/
def acted (desktop : Desktop) (descriptions settings : Settings) (actions : List DialogAction) :
    Reaction × OpenDialog :=
  let plan := Dialog.plan descriptions settings
  actAll (tellSkipped desktop plan.skipped) ⟨⟨settings, plan.widgets⟩, none⟩ actions

section

variable {settings descriptions : Settings} {notices others : List SettingsFile.Notice}
  {actions : List DialogAction}

theorem openSettings_eq (loaded : desktop.settingsFile.load Settings.defaults = .ok (settings, notices))
    (described : desktop.descriptionsFile.load Settings.defaultDescriptions = .ok (descriptions, others))
    (built : (plan descriptions settings).badLabel = none) (actions : List DialogAction) :
    openSettings desktop actions =
      ((acted desktop descriptions settings actions).1,
        some ⟨(plan descriptions settings).widgets, isDark settings,
          (acted desktop descriptions settings actions).2.outcome⟩) := by
  unfold openSettings
  rw [loaded, described]
  simp only [built]
  rfl

/-- While every press is refused, the dialog has the loaded settings with what was asked for last. -/
theorem acted_refused (loaded : desktop.settingsFile.load Settings.defaults = .ok (settings, notices))
    (built : (plan descriptions settings).badLabel = none) (stays : .cancel ∉ actions)
    (refused : ∀ widgets ∈ presses (plan descriptions settings).widgets actions, isRefused widgets = true) :
    (acted desktop descriptions settings actions).1.LeavesAlone desktop ∧
      (acted desktop descriptions settings actions).2 =
        ⟨⟨Entries.replace settings (lastAsked? (presses (plan descriptions settings).widgets actions)),
          standing (plan descriptions settings).widgets actions⟩, none⟩ :=
  actAll_refused (tellSkipped_leavesAlone desktop _)
    (orderly_plan built (SettingsFile.complete_of_load loaded).distinct) stays refused

/-- The next press meets the dialog that was left. -/
theorem acted_append_ok (alone : (acted desktop descriptions settings actions).1.LeavesAlone desktop)
    (left : (acted desktop descriptions settings actions).2 = ⟨dialog, none⟩) (later : List DialogAction) :
    acted desktop descriptions settings (actions ++ .ok :: later) =
      actAll ((acted desktop descriptions settings actions).1.andThen fun _ => (pressOk desktop ⟨dialog, none⟩).1)
        (pressOk desktop ⟨dialog, none⟩).2 later := by
  rw [acted, actAll_append]
  change actAll (acted desktop descriptions settings actions).1 (acted desktop descriptions settings actions).2 _ = _
  rw [left, actAll_cons alone]
  rfl

/-- While every press is refused, nothing changes but the settings in the dialog. One more press that is
refused leaves its mark in them, too. A press that is accepted saves the settings that were loaded, with what
the widgets ask for as they stand then; for a field that is blank by then the number counts that was taken over
from it last. So what fields held at refused presses makes no difference exactly if each field that is blank
by then was blank, or held the number that was loaded, when it was taken over last. -/
theorem press_after_refused (loaded : desktop.settingsFile.load Settings.defaults = .ok (settings, notices))
    (described : desktop.descriptionsFile.load Settings.defaultDescriptions = .ok (descriptions, others))
    (built : (plan descriptions settings).badLabel = none) (stays : .cancel ∉ actions)
    (refused : ∀ widgets ∈ presses (plan descriptions settings).widgets actions, isRefused widgets = true) :
    let now := standing (plan descriptions settings).widgets actions
    let before := lastAsked? (presses (plan descriptions settings).widgets actions)
    let saved := Entries.replace settings fun key => (asked? now key).or (before key)
    ((openSettings desktop actions).1.desktop = desktop ∧
        (acted desktop descriptions settings actions).2 = ⟨⟨Entries.replace settings before, now⟩, none⟩) ∧
      (isRefused now = true →
        (openSettings desktop (actions ++ [.ok])).1.desktop = desktop ∧
          (acted desktop descriptions settings (actions ++ [.ok])).2 =
            ⟨⟨Entries.replace settings fun key => (asked? (accepted now) key).or (before key), now⟩, none⟩) ∧
      (isRefused now = false → desktop.settingsFile.Writable →
        (openSettings desktop (actions ++ [.ok])).2.map (·.outcome) = some (some .accepted) ∧
          (openSettings desktop (actions ++ [.ok])).1.desktop = desktop.withSaved saved ∧
          (desktop.withSaved saved).settingsFile.Holds saved ∧
          (saved = Entries.replace settings (asked? now) ↔
            ∀ entry ∈ settings, asked? now entry.1 = none → (before entry.1).getD entry.2 = entry.2)) := by
  intro now before saved
  have complete := SettingsFile.complete_of_load loaded
  have orderly := orderly_plan built complete.distinct
  obtain ⟨alone, left⟩ := acted_refused loaded built stays refused
  have again : Orderly ⟨Entries.replace settings before, now⟩ := (orderly.replace before).standing actions
  have last := acted_append_ok alone left []
  simp only [openSettings_eq loaded described built, last]
  refine ⟨⟨alone.desktop, left⟩, fun stopped => ?_, fun taken writable => ?_⟩
  · obtain ⟨silent, marked⟩ := pressOk_refused desktop again stopped
    refine ⟨(alone.andThen (fun _ => (pressOk desktop _).1) silent).desktop, ?_⟩
    rw [marked, Entries.replace_replace]
    rfl
  · have marked := complete.replace before fun _ _ => storable_of_lastAsked?
    have replaced := marked.replace (asked? now) fun _ _ => storable_of_asked?
    rw [Entries.replace_replace] at replaced
    rw [pressOk_accepted again marked writable taken, Entries.replace_replace, alone.andThen_eq]
    refine ⟨rfl, rfl, (SettingsFile.load_saved writable replaced).2.1, ?_⟩
    -- The two differ at a field that is blank now, if anywhere.
    rw [Entries.replace_eq_replace]
    refine forall₂_congr fun entry _ => ?_
    cases asked? now entry.1 with
    | none => simp
    | some value => simp

end

/-- A desktop whose settings file holds these entries. -/
def desktopWith (entries : Settings) : Desktop :=
  ⟨⟨Settings.defaults.update entries, .ofText "", "", "", "", false⟩,
    (SettingsFile.absent.save (.object entries)).1, .absent, ⟨"", none⟩, .usual, .initial⟩

theorem load_desktopWith {entries : Settings} (storable : Value.Storable (.object entries)) :
    (desktopWith entries).settingsFile.load Settings.defaults = .ok (Settings.defaults.update entries, []) :=
  SettingsFile.load_of_holds (SettingsFile.save_storable SettingsFile.writable_absent storable).2 Settings.defaults

def sizeEntry : CodeText × Value := ("size", .integer 5)

/-- A desktop whose settings file has one more integer than the defaults. -/
def desktopWithSize : Desktop := desktopWith [sizeEntry]

theorem load_desktopWithSize :
    desktopWithSize.settingsFile.load Settings.defaults =
      .ok (Settings.defaults ++ [sizeEntry], []) := by
  have short : digitCount (5 : Int).natAbs ≤ Text.digitLimit := by decide
  have storable : Value.Storable (.object [sizeEntry]) :=
    .object (by simp [Entries.Distinct]) (List.forall_mem_singleton.mpr (CodeText.unpaired_ofString _))
      (List.forall_mem_singleton.mpr (.integer short))
  exact load_desktopWith storable

/-- The user types seven places and no size, is refused, and blanks both fields. -/
def blankedAfterRefusal : List DialogAction :=
  [.fill Settings.placesKey "7", .fill "size" "x", .ok, .fill Settings.placesKey "", .fill "size" ""]

/-- The next press saves seven places, although ten were loaded and the field is blank. -/
theorem press_after_refused_blank :
    let settings := Settings.defaults ++ [sizeEntry]
    let now := standing (plan Settings.defaultDescriptions settings).widgets blankedAfterRefusal
    (openSettings desktopWithSize blankedAfterRefusal).1.desktop = desktopWithSize ∧
      asked? now Settings.placesKey = none ∧
      Entries.get? settings Settings.placesKey = some (.integer 10) ∧
      ∃ saved, Entries.get? saved Settings.placesKey = some (.integer 7) ∧
        (openSettings desktopWithSize (blankedAfterRefusal ++ [.ok])).1.desktop.settingsFile.Holds saved := by
  intro settings now
  have refused : ∀ widgets ∈ presses (plan Settings.defaultDescriptions settings).widgets blankedAfterRefusal,
      isRefused widgets = true := by decide
  have law := press_after_refused load_desktopWithSize rfl rfl (by decide) refused
  obtain ⟨⟨same, -⟩, -, accepted⟩ := law
  obtain ⟨-, after, holds, -⟩ := accepted (by decide) ⟨rfl, nofun⟩
  refine ⟨same, by decide, rfl, _, ?_, after ▸ holds⟩
  rfl

end Reckoner.Window
