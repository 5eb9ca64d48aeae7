import Reckoner.Program
import Reckoner.Proofs.Log.Hierarchy
import Reckoner.Proofs.Window.Chosen
import Reckoner.Proofs.Window.History

/-!
# What is logged after settings are changed

The program sets up its log once, by the settings that it finds. Settings that are changed in the window give
its logger another level, but not the handler. So a record passes if both the settings at the start and those
of now let it: debugging that is turned off in the window is off, and debugging that is turned on needs a new
start.

Main results: `steady_logs`, `written_after_changes`.
-/

namespace Reckoner.Window

/-! ### The level of the program's logger -/

theorem levelFor_pos (settings : Settings) : 0 < levelFor settings := by
  unfold levelFor
  split <;> decide

/-- The log was set up at the start level, and the program's logger has the level that the settings of the window
ask for. -/
def Logs (start : Int) (desktop : Desktop) : Prop :=
  Log.SetUpAt desktop.log start (levelFor desktop.window.settings)

variable {start : Int} {desktop : Desktop}

/-- Whatever happens, the handler keeps its level, and the program's logger follows the settings. -/
theorem steady_logs (start : Int) : Steady (Logs start) where
  saved _ logs := logs
  applied settings logs := Log.SetUpAt.setLevel logs (levelFor settings)
  window same logs := by
    rw [Logs, Desktop.setWindow, same]
    exact logs
  clipboard _ logs := logs
  described _ logs := logs

/-! ### From the start on -/

/-- The log that the settings ask for. -/
theorem logFor_eq (settings : Settings) :
    ∃ log, Program.logFor settings none = .ok log ∧ Log.SetUpAt log (levelFor settings) (levelFor settings) := by
  refine Log.setUpAt_of_levelOf ?_
  unfold levelFor
  cases settings.isOn Settings.debugKey <;> decide

variable {settingsFile descriptionsFile : SettingsFile} {clipboard : String} {keyboard : Keyboard} {first : Settings}
  {log : Log.Hierarchy}

theorem logs_of_start (prepared : Program.prepare settingsFile none = .ok (first, log))
    (started : Desktop.start settingsFile descriptionsFile clipboard keyboard log = .ok desktop) :
    Logs (levelFor first) desktop := by
  unfold Program.prepare at prepared
  unfold Desktop.start at started
  cases loaded : settingsFile.load Settings.defaults with
  | error cause =>
    rw [loaded] at started
    cases started
  | ok result =>
    -- The window loads the settings that the log was set up by.
    obtain ⟨found, finished, setUp⟩ := logFor_eq result.1
    rw [loaded] at prepared started
    simp only [Except.mapError, ok_bind, pure_eq_ok, finished] at prepared
    cases prepared
    cases started
    exact setUp

theorem levelFor_le_iff {first current : Settings} :
    levelFor first ≤ levelFor current ↔
      (current.isOn Settings.debugKey = true → first.isOn Settings.debugKey = true) := by
  unfold levelFor
  cases current.isOn Settings.debugKey <;> cases first.isOn Settings.debugKey <;> decide

/-- An accepted press gives the settings that it saves effect. -/
theorem run_saved {settings descriptions : Settings} {notices others : List SettingsFile.Notice}
    {edits : List DialogAction} (loaded : desktop.settingsFile.load Settings.defaults = .ok (settings, notices))
    (described : desktop.descriptionsFile.load Settings.defaultDescriptions = .ok (descriptions, others))
    (built : (Dialog.plan descriptions settings).badLabel = none) (writable : desktop.settingsFile.Writable)
    (unpressed : ∀ action ∈ edits, action.isEdit = true)
    (taken : Dialog.isRefused (Dialog.standing (Dialog.plan descriptions settings).widgets edits) = false) :
    desktop.run [.user (.changeSettings (edits ++ [.ok]))] =
      desktop.withSaved (Entries.replace settings
        (Dialog.asked? (Dialog.standing (Dialog.plan descriptions settings).widgets edits))) := by
  have complete := SettingsFile.complete_of_load loaded
  have orderly := (Dialog.orderly_plan built complete.distinct).standing edits
  obtain ⟨alone, left⟩ := acted_edits loaded built unpressed
  show (openSettings desktop (edits ++ [.ok])).1.desktop = _
  rw [openSettings_eq loaded described built, acted_append_ok alone left,
    pressOk_accepted orderly complete writable taken, alone.andThen_eq]
  rfl

/-- After any events, a record of the program is written if the settings that the program started with and those
of the window let it through. A program that starts with the settings of the window asks those alone. So the
settings of the window have the effect of a new start, unless they turn debugging on that was off at the start. -/
theorem written_after_changes (prepared : Program.prepare settingsFile none = .ok (first, log))
    (started : Desktop.start settingsFile descriptionsFile clipboard keyboard log = .ok desktop) (events : List Event) :
    let after := desktop.run events
    let current := after.window.settings
    ∃ fresh, Program.logFor current none = .ok fresh ∧
      (∀ time record, Log.OfProgram record.logger →
        fresh.write time record = (if levelFor current ≤ record.level then [record.line time] else []) ∧
          after.log.write time record =
            if levelFor first ≤ record.level ∧ levelFor current ≤ record.level then [record.line time] else []) ∧
      ((∀ time record, Log.OfProgram record.logger → after.log.write time record = fresh.write time record) ↔
        (current.isOn Settings.debugKey = true → first.isOn Settings.debugKey = true)) := by
  intro after current
  obtain ⟨fresh, finished, setUp⟩ := logFor_eq current
  -- The handler is as at the start, the logger as in a new program.
  have logs := (steady_logs _).run (logs_of_start prepared started) events
  have anew (time : String) {record : Log.Record} (own : Log.OfProgram record.logger) :
      fresh.write time record = if levelFor current ≤ record.level then [record.line time] else [] := by
    simp only [setUp.write_eq (levelFor_pos _) own time, and_self]
  have now (time : String) {record : Log.Record} (own : Log.OfProgram record.logger) :=
    logs.write_eq (levelFor_pos _) own time
  refine ⟨fresh, finished, fun time record own => ⟨anew time own, now time own⟩, ?_⟩
  rw [← levelFor_le_iff]
  constructor
  · intro same
    -- A record of the lowest level that the settings let through tells the two logs apart.
    let record : Log.Record := ⟨Log.programLogger, levelFor current, ""⟩
    have own : Log.OfProgram record.logger := List.mem_cons_self
    have both := same "" record own
    rw [now "" own, anew "" own, if_pos (Int.le_refl _)] at both
    by_contra higher
    rw [if_neg fun passes => higher passes.1] at both
    cases both
  · intro lower time record own
    rw [now time own, anew time own]
    by_cases passes : levelFor current ≤ record.level
    · rw [if_pos ⟨Int.le_trans lower passes, passes⟩, if_pos passes]
    · rw [if_neg fun both => passes both.2, if_neg passes]

/-- Debugging is off when the program starts without files, and is turned on in the window. A record for debugging
is not written then, but would be after a new start. -/
theorem written_after_changes_debug :
    let edits : List DialogAction := [.check Settings.debugKey true]
    let record : Log.Record := ⟨logger, Log.debugLevel, "1+1"⟩
    ∃ log desktop fresh, Program.prepare .absent none = .ok (Settings.defaults, log) ∧
      Desktop.start .absent .absent "" .usual log = .ok desktop ∧
      let after := desktop.run [.user (.changeSettings (edits ++ [.ok]))]
      after.window.settings.isOn Settings.debugKey = true ∧
        Program.logFor after.window.settings none = .ok fresh ∧
        after.log.write "" record = [] ∧ fresh.write "" record = [record.line ""] := by
  intro edits record
  obtain ⟨log, prepared⟩ : ∃ log, Program.prepare .absent none = .ok (Settings.defaults, log) := ⟨_, rfl⟩
  let desktop : Desktop :=
    ⟨⟨Settings.defaults, .ofText "", "", "", "", false⟩, .absent, .absent, ⟨"", none⟩, .usual, log⟩
  have started : Desktop.start .absent .absent "" .usual log = .ok desktop := rfl
  -- The press is accepted, so the window has the settings that the widgets ask for.
  obtain ⟨notices, loaded⟩ : ∃ notices, desktop.settingsFile.load Settings.defaults =
      .ok (Settings.defaults, notices) := ⟨_, rfl⟩
  obtain ⟨others, described⟩ : ∃ others, desktop.descriptionsFile.load Settings.defaultDescriptions =
      .ok (Settings.defaultDescriptions, others) := ⟨_, rfl⟩
  have unpressed : ∀ action ∈ edits, action.isEdit = true := by decide
  have saved := run_saved loaded described rfl SettingsFile.writable_absent unpressed (by decide)
  have debugging : (desktop.run [.user (.changeSettings (edits ++ [.ok]))]).window.settings.isOn
      Settings.debugKey = true := by
    rw [saved]
    rfl
  obtain ⟨fresh, finished, written, -⟩ :=
    written_after_changes prepared started [.user (.changeSettings (edits ++ [.ok]))]
  obtain ⟨anew, now⟩ := written "" record (by decide)
  refine ⟨log, desktop, fresh, prepared, started, debugging, finished, now.trans (if_neg ?_), anew.trans (if_pos ?_)⟩
  · exact fun both => absurd both.1 (by decide)
  · rw [levelFor, debugging]
    exact Int.le_refl _

end Reckoner.Window
