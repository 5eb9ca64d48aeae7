import Reckoner.Log.Setup
import Reckoner.Proofs.Log.Below

/-!
# Levels in the hierarchy of loggers

Setting up the log gives the program's own logger and the one handler the same level. A logger below the
program's own has the level of that one, since no logger between them has its own. A record of it is written
if both that level and the handler let it through.

Main results: `effectiveLevel_eq`, `SetUpAt.write_eq`, `setUp_of_levelOf`.
-/

namespace Reckoner.Log

namespace Hierarchy

/-! ### Own levels -/

theorem ownLevel_setLevel_self (log : Hierarchy) {name : String} (named : name ≠ "" ∧ name ≠ rootName)
    (level : Int) : (log.setLevel name level).ownLevel name = level := by
  simp [ownLevel, setLevel, named.1, named.2]

theorem ownLevel_setLevel_other (log : Hierarchy) {name other : String} (apart : other ≠ name) (level : Int) :
    (log.setLevel name level).ownLevel other = log.ownLevel other := by
  -- Of the entries that are replaced, none is the other logger's.
  have kept : (fun entry : String × Int => decide ((entry.1 != name) = true ∧ (entry.1 == other) = true)) =
      (·.1 == other) := by
    funext entry
    by_cases own : entry.1 = other
    · simp [own, apart]
    · simp [own]
  unfold ownLevel setLevel
  rw [List.find?_cons_of_neg (by simpa using apart.symm), List.find?_filter, kept]

theorem ownLevel_setLevels (log : Hierarchy) {names : List String}
    (named : ∀ name ∈ names, name ≠ "" ∧ name ≠ rootName) (level : Int) (logger : String) :
    (names.foldl (fun log name => log.setLevel name level) log).ownLevel logger =
      if logger ∈ names then level else log.ownLevel logger := by
  induction names generalizing log with
  | nil => simp
  | cons name names ih =>
    obtain ⟨here, later⟩ := List.forall_mem_cons.mp named
    rw [List.foldl_cons, ih _ later]
    by_cases same : logger = name
    · simp [same, log.ownLevel_setLevel_self here level]
    · simp [same, log.ownLevel_setLevel_other same level]

/-- Loggers other than the root have their levels to themselves. -/
theorem ownLevel_withRoot (log : Hierarchy) {name : String} (named : name ≠ "" ∧ name ≠ rootName) (level : Int)
    (handlers : List Int) :
    ({ log with root := level, handlers := handlers } : Hierarchy).ownLevel name = log.ownLevel name := by
  simp [ownLevel, named.1, named.2]

/-! ### Loggers above -/

/-- The name of a logger begins with the names of those above it. -/
theorem prefix_of_ancestor {logger name : String} (above : name ∈ ancestors logger) :
    name ≠ "" ∧ name.toList <+: logger.toList := by
  obtain ⟨named, pairs, rest, -, whole⟩ := mem_ancestors_iff.mp above
  exact ⟨named, _, whole.symm⟩

theorem head?_of_within {logger name : String} (within : name ∈ logger :: ancestors logger) (named : name ≠ "") :
    name.toList.head? = logger.toList.head? := by
  rcases List.mem_cons.mp within with rfl | above
  · rfl
  · obtain ⟨-, rest, whole⟩ := prefix_of_ancestor above
    rw [← whole, List.head?_append_of_ne_nil _ (by simpa using named)]

/-- The one logger with a level of its own decides for all loggers below it. -/
theorem effectiveLevel_eq {log : Hierarchy} {logger name : String} (within : name ∈ logger :: ancestors logger)
    (own : log.ownLevel name ≠ 0)
    (others : ∀ other ∈ logger :: ancestors logger, other ≠ name → log.ownLevel other = 0) :
    log.effectiveLevel logger = log.ownLevel name := by
  suffices found : ∀ names : List String, name ∈ names →
      (∀ other ∈ names, other ≠ name → log.ownLevel other = 0) →
        (names.map log.ownLevel).find? (· != 0) = some (log.ownLevel name) by
    rw [effectiveLevel, found _ within others]
    rfl
  intro names
  induction names with
  | nil => exact fun member => nomatch member
  | cons first rest ih =>
    intro member silent
    by_cases here : first = name
    · rw [List.map_cons, here, List.find?_cons_of_pos (by simpa using own)]
    · rw [List.map_cons, silent first List.mem_cons_self here, List.find?_cons_of_neg (by simp)]
      exact ih (List.mem_of_ne_of_mem (Ne.symm here) member) fun other later =>
        silent other (List.mem_cons_of_mem first later)

/-- If no logger above has another level than the root, that level decides. -/
theorem effectiveLevel_eq_root {log : Hierarchy} {logger : String}
    (same : ∀ name ∈ logger :: ancestors logger, log.ownLevel name = 0 ∨ log.ownLevel name = log.root) :
    log.effectiveLevel logger = log.root := by
  rw [effectiveLevel]
  cases found : ((logger :: ancestors logger).map log.ownLevel).find? (· != 0) with
  | none => rfl
  | some level =>
    obtain ⟨name, within, own⟩ := List.mem_map.mp (List.mem_of_find?_eq_some found)
    have nonzero : level ≠ 0 := by simpa using List.find?_some found
    rw [Option.getD_some, ← own]
    exact (same name within).resolve_left (own ▸ nonzero)

end Hierarchy

/-! ### A log that was set up -/

/-- The logger is the program's own one, or below it. -/
def OfProgram (logger : String) : Prop := programLogger ∈ logger :: Hierarchy.ancestors logger

instance (logger : String) : Decidable (OfProgram logger) :=
  inferInstanceAs (Decidable (programLogger ∈ logger :: Hierarchy.ancestors logger))

/-- The log was set up at a start level; by now the program's own logger has this level. -/
structure SetUpAt (log : Hierarchy) (start level : Int) : Prop where
  handlers : log.handlers = [start]
  program : log.ownLevel programLogger = level
  others : ∀ name, name ∉ "" :: rootName :: programLogger :: mutedLoggers → log.ownLevel name = 0

variable {log : Hierarchy} {start level : Int}

/-- Another level for the program's own logger leaves all else as it was set up. -/
theorem SetUpAt.setLevel (setUp : SetUpAt log start level) (next : Int) :
    SetUpAt (log.setLevel programLogger next) start next where
  handlers := setUp.handlers
  program := log.ownLevel_setLevel_self (by decide) next
  others := by
    intro name apart
    have other : name ≠ programLogger := by
      rintro rfl
      exact apart (by simp)
    rw [log.ownLevel_setLevel_other other]
    exact setUp.others name apart

/-- No logger between one that has a level and one below it has a level of its own. -/
theorem SetUpAt.silent_between (setUp : SetUpAt log start level) {logger name other : String}
    (named : name ∈ programLogger :: mutedLoggers) (within : name ∈ logger :: Hierarchy.ancestors logger)
    (between : other ∈ logger :: Hierarchy.ancestors logger) (apart : other ≠ name) : log.ownLevel other = 0 := by
  -- Their names all begin alike, and those of the loggers with levels do not.
  have distinct : ∀ name ∈ programLogger :: mutedLoggers, ∀ other ∈ rootName :: programLogger :: mutedLoggers,
      other.toList.head? = name.toList.head? → other = name := by decide
  have letters : ∀ name ∈ programLogger :: mutedLoggers, name ≠ "" ∧ name.toList.head? ≠ none := by decide
  have begins := Hierarchy.head?_of_within within (letters name named).1
  refine setUp.others other fun member => ?_
  rcases List.mem_cons.mp member with rfl | known
  · rcases List.mem_cons.mp between with rfl | above
    · exact (letters name named).2 begins
    · exact (Hierarchy.prefix_of_ancestor above).1 rfl
  · have other_named : other ≠ "" := by
      rintro rfl
      exact absurd known (by decide)
    exact apart (distinct name named other known ((Hierarchy.head?_of_within between other_named).trans begins.symm))

/-- The program's level decides for the loggers below its own. -/
theorem SetUpAt.effectiveLevel_eq (setUp : SetUpAt log start level) (positive : 0 < level) {logger : String}
    (own : OfProgram logger) : log.effectiveLevel logger = level := by
  have program : log.ownLevel programLogger ≠ 0 := by
    rw [setUp.program]
    omega
  rw [← setUp.program]
  exact Hierarchy.effectiveLevel_eq own program fun other between apart =>
    setUp.silent_between List.mem_cons_self own between apart

/-- A record of the program is written once if its logger and the handler let it through. -/
theorem SetUpAt.write_eq (setUp : SetUpAt log start level) (positive : 0 < level) {record : Record}
    (own : OfProgram record.logger) (time : String) :
    log.write time record =
      if start ≤ record.level ∧ level ≤ record.level then [record.line time] else [] := by
  rw [Hierarchy.write, Hierarchy.isEnabled, setUp.effectiveLevel_eq positive own, setUp.handlers]
  -- A level that the handler takes is positive, as every level that is taken from a logger has to be.
  by_cases taken : start ≤ record.level
  · by_cases enabled : level ≤ record.level
    · have above : 0 < record.level := by omega
      simp [taken, enabled, above]
    · simp [enabled]
  · simp [taken]

/-! ### Setting up -/

/-- What setting up the log at a level changes. -/
structure SetUpFrom (before after : Hierarchy) (level : Int) : Prop where
  root : after.root = level
  handlers : after.handlers = [level]
  program : after.ownLevel programLogger = level
  muted : ∀ name ∈ mutedLoggers, after.ownLevel name = warningLevel
  others : ∀ name, name ∉ "" :: rootName :: programLogger :: mutedLoggers →
    after.ownLevel name = before.ownLevel name

theorem setUp_of_levelOf (before : Hierarchy) {name : String} {environment : Option String} {level : Int}
    (named : levelOf (environment.getD name) = .ok level) :
    ∃ after, setUp before name environment = .ok after ∧ SetUpFrom before after level := by
  have muted_named : ∀ name ∈ mutedLoggers, name ≠ "" ∧ name ≠ rootName := by decide
  have muted_other : ∀ name ∈ mutedLoggers, name ≠ programLogger := by decide
  rw [setUp, named]
  refine ⟨_, rfl, rfl, rfl, ?_, fun quiet member => ?_, fun other apart => ?_⟩
  · rw [Hierarchy.ownLevel_withRoot _ (by decide), Hierarchy.ownLevel_setLevel_self _ (by decide)]
  · rw [Hierarchy.ownLevel_withRoot _ (muted_named quiet member),
      Hierarchy.ownLevel_setLevel_other _ (muted_other quiet member),
      Hierarchy.ownLevel_setLevels _ muted_named, if_pos member]
  · simp only [List.mem_cons, not_or] at apart
    obtain ⟨notEmpty, notRoot, notProgram, notMuted⟩ := apart
    rw [Hierarchy.ownLevel_withRoot _ ⟨notEmpty, notRoot⟩, Hierarchy.ownLevel_setLevel_other _ notProgram,
      Hierarchy.ownLevel_setLevels _ muted_named, if_neg notMuted]

/-- The log has just been set up: all but the muted loggers are at the level asked for. -/
structure Ready (log : Hierarchy) (level : Int) : Prop extends SetUpAt log level level where
  root : log.root = level
  muted : ∀ name ∈ mutedLoggers, log.ownLevel name = warningLevel

/-- No logger apart from those that are set up has a level of its own. -/
def Silent (log : Hierarchy) : Prop :=
  ∀ name, name ∉ "" :: rootName :: programLogger :: mutedLoggers → log.ownLevel name = 0

theorem SetUpFrom.ready {before : Hierarchy} (done : SetUpFrom before log level) (silent : Silent before) :
    Ready log level where
  handlers := done.handlers
  program := done.program
  others name apart := (done.others name apart).trans (silent name apart)
  root := done.root
  muted := done.muted

theorem initial_silent : Silent .initial := by
  intro name apart
  simp only [List.mem_cons, not_or] at apart
  simp [Hierarchy.ownLevel, Hierarchy.initial, apart.1, apart.2.1]

theorem setUpAt_of_levelOf {name : String} {level : Int} (named : levelOf name = .ok level) :
    ∃ log, setUp .initial name none = .ok log ∧ SetUpAt log level level := by
  obtain ⟨log, finished, done⟩ := @setUp_of_levelOf .initial name none level named
  exact ⟨log, finished, (done.ready initial_silent).toSetUpAt⟩

end Reckoner.Log
