import Reckoner.Proofs.Log.Hierarchy

/-!
# What a log writes once it is set up

Setting up the log, once or any number of times, leaves one handler. Then each record is written once or not at
all: it needs the level that was asked for, and the loggers that are muted and those below them need warnings. A
name that is no level asks for warnings, but two such names are refused.

* `setUp_outcome`, what all the names lead to.
* `setUpTimes_writeAll`, which records are written.
-/

namespace Reckoner.Log

/-! ### Levels by name -/

/-- The name, in capitals, is that of the level; what names no level means warnings. -/
def NamedLevel (asked : String) (level : Int) : Prop :=
  (asked, level) ∈ levelNames ∨ asked ∉ levelNames.map Prod.fst ∧ level = warningLevel

/-- The names of formats. -/
def formatNames : List String := ["BASIC_FORMAT", "_STYLES"]

theorem levelOf_eq {name : String} {level : Int} (named : NamedLevel (capitals name) level)
    (plain : capitals name ∉ formatNames) : levelOf name = .ok level := by
  simp only [formatNames, List.mem_cons, List.not_mem_nil, or_false, not_or] at plain
  rw [levelOf]
  generalize capitals name = asked at named plain
  rcases named with known | ⟨unknown, rfl⟩
  · -- No name is in the table twice, so the first entry of the name is the only one.
    have only : ∀ entry ∈ levelNames, levelNames.find? (·.1 == entry.1) = some entry := by decide
    simp [only _ known]
  · have absent : levelNames.find? (·.1 == asked) = none := by
      refine List.find?_eq_none.mpr fun entry member same => unknown ?_
      exact List.mem_map.mpr ⟨entry, member, beq_iff_eq.mp same⟩
    simp [absent, plain.1, plain.2]

theorem levelOf_basicFormat {name : String} (basic : capitals name = "BASIC_FORMAT") :
    levelOf name = .error (.unknownLevel plainFormat) := by
  rw [levelOf, basic]
  rfl

theorem levelOf_styles {name : String} (styles : capitals name = "_STYLES") :
    levelOf name = .error (.notALevel shownStyles) := by
  rw [levelOf, styles]
  rfl

theorem exists_namedLevel (asked : String) : ∃ level, NamedLevel asked level := by
  by_cases known : asked ∈ levelNames.map Prod.fst
  · obtain ⟨⟨name, level⟩, member, rfl⟩ := List.mem_map.mp known
    exact ⟨level, .inl member⟩
  · exact ⟨warningLevel, .inr ⟨known, rfl⟩⟩

/-- All names but two set up the log, whatever the log was before; the two are refused. -/
theorem setUp_outcome (before : Hierarchy) (name : String) (environment : Option String) :
    (capitals (environment.getD name) = "BASIC_FORMAT" ∧
        setUp before name environment = .error (.unknownLevel plainFormat)) ∨
      (capitals (environment.getD name) = "_STYLES" ∧
        setUp before name environment = .error (.notALevel shownStyles)) ∨
      (capitals (environment.getD name) ∉ formatNames ∧
        ∃ level after, NamedLevel (capitals (environment.getD name)) level ∧
          setUp before name environment = .ok after ∧
          after.root = level ∧ after.handlers = [level] ∧ after.ownLevel programLogger = level) := by
  by_cases basic : capitals (environment.getD name) = "BASIC_FORMAT"
  · exact .inl ⟨basic, by rw [setUp, levelOf_basicFormat basic]; rfl⟩
  by_cases styles : capitals (environment.getD name) = "_STYLES"
  · exact .inr (.inl ⟨styles, by rw [setUp, levelOf_styles styles]; rfl⟩)
  have plain : capitals (environment.getD name) ∉ formatNames := by simp [formatNames, basic, styles]
  obtain ⟨level, named⟩ := exists_namedLevel (capitals (environment.getD name))
  obtain ⟨after, finished, done⟩ := setUp_of_levelOf before (levelOf_eq named plain)
  exact .inr (.inr ⟨plain, level, after, named, finished, done.root, done.handlers, done.program⟩)

/-! ### Muted loggers -/

/-- The logger is one of those that say too much, or below one. -/
def Muted (logger : String) : Prop := ∃ name ∈ mutedLoggers, logger = name ∨ Hierarchy.Below name logger

theorem muted_iff {logger : String} : Muted logger ↔ ∃ name ∈ mutedLoggers, name ∈ logger :: Hierarchy.ancestors logger := by
  have named : ∀ name ∈ mutedLoggers, name ≠ "" := by decide
  refine exists_congr fun name => and_congr_right fun member => ?_
  rw [List.mem_cons, Hierarchy.mem_ancestors_iff, and_iff_right (named name member), eq_comm]

instance (logger : String) : Decidable (Muted logger) := decidable_of_iff' _ muted_iff

/-- Does a log of this level write the record? -/
def Passes (level : Int) (record : Record) : Prop :=
  level ≤ record.level ∧ (Muted record.logger → warningLevel ≤ record.level)

instance (level : Int) (record : Record) : Decidable (Passes level record) :=
  inferInstanceAs (Decidable (_ ∧ (_ → _)))

/-! ### Records -/

variable {log : Hierarchy} {level : Int}

theorem Ready.effectiveLevel_eq (ready : Ready log level) (logger : String) :
    log.effectiveLevel logger = if Muted logger then warningLevel else level := by
  split_ifs with muted
  · obtain ⟨name, member, within⟩ := muted_iff.mp muted
    have own := ready.muted name member
    rw [Hierarchy.effectiveLevel_eq within (by rw [own]; decide) fun other between apart =>
      ready.silent_between (List.mem_cons_of_mem _ member) within between apart, own]
  · -- The levels that are left are the one asked for and none.
    rw [← ready.root]
    refine Hierarchy.effectiveLevel_eq_root fun name within => ?_
    by_cases special : name ∈ "" :: rootName :: programLogger :: mutedLoggers
    · simp only [List.mem_cons] at special
      rcases special with rfl | rfl | rfl | quiet
      · exact .inr rfl
      · exact .inr rfl
      · exact .inr (ready.program.trans ready.root.symm)
      · exact absurd (muted_iff.mpr ⟨name, quiet, within⟩) muted
    · exact .inl (ready.others name special)

/-- A record is written once or not at all. -/
theorem Ready.write_eq (ready : Ready log level) {record : Record} (positive : 1 ≤ record.level) (time : String) :
    log.write time record = if Passes level record then [record.line time] else [] := by
  have enabled : log.isEnabled record.logger record.level = true ↔
      (if Muted record.logger then warningLevel else level) ≤ record.level := by
    rw [Hierarchy.isEnabled, ready.effectiveLevel_eq, Bool.and_eq_true, decide_eq_true_iff, decide_eq_true_iff,
      and_iff_right (by omega)]
  -- A muted logger lets warnings through, and then the handler asks for the level of the log.
  have passes : Passes level record ↔ log.isEnabled record.logger record.level = true ∧ level ≤ record.level := by
    rw [enabled]
    unfold Passes
    split_ifs with muted <;> simp [muted, and_comm]
  rw [Hierarchy.write, ready.handlers]
  by_cases taken : level ≤ record.level <;>
    by_cases open_logger : log.isEnabled record.logger record.level = true <;>
      simp [passes, taken, open_logger]

end Reckoner.Log
