import Reckoner.Log

/-!
# Which records are written

Loggers form a tree by the dots in their names. A logger without a level of its own takes the level of the
nearest logger above it; level zero counts as none. Each handler has a level of its own.
-/

namespace Reckoner.Log

/-- Levels of the root and of named loggers, and the levels of the handlers. -/
structure Hierarchy where
  root : Int
  handlers : List Int
  loggers : List (String × Int)
  deriving DecidableEq, Repr

namespace Hierarchy

/-- The state before anything is set up: warnings and above, and nobody to write them. -/
def initial : Hierarchy := ⟨warningLevel, [], []⟩

/-- A logger's own level, zero if it has none. -/
def ownLevel (log : Hierarchy) (logger : String) : Int :=
  if logger = "" ∨ logger = rootName then log.root
  else ((log.loggers.find? (·.1 == logger)).map (·.2)).getD 0

def setLevel (log : Hierarchy) (logger : String) (level : Int) : Hierarchy :=
  { log with loggers := (logger, level) :: log.loggers.filter (·.1 != logger) }

/-- The names that end before a dot of a name read backwards, the longest first. A dot right before another
one that ends a name does not end a name itself. -/
def ancestorsOf : List Char → List String
  | [] | ['.'] => []
  | '.' :: c :: rest => String.ofList (c :: rest).reverse :: ancestorsOf rest
  | _ :: rest => ancestorsOf rest

/-- The loggers above a logger, the nearest first, the root apart. -/
def ancestors (logger : String) : List String := ancestorsOf logger.toList.reverse

/-- The level that decides for a logger: its own, or that of the nearest logger above that has one. -/
def effectiveLevel (log : Hierarchy) (logger : String) : Int :=
  let levels := (logger :: ancestors logger).map log.ownLevel
  (levels.find? (· != 0)).getD log.root

/-- Is a record of this level taken from this logger? -/
def isEnabled (log : Hierarchy) (logger : String) (level : Int) : Bool :=
  0 < level && log.effectiveLevel logger ≤ level

/-- The lines that a record leads to, one for each handler that takes it. -/
def write (log : Hierarchy) (time : String) (record : Record) : List CodeText :=
  if log.isEnabled record.logger record.level then
    (log.handlers.filter (· ≤ record.level)).map fun _ => record.line time
  else []

def writeAll (log : Hierarchy) (time : String) (records : List Record) : CodeText :=
  .join (records.flatMap (log.write time))

end Hierarchy

end Reckoner.Log
