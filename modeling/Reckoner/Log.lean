import Reckoner.Text.Quoted

/-!
# Log records and levels

A record names the logger it was made by, a level and a text. Levels are integers; ten of their names can
be asked for.
-/

namespace Reckoner.Log

structure Record where
  logger : String
  level : Int
  text : CodeText
  deriving DecidableEq, Repr

def debugLevel : Int := 10

def infoLevel : Int := 20

def warningLevel : Int := 30

def errorLevel : Int := 40

/-- The names of levels. Of two names for one level, the first one is shown. -/
def levelNames : List (String × Int) :=
  [("CRITICAL", 50), ("FATAL", 50), ("ERROR", 40), ("WARNING", 30), ("WARN", 30), ("INFO", 20),
    ("DEBUG", 10), ("NOTSET", 0)]

def shownLevel (level : Int) : String :=
  match levelNames.find? (·.2 == level) with
  | some (name, _) => name
  | none => s!"Level {level}"

/-- A line from its parts. -/
def lineOf (time logger level : String) (text : CodeText) : CodeText :=
  s!"{time} - {logger} - {level} - " ++ text

/-- The time of a line from its parts. -/
def timeOf (year month day hour minute second : String) : String :=
  s!"{year}-{month}-{day} {hour}:{minute}:{second}"

def rootName : String := "root"

/-- A record as a line of its own. -/
def Record.line (time : String) (record : Record) : CodeText :=
  let logger := if record.logger = "" then rootName else record.logger
  lineOf time logger (shownLevel record.level) record.text ++ "\n"

end Reckoner.Log
