import Reckoner.Log.Hierarchy

/-!
# Setting up the log

The level is asked for by name, in letters of either case. A name that is no level means warnings; two
names belong to formats of the log itself and are refused.
-/

namespace Reckoner.Log

inductive LevelFault
  /-- The name stands for a text that is not the name of a level. -/
  | unknownLevel (text : String)
  /-- The name stands for something that is neither text nor number. -/
  | notALevel (shown : String)
  deriving DecidableEq, Repr

def LevelFault.message : LevelFault → String
  | unknownLevel text => s!"Unknown level: {Text.quoted text}"
  | notALevel shown => s!"Level not an integer or a valid string: {shown}"

def plainFormat : String := "%(levelname)s:%(name)s:%(message)s"

/-- The styles that a format can be written in, as they are shown. -/
def shownStyles : String :=
  "\x7b'%': (<class 'logging.PercentStyle'>, '%(levelname)s:%(name)s:%(message)s'), " ++
  "'\x7b': (<class 'logging.StrFormatStyle'>, '\x7blevelname\x7d:\x7bname\x7d:\x7bmessage\x7d'), " ++
  "'$': (<class 'logging.StringTemplateStyle'>, " ++
  "'$\x7blevelname\x7d:$\x7bname\x7d:$\x7bmessage\x7d')\x7d"

/-- The capital of a letter. Of the letters outside ASCII, only those that have an ASCII capital in a name
of the log matter: the dotless i, the long s and the two ligatures of s and t. -/
def capital (c : Char) : List Char :=
  if c = 'ı' then ['I']
  else if c = 'ſ' then ['S']
  else if c = 'ﬅ' ∨ c = 'ﬆ' then ['S', 'T']
  else [c.toUpper]

def capitals (name : String) : String := String.ofList (name.toList.flatMap capital)

def levelOf (name : String) : Except LevelFault Int :=
  let name := capitals name
  match levelNames.find? (·.1 == name) with
  | some (_, level) => .ok level
  | none =>
    if name = "BASIC_FORMAT" then .error (.unknownLevel plainFormat)
    else if name = "_STYLES" then .error (.notALevel shownStyles)
    else .ok warningLevel

def programLogger : String := "Calculator"

/-- The loggers that say too much below warnings. -/
def mutedLoggers : List String := ["PySide6", "pynput"]

/-- The level asked for when no one asks for another. -/
def defaultLevel : String := "WARNING"

/-- Sets up the log: one handler, and the same level for it, the root and the program's own logger. The
environment's choice, if there is one, goes before the caller's. -/
def setUp (log : Hierarchy) (name : String) (environment : Option String) :
    Except LevelFault Hierarchy := do
  let level ← levelOf (environment.getD name)
  let muted := mutedLoggers.foldl (fun log logger => log.setLevel logger warningLevel) log
  return { muted.setLevel programLogger level with root := level, handlers := [level] }

/-- Setting up the log any number of times. -/
def setUpTimes (log : Hierarchy) (name : String) (environment : Option String) :
    Nat → Except LevelFault Hierarchy
  | 0 => .ok log
  | times + 1 => do setUpTimes (← setUp log name environment) name environment times

end Reckoner.Log
