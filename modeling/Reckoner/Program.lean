import Reckoner.CommandLine
import Reckoner.Console
import Reckoner.Log.Setup
import Reckoner.Window.Layout

/-!
# Running the program

The command line picks a front end; the settings and the environment pick how much is logged. A run is
described by what it writes and how it ends.
-/

namespace Reckoner.Program

/-- How a run ends: a front end returns, or the program exits with a code. -/
inductive Ending
  | returned (status : Int)
  | exited (code : Int)
  deriving DecidableEq, Repr

structure Run where
  ending : Ending
  output : String
  errors : CodeText
  windows : List String
  deriving DecidableEq, Repr

/-- Why a run does not come to an end of its own. -/
inductive Failure
  | settings (cause : SettingsFile.TooLong)
  | level (cause : Log.LevelFault)
  deriving DecidableEq, Repr

def Failure.message : Failure → String
  | settings cause => Text.tooLongMessage cause.digits
  | level cause => cause.message

/-- What a run starts from: its arguments, what can be read as input, the settings file, the level asked
for by the environment, and the code with which a window is closed. -/
structure Start where
  arguments : List String
  input : String
  settings : SettingsFile
  environment : Option String
  closeCode : Int

/-- The lines of an input. A last line need not be ended. -/
def linesOf (input : String) : List String :=
  let lines := input.splitOn "\n"
  if lines.getLast? = some "" then lines.dropLast else lines

/-- The logger of the entry point, if it was imported. -/
def entryLogger : String := "Calculator.__main__"

/-- The logger of the entry point, if it is the program itself. -/
def topLogger : String := "__main__"

def logFor (settings : Settings) (environment : Option String) :
    Except Log.LevelFault Log.Hierarchy :=
  Log.setUp .initial (if settings.isOn Settings.debugKey then "DEBUG" else Log.defaultLevel)
    environment

/-- What every front end starts with: the settings, and the log they ask for. -/
def prepare (file : SettingsFile) (environment : Option String) :
    Except Failure (Settings × Log.Hierarchy) := do
  let (settings, _) ← (file.load Settings.defaults).mapError .settings
  let log ← (logFor settings environment).mapError .level
  return (settings, log)

def loadedRecord (logger : String) (settings : Settings) : Log.Record :=
  ⟨logger, Log.debugLevel, s!"Config loaded: {(Value.object settings).shown}"⟩

def runChoice (logger time : String) (start : Start) (choice : CommandLine.Choice) :
    Except Failure Run := do
  let (settings, log) ← prepare start.settings start.environment
  let loaded := loadedRecord logger settings
  if choice.console || choice.once then
    let lines := linesOf start.input
    let session := if choice.once then Console.runOnce lines .endOfInput else Console.run lines
    return ⟨.returned 0, session.screen, log.writeAll time (loaded :: session.records), []⟩
  else
    return ⟨.exited start.closeCode, "", log.writeAll time [loaded], [Window.title]⟩

def run (logger time : String) (start : Start) : Except Failure Run :=
  match CommandLine.parse start.arguments with
  | .help => .ok ⟨.exited 0, CommandLine.helpText, "", []⟩
  | .failed message => .ok ⟨.exited 2, "", CommandLine.errorText message, []⟩
  | .chosen choice => runChoice logger time start choice

/-- The same run as a process: what a front end returns is its exit code. -/
def Run.process (run : Run) : Run :=
  match run.ending with
  | .returned status => { run with ending := .exited status }
  | .exited _ => run

/-- The console on its own. Nothing sets up a log for it. -/
def runConsole (start : Start) : Run :=
  ⟨.exited 0, (Console.run (linesOf start.input)).screen, "", []⟩

/-- The window on its own. It needs its settings. -/
def runWindow (start : Start) : Except Failure Run := do
  let _ ← (start.settings.load Settings.defaults).mapError Failure.settings
  return ⟨.exited start.closeCode, "", "", [Window.title]⟩

end Reckoner.Program
