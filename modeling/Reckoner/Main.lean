import Reckoner.Program
import Std.Time.Format
import Std.Time.Zoned

/-!
# The command

Reads the arguments, the settings file in the working directory and the lines of the terminal, and writes
what the front ends say. The window needs a desktop around it; a terminal has none, and it closes at once.
-/

namespace Reckoner.Command

def settingsPath : String := "config.json"

def levelVariable : String := "LOG_LEVEL"

/-- A file that cannot be read counts as none. -/
def findSettings : IO SettingsFile := do
  try
    return ⟨.content (← IO.FS.readBinFile settingsPath), true⟩
  catch _ => return .absent

def now : IO String := do
  try
    return (← Std.Time.PlainDateTime.now).format (Log.timeOf "uuuu" "MM" "dd" "HH" "mm" "ss")
  catch _ => return "-"

def say (text : String) : IO Unit := do
  let output ← IO.getStdout
  output.putStr text
  output.flush

def complain (text : String) : IO Unit := do
  let errors ← IO.getStderr
  errors.putStr text
  errors.flush

def report (log : Log.Hierarchy) (records : List Log.Record) : IO Unit := do
  complain (Text.printed (log.writeAll (← now) records))

def perform (log : Log.Hierarchy) (event : Console.Event) : IO Unit := do
  report log event.records
  say event.screen

def readLine? : IO (Option String) := do
  return (Program.linesOf (← (← IO.getStdin).getLine)).head?

def answerOnce (log : Log.Hierarchy) : IO Unit := do
  perform log (.said Console.banner)
  perform log .prompted
  perform log (.answered ((← readLine?).getD ""))

/-- Lines one after another, each answered at once. -/
partial def converse (log : Log.Hierarchy) : IO Unit := do
  perform log .prompted
  match ← readLine? with
  | none => perform log (.said "")
  | some line =>
    match Console.reply line with
    | .ignore => converse log
    | .leave => return
    | .answer expression =>
      perform log (.answered expression)
      converse log

def runChoice (choice : CommandLine.Choice) : IO UInt32 := do
  match Program.prepare (← findSettings) (← IO.getEnv levelVariable) with
  | .error failure =>
    complain (failure.message ++ "\n")
    return 1
  | .ok (settings, log) =>
    report log [Program.loadedRecord Program.topLogger settings]
    if choice.once then answerOnce log
    else if choice.console then
      perform log (.said Console.banner)
      converse log
    return 0

end Reckoner.Command

open Reckoner Reckoner.Command in
def main (arguments : List String) : IO UInt32 := do
  match CommandLine.parse arguments with
  | .help =>
    say CommandLine.helpText
    return 0
  | .failed message =>
    complain (CommandLine.errorText message)
    return 2
  | .chosen choice => runChoice choice
