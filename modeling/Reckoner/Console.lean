import Reckoner.Calculation
import Reckoner.Text.Blank

/-!
# The console

The console prompts for lines and answers each with its result or with one and the same message. A session
is the list of what happened, and the lines that were left.
-/

namespace Reckoner.Console

def banner : String := "Evaluator (+ - * / ^ and parentheses)"

def prompt : String := "Expr: "

def invalidMessage : String := "Invalid expression"

/-- The lines that end the console, in letters of either case. -/
def exitCommands : List String := ["exit", "quit"]

/-- The answer to an expression: its result with all digits, or the one message. -/
def answer (expression : String) : String :=
  match evaluate expression with
  | .ok value => "= " ++ (value.display none).text
  | .error _ => invalidMessage

def logger : String := "Calculator.Console"

def answerRecords (expression : String) : List Log.Record :=
  evaluationRecords expression ++
    match evaluate expression with
    | .ok _ => []
    | .error fault => [⟨logger, Log.debugLevel, fault.describe⟩]

inductive Reply
  | ignore
  | leave
  | answer (expression : String)
  deriving DecidableEq, Repr

/-- A blank line is ignored, an exit command ends the console, all else is an expression. -/
def reply (line : String) : Reply :=
  let expression := Text.trim line
  if expression = "" then .ignore
  else if exitCommands.contains expression.toLower then .leave
  else .answer expression

/-- How the lines end: there are no more, or the user interrupts the prompt. -/
inductive Ending
  | endOfInput
  | interrupt
  deriving DecidableEq, Repr

inductive Event
  | prompted
  | said (text : String)
  | answered (expression : String)
  deriving DecidableEq, Repr

namespace Event

/-- What the event writes as a line of its own. -/
def output? : Event → Option String
  | prompted => none
  | said text => some text
  | answered expression => some (answer expression)

/-- What the event puts on the screen. A prompt does not end its line. -/
def screen : Event → String
  | prompted => prompt
  | said text => text ++ "\n"
  | answered expression => answer expression ++ "\n"

def records : Event → List Log.Record
  | answered expression => answerRecords expression
  | _ => []

end Event

/-- What happened, the lines not read, and whether an interrupt went through. -/
structure Session where
  events : List Event
  unread : List String
  interrupted : Bool
  deriving DecidableEq, Repr

namespace Session

/-- The exit code that a front end returns, unless an interrupt goes through. -/
def status? (session : Session) : Option Int := if session.interrupted then none else some 0

def after (session : Session) (events : List Event) : Session :=
  { session with events := events ++ session.events }

def output (session : Session) : List String := session.events.filterMap Event.output?

def prompts (session : Session) : List String :=
  session.events.filterMap fun event => if event = .prompted then some prompt else none

def screen (session : Session) : String := String.join (session.events.map Event.screen)

def records (session : Session) : List Log.Record := session.events.flatMap Event.records

end Session

/-- The endings that end the loop with an empty line. Any other would go through. -/
def loopEndings : List Ending := [.endOfInput, .interrupt]

/-- Reads lines until one ends the console, or until there are no more. -/
def loop (ending : Ending) : List String → Session
  | [] =>
    if loopEndings.contains ending then ⟨[.prompted, .said ""], [], false⟩
    else ⟨[.prompted], [], true⟩
  | line :: rest =>
    match reply line with
    | .ignore => (loop ending rest).after [.prompted]
    | .leave => ⟨[.prompted], rest, false⟩
    | .answer expression => (loop ending rest).after [.prompted, .answered expression]

/-- The whole session. -/
def run (lines : List String) (ending : Ending := .endOfInput) : Session :=
  (loop ending lines).after [.said banner]

/-- One line only, answered as it is. At the end of input it is empty; an interrupt goes through. -/
def runOnce (lines : List String) (ending : Ending) : Session :=
  match lines, ending with
  | line :: rest, _ => ⟨[.said banner, .prompted, .answered line], rest, false⟩
  | [], .endOfInput => ⟨[.said banner, .prompted, .answered ""], [], false⟩
  | [], .interrupt => ⟨[.said banner, .prompted], [], true⟩

end Reckoner.Console
