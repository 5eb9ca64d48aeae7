import Reckoner.Text.Quoted

/-!
# The command line

Three long options, which may be shortened while they stay unique, and one short one, behind which more
letters may stand. The two that choose the front end exclude each other. Arguments are taken from left to
right; those that are no options are complained about at the end.
-/

namespace Reckoner.CommandLine

inductive Flag
  | help
  | console
  | once
  deriving DecidableEq, Repr

namespace Flag

/-- The long options in the order they are known. -/
def long : List (String × Flag) := [("--help", help), ("--console", console), ("--once", once)]

def shown : Flag → String
  | help => "-h/--help"
  | console => "--console"
  | once => "--once"

end Flag

structure Choice where
  console : Bool
  once : Bool
  deriving DecidableEq, Repr

/-- How reading the arguments ends: with a choice, with the help text, or with an error. -/
inductive Outcome
  | chosen (choice : Choice)
  | help
  | failed (message : String)
  deriving DecidableEq, Repr

def programName : String := "expression-calculator"

def usage : String := s!"usage: {programName} [-h] [--console | --once]\n"

def helpText : String :=
  usage ++ "\nArithmetic expression calculator (+ - * / ^ and parentheses).\n\noptions:\n" ++
    "  -h, --help  show this help message and exit\n" ++
    "  --console   run the line-based console instead of the GUI\n" ++
    "  --once      evaluate a single line from the console and exit\n"

/-- An error as it is written, behind the usage. -/
def errorText (message : String) : String := usage ++ s!"{programName}: error: {message}\n"

/-- The part before the first equals sign, and the part behind it. -/
def splitEquals (text : List Char) : List Char × Option (List Char) :=
  match text.dropWhile (· != '=') with
  | [] => (text, none)
  | _ :: value => (text.takeWhile (· != '='), some value)

inductive Argument
  /-- An option, with the value it was given. -/
  | option (flag : Flag) (value : Option (List Char))
  /-- The short option, with the letters behind it, at least one. -/
  | short (letters : List Char)
  /-- The beginning of several options. -/
  | ambiguous (options : List String)
  | other
  deriving DecidableEq, Repr

/-- The long options that begin like this, or the one that is spelled out. -/
def longMatches (name : List Char) : List (String × Flag) :=
  match Flag.long.find? (·.1.toList == name) with
  | some exact => [exact]
  | none => Flag.long.filter fun option => name.isPrefixOf option.1.toList

/-- Looks at one argument. An equals sign may part the short option from the letters behind it; if none
follow, the value is empty, and given all the same. -/
def classify (argument : String) : Argument :=
  match argument.toList with
  | ['-', 'h'] => .option .help none
  | ['-', 'h', '='] => .option .help (some [])
  | '-' :: 'h' :: '=' :: letters => .short letters
  | '-' :: 'h' :: letters => .short letters
  | '-' :: '-' :: rest =>
    let (name, value) := splitEquals ('-' :: '-' :: rest)
    match longMatches name with
    | [] => .other
    | [(_, flag)] => .option flag value
    | several => .ambiguous (several.map (·.1))
  | _ => .other

def ignoredMessage (flag : Flag) (value : List Char) : String :=
  s!"argument {flag.shown}: ignored explicit argument {Text.quoted (String.ofList value)}"

def excludedMessage (flag other : Flag) : String :=
  s!"argument {flag.shown}: not allowed with argument {other.shown}"

def ambiguousMessage (argument : String) (options : List String) : String :=
  let listed := ", ".intercalate options
  s!"ambiguous option: {argument} could match {listed}"

def unrecognizedMessage (arguments : List String) : String :=
  let listed := " ".intercalate arguments
  s!"unrecognized arguments: {listed}"

/-- Letters behind the short option repeat it. From the first other letter on they are a value, which it
does not take. -/
def shortOutcome (letters : List Char) : Outcome :=
  match letters.dropWhile (· == 'h') with
  | [] => .help
  | value => .failed (ignoredMessage .help value)

/-- Takes the arguments one by one; `extra` are those that are no options. -/
def take (choice : Choice) (extra : List String) : List String → Outcome
  | [] => if extra.isEmpty then .chosen choice else .failed (unrecognizedMessage extra)
  | "--" :: rest => .failed (unrecognizedMessage (extra ++ "--" :: rest))
  | argument :: rest =>
    match classify argument with
    | .option flag (some value) => .failed (ignoredMessage flag value)
    | .option .help none => .help
    | .short letters => shortOutcome letters
    | .option .console none =>
      if choice.once then .failed (excludedMessage .console .once)
      else take { choice with console := true } extra rest
    | .option .once none =>
      if choice.console then .failed (excludedMessage .once .console)
      else take { choice with once := true } extra rest
    | .ambiguous _ | .other => take choice (extra ++ [argument]) rest

/-- The complaint about the first argument that could be several options, before a lone `--`. -/
def ambiguity? (arguments : List String) : Option String :=
  (arguments.takeWhile (· != "--")).findSome? fun argument =>
    match classify argument with
    | .ambiguous options => some (ambiguousMessage argument options)
    | _ => none

/-- Reads the arguments. An ambiguous one is complained about before anything else is done. -/
def parse (arguments : List String) : Outcome :=
  match ambiguity? arguments with
  | some message => .failed message
  | none => take ⟨false, false⟩ [] arguments

end Reckoner.CommandLine
