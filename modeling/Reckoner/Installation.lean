/-!
# The installed files

The launcher checks that the program's files are where they belong. A bundle has them inside and is only
asked for its directory.
-/

namespace Reckoner.Installation

def directory : String := "Calculator"

/-- The files that the program cannot do without. -/
def required : List String :=
  ["__main__.py", "MathEngine.py", "error.py", "config_manager.py", "Console.py", "UI.py"]

/-- The parts of a path; empty parts and single dots lead nowhere. -/
def pathParts (path : String) : List String :=
  (path.splitOn "/").filter fun part => part != "" && part != "."

/-- The slashes that a path begins with: none, one, or exactly two. -/
def pathRoot (path : String) : String :=
  match path.toList with
  | '/' :: '/' :: '/' :: _ => "/"
  | '/' :: '/' :: _ => "//"
  | '/' :: _ => "/"
  | _ => ""

/-- A path in its shortest spelling. -/
def tidyPath (path : String) : String :=
  let tidy := pathRoot path ++ "/".intercalate (pathParts path)
  if tidy = "" then "." else tidy

/-- Is the required file there, as a file or as a directory that holds one of the paths present? -/
def isPresent (present : List String) (name : String) : Bool :=
  present.any fun path => [directory, name].isPrefixOf (pathParts path)

def missing (present : List String) : List String :=
  required.filter (!isPresent present ·)

def complaint (names : List String) : String :=
  "Error 1000: The following files are missing or in the wrong location:\n" ++
    String.join (names.map fun name => s!"- {name}\n")

end Reckoner.Installation
