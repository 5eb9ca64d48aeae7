import Reckoner.Log
import Reckoner.Settings
import Reckoner.Value.Reader
import Reckoner.Value.Writer

/-!
# Settings files

A file that is missing, cannot be read or does not hold an object gives no entries, and a notice is taken
of it. Saving writes over the file as it goes, so a value that cannot be written leaves the text before it
in the file. An integer of too many digits is neither such a file nor such a value: nobody catches the fault.
-/

namespace Reckoner

/-- What is found under the name of a file. -/
inductive FileState
  | absent
  | directory
  | content (bytes : ByteArray)

/-- A file, and whether the directory that it belongs to is there. -/
structure SettingsFile where
  state : FileState
  reachable : Bool

namespace SettingsFile

/-- Why a file gives no entries. -/
inductive Unusable
  | missing
  | directory
  | notUnicode
  | malformed
  deriving DecidableEq, Repr

inductive SaveFault
  | missing
  | directory
  | unwritable
  deriving DecidableEq, Repr

inductive Notice
  | notUsable (cause : Unusable)
  | notAnObject
  | notSaved (cause : SaveFault)
  deriving DecidableEq, Repr

def logger : String := "Calculator.config_manager"

/-- The record of a notice, for a file of this name and a cause that is told like this. -/
def Notice.record (file cause : String) : Notice → Log.Record
  | notUsable _ => ⟨logger, Log.infoLevel, s!"5001 Settings file {file} not usable ({cause}), using defaults."⟩
  | notAnObject =>
    ⟨logger, Log.infoLevel, s!"5001 Settings file {file} does not hold an object, using defaults."⟩
  | notSaved _ => ⟨logger, Log.errorLevel, s!"5002 Settings could not be saved to {file}: {cause}"⟩

/-- A file that is not there, in a directory that is. -/
def absent : SettingsFile := ⟨.absent, true⟩

def ofText (text : String) : SettingsFile := ⟨.content text.toUTF8, true⟩

/-- The fault that ends loading or saving altogether: the number of digits of the integer it stopped at. -/
structure TooLong where
  digits : Nat
  deriving DecidableEq, Repr

/-- The value in a file, if it can be read. -/
def read (file : SettingsFile) : Except TooLong (Except Unusable Value) :=
  if !file.reachable then .ok (.error .missing)
  else
    match file.state with
    | .absent => .ok (.error .missing)
    | .directory => .ok (.error .directory)
    | .content bytes =>
      match String.fromUTF8? bytes with
      | none => .ok (.error .notUnicode)
      | some text =>
        match Value.ofText text.toList with
        | .ok value => .ok (.ok value)
        | .error .malformed => .ok (.error .malformed)
        | .error (.tooLong digits) => .error ⟨digits⟩

/-- The entries in a file, none if it is not usable, and the notices taken. -/
def entries (file : SettingsFile) : Except TooLong (Settings × List Notice) := do
  match ← file.read with
  | .ok (.object entries) => return (entries, [])
  | .ok _ => return ([], [.notAnObject])
  | .error cause => return ([], [.notUsable cause])

/-- The entries of a file over the defaults: defaults in their order, then new keys in file order. -/
def load (file : SettingsFile) (defaults : Settings) : Except TooLong (Settings × List Notice) := do
  let (entries, notices) ← file.entries
  return (defaults.update entries, notices)

/-- What a key asks a file for, and the notices taken. -/
def answer (file : SettingsFile) (defaults : Settings) (key fallback : Value) :
    Except TooLong (Value × List Notice) := do
  let (settings, notices) ← file.load defaults
  return (settings.lookUp key fallback, notices)

/-- What a save comes to, by the fault that stopped the writing. -/
def saveResult : Option Value.WriteFault → Except TooLong (Except SaveFault Unit)
  | none => .ok (.ok ())
  | some .unwritable => .ok (.error .unwritable)
  | some (.tooLong digits) => .error ⟨digits⟩

/-- Writes a value over the file, as far as it can be written. -/
def save (file : SettingsFile) (value : Value) :
    SettingsFile × Except TooLong (Except SaveFault Unit) :=
  if !file.reachable then (file, .ok (.error .missing))
  else
    match file.state with
    | .directory => (file, .ok (.error .directory))
    | _ =>
      let draft := value.draft
      ({ file with state := .content (String.ofList draft.text).toUTF8 }, saveResult draft.fault)

/-- What a save answers: the value, or an empty object if it failed. -/
def saved (value : Value) : Except SaveFault Unit → Value
  | .ok () => value
  | .error _ => .object []

end SettingsFile

end Reckoner
