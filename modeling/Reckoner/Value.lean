import Reckoner.Decimal.Layout
import Reckoner.Text.Quoted

/-!
# Values of settings

A value is what a settings file can hold: null, a truth value, an integer of any size, a double, a text,
a list or an object whose keys keep their order. One more kind has no written form at all.
-/

namespace Reckoner

/-- Keys with what they stand for, in order. -/
abbrev Entries (κ α : Type) := List (κ × α)

namespace Entries

variable {κ α : Type} [DecidableEq κ]

/-- What a key stands for. -/
def get? (entries : Entries κ α) (key : κ) : Option α :=
  (entries.find? (·.1 == key)).map (·.2)

/-- Sets a key: in its place if it is there, else behind all others. -/
def put : Entries κ α → κ → α → Entries κ α
  | [], key, value => [(key, value)]
  | (k, v) :: rest, key, value =>
    if k = key then (k, value) :: rest else (k, v) :: put rest key value

/-- Sets the keys of `newer` one after another. -/
def update (entries newer : Entries κ α) : Entries κ α :=
  newer.foldl (fun entries (key, value) => entries.put key value) entries

/-- A key that was set has its new value. -/
theorem get?_put_self (entries : Entries κ α) (key : κ) (value : α) :
    (entries.put key value).get? key = some value := by
  induction entries with
  | nil => simp [put, get?]
  | cons entry rest ih =>
    rw [put]
    split
    · next h => simp [get?, h]
    · next h =>
      simp only [get?, List.find?_cons_of_neg (p := fun x : κ × α => x.1 == key)
        (a := entry) (by simpa using h)] at ih ⊢
      exact ih

/-- Setting a key leaves the others alone. -/
theorem get?_put_other (entries : Entries κ α) {key other : κ} (value : α)
    (h : other ≠ key) : (entries.put key value).get? other = entries.get? other := by
  induction entries with
  | nil => simp [put, get?, Ne.symm h]
  | cons entry rest ih =>
    rw [put]
    split
    · next hk => simp [get?, hk, Ne.symm h]
    · simp only [get?, List.find?_cons] at ih ⊢
      split <;> simp_all

end Entries

inductive Value
  | null
  | bool (b : Bool)
  | integer (n : Int)
  | double (x : Binary64)
  | text (s : CodeText)
  | list (items : List Value)
  | object (entries : List (CodeText × Value))
  /-- A value that cannot be written to a file. -/
  | unwritable
  deriving Inhabited

namespace Value

def kindName : Value → String
  | null => "NoneType"
  | bool _ => "bool"
  | integer _ => "int"
  | double _ => "float"
  | text _ => "str"
  | list _ => "list"
  | object _ => "dict"
  | unwritable => "object"

/-- Does the value count as true? Nothing, zero and what is empty do not. -/
def isTrue : Value → Bool
  | null => false
  | bool b => b
  | integer n => n != 0
  | double x => !x.isZero
  | text s => s != ""
  | list items => !items.isEmpty
  | object entries => !entries.isEmpty
  | unwritable => true

mutual

def shown : Value → String
  | null => "None"
  | bool true => "True"
  | bool false => "False"
  | integer n => toString n
  | double x => x.text
  | text s => Text.quoted s
  | list items => "[" ++ ", ".intercalate (shownItems items) ++ "]"
  | object entries => "\x7b" ++ ", ".intercalate (shownEntries entries) ++ "\x7d"
  | unwritable => "..."

def shownItems : List Value → List String
  | [] => []
  | item :: rest => shown item :: shownItems rest

def shownEntries : List (CodeText × Value) → List String
  | [] => []
  | (key, value) :: rest => (Text.quoted key ++ ": " ++ shown value) :: shownEntries rest

end

def isText : Value → Bool
  | text _ => true
  | _ => false

/-- The value inside a sentence: a text stands without quotes. -/
def plain : Value → CodeText
  | text s => s
  | value => value.shown

end Value

end Reckoner
