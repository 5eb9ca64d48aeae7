import Reckoner.Diagnosis
import Reckoner.Log
import Reckoner.Postfix.Value
import Reckoner.Token.Scan

/-!
# The value of an expression

The text is read into tokens, the tokens are put into postfix order, the row is reduced to one value.
-/

namespace Reckoner

/-- The value of a text, or the first fault found in it. -/
def evaluate (text : String) : Except Fault Binary64 := do
  let row ← postfixRow (scan text)
  postfixValue row

/-- The same in separate stages: all of the text is read before its tokens are put in order. -/
def stagedRow (text : String) : Except Fault (List Token) := do
  let tokens ← (scan text).all
  postfixRow ⟨tokens, none⟩

def evaluationLogger : String := "Calculator.MathEngine"

def evaluationRecords (text : String) : List Log.Record :=
  let debug (said : String) : Log.Record := ⟨evaluationLogger, Log.debugLevel, said⟩
  let failed (fault : Fault) : Log.Record :=
    ⟨evaluationLogger, Log.infoLevel,
      s!"Could not evaluate {Text.quoted text}: {fault.describe}"⟩
  match postfixRow (scan text) with
  | .error fault => [failed fault]
  | .ok row =>
    debug s!"Postfix for {Text.quoted text}: {Token.listed row}" ::
      match postfixValue row with
      | .ok value => [debug s!"{Text.quoted text} evaluated to {value.text}"]
      | .error fault => [failed fault]

def notTextMessage (value : Value) : String :=
  s!"expression must be a string, not {value.kindName}"

end Reckoner
