import Reckoner.Fault

/-!
# Token streams

What reading yields: tokens in order, and the fault that ended the reading, if one did. A stage that takes
the tokens one by one meets the fault only after all tokens before it.
-/

namespace Reckoner

structure TokenStream where
  tokens : List Token
  fault : Option Fault

namespace TokenStream

def done : TokenStream := ⟨[], none⟩

def failed (fault : Fault) : TokenStream := ⟨[], some fault⟩

def cons (token : Token) (stream : TokenStream) : TokenStream :=
  ⟨token :: stream.tokens, stream.fault⟩

/-- Meets the end of the stream: its fault, if there is one. -/
def finish (stream : TokenStream) : Except Fault Unit :=
  match stream.fault with
  | some fault => .error fault
  | none => .ok ()

/-- All tokens, if the whole text could be read. -/
def all (stream : TokenStream) : Except Fault (List Token) := do
  stream.finish
  return stream.tokens

end TokenStream

end Reckoner
