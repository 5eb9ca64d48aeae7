import Reckoner.Token.Stream

/-!
# Tokens given by their parts

A row of tokens may come from elsewhere than a text. A part that names no operator ends the row.
-/

namespace Reckoner

/-- The parts of a token: its kind, its text, the value of a number, its place. -/
structure WrittenToken where
  kind : Token.Kind
  text : String
  value : Binary64
  position : Option Int

/-- The lexeme of the parts. Only an operator is known by its text. -/
def WrittenToken.lexeme (parts : WrittenToken) : Except Fault Lexeme :=
  match parts.kind with
  | .number => .ok (.number parts.text parts.value)
  | .leftParen => .ok .leftParen
  | .rightParen => .ok .rightParen
  | .operator =>
    match Operator.ofSymbol? parts.text with
    | some op => .ok (.operator op)
    | none => .error (.unknownOperator parts.text)

/-- The tokens up to the first part that is none. -/
def TokenStream.ofParts : List WrittenToken → TokenStream
  | [] => .done
  | parts :: rest =>
    match parts.lexeme with
    | .ok lexeme => .cons ⟨lexeme, parts.position⟩ (ofParts rest)
    | .error fault => .failed fault

end Reckoner
