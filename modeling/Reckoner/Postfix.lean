import Reckoner.Token.Stream

/-!
# Postfix rows

A stack of pending operators and opening parentheses turns infix tokens into a postfix row. Tokens are
taken one by one, so a parenthesis fault is met before any fault further on in the stream.

`accept` is one step of the stack and `ofTokens` the whole row.
-/

namespace Reckoner

/-- Pending operators and opening parentheses, the last one first. -/
abbrev OperatorStack := List Token

namespace OperatorStack

/-- Does the token on the stack leave it before this operator is pushed? A parenthesis never does. -/
def yieldsTo (incoming : Operator) (top : Token) : Bool :=
  match top.lexeme with
  | .operator op => incoming.traits.popsBefore op.traits
  | _ => false

def isLeftParen (token : Token) : Bool := token.lexeme == .leftParen

/-- One token: what is output now, and the stack afterwards. A number goes straight through. An operator
outputs the pending ones it must not pass. A closing parenthesis outputs all up to its opening one. -/
def accept (stack : OperatorStack) (token : Token) : Except Fault (List Token × OperatorStack) :=
  match token.lexeme with
  | .number .. => .ok ([token], stack)
  | .operator incoming =>
    .ok (stack.takeWhile (yieldsTo incoming), token :: stack.dropWhile (yieldsTo incoming))
  | .leftParen => .ok ([], token :: stack)
  | .rightParen =>
    match stack.dropWhile (!isLeftParen ·) with
    | [] => .error (.unopened token.position)
    | _ :: below => .ok (stack.takeWhile (!isLeftParen ·), below)

/-- The end of the tokens: everything pending is output, unless a parenthesis is still open. -/
def close (stack : OperatorStack) : Except Fault (List Token) :=
  match stack.find? isLeftParen with
  | some paren => .error (.unclosed paren.position)
  | none => .ok stack

/-- What the remaining tokens of a stream add to the row. -/
def drain (stack : OperatorStack) (tokens : List Token) (fault : Option Fault) :
    Except Fault (List Token) :=
  match tokens with
  | [] =>
    match fault with
    | some fault => .error fault
    | none => close stack
  | token :: rest => do
    let (output, stack) ← accept stack token
    return output ++ (← drain stack rest fault)

end OperatorStack

/-- The postfix row of a stream of infix tokens. -/
def postfixRow (stream : TokenStream) : Except Fault (List Token) :=
  OperatorStack.drain [] stream.tokens stream.fault

end Reckoner
