import Reckoner.Proofs.Postfix.Order

/-!
# Expression trees

What an infix row means, with no row of tokens in sight: numbers joined by operators. A tree can be printed
in many ways, since parentheses may also stand where none are needed. `Renders` is all of them.

Main result: `postfixRow_renders`, every printing of a tree is put in the order of the tree.
-/

namespace Reckoner

/-- An expression. Each node knows where its token was read. -/
inductive Tree
  | number (text : String) (value : Binary64) (position : Option Int)
  | negate (position : Option Int) (operand : Tree)
  | binary (operation : Operation) (position : Option Int) (left right : Tree)
  deriving DecidableEq

namespace Tree

/-- The tokens of a tree, each operator behind its operands. -/
def postorder : Tree → List Token
  | number text value position => [⟨.number text value, position⟩]
  | negate position operand => operand.postorder ++ [⟨.operator .negate, position⟩]
  | binary operation position left right =>
    left.postorder ++ right.postorder ++ [⟨.operator (.binary operation), position⟩]

/-- The operator that is applied last. -/
def root? : Tree → Option Operator
  | number .. => none
  | negate .. => some .negate
  | binary operation .. => some (.binary operation)

/-- How tightly a tree holds together when it is printed without parentheses around it. -/
def level (tree : Tree) : Level := tree.root?.elim .values Operator.level

end Tree

/-! ### Parentheses that are needed -/

/-- Must an operand with this operator inside stand in parentheses, on this side of the outer operator? It
must if it holds looser, or as tightly on the side to which the outer operator does not group. The sign has
its operand on the right. -/
def Operator.separates (outer : Operator) (side : Associativity) (inner : Operator) : Bool :=
  inner.traits.precedence < outer.traits.precedence ||
    (inner.traits.precedence == outer.traits.precedence && outer.traits.associativity != side)

/-- Must the tree stand in parentheses as an operand? A number never must. -/
def Tree.separated (outer : Operator) (side : Associativity) (tree : Tree) : Bool :=
  tree.root?.any (outer.separates side)

/-- A row of tokens prints a tree, in parentheses or bare. An operand that must stand in parentheses does;
there may be more of them around every part. -/
inductive Tree.Renders : Bool → Tree → List Token → Prop
  | number {text : String} {value : Binary64} {position : Option Int} :
      Renders false (.number text value position) [⟨.number text value, position⟩]
  | negate {grouped : Bool} {position : Option Int} {operand : Tree} {tokens : List Token}
      (inside : Renders grouped operand tokens)
      (apart : grouped = true ∨ operand.separated .negate .right = false) :
      Renders false (.negate position operand) (⟨.operator .negate, position⟩ :: tokens)
  | binary {operation : Operation} {position : Option Int} {leftGrouped rightGrouped : Bool}
      {left right : Tree} {first second : List Token}
      (before : Renders leftGrouped left first)
      (leftApart : leftGrouped = true ∨ left.separated (.binary operation) .left = false)
      (after : Renders rightGrouped right second)
      (rightApart : rightGrouped = true ∨ right.separated (.binary operation) .right = false) :
      Renders false (.binary operation position left right)
        (first ++ ⟨.operator (.binary operation), position⟩ :: second)
  | group {grouped : Bool} {opening closing : Option Int} {tree : Tree} {tokens : List Token}
      (inside : Renders grouped tree tokens) :
      Renders true tree (⟨.leftParen, opening⟩ :: (tokens ++ [⟨.rightParen, closing⟩]))

/-- The tokens in parentheses, if they must stand in them. -/
def enclosedIf (needed : Bool) (tokens : List Token) : List Token :=
  if needed then ⟨.leftParen, none⟩ :: (tokens ++ [⟨.rightParen, none⟩]) else tokens

/-- A tree with the parentheses that it needs and no more. -/
def Tree.printed : Tree → List Token
  | number text value position => [⟨.number text value, position⟩]
  | negate position operand =>
    ⟨.operator .negate, position⟩ :: enclosedIf (operand.separated .negate .right) operand.printed
  | binary operation position left right =>
    enclosedIf (left.separated (.binary operation) .left) left.printed ++
      ⟨.operator (.binary operation), position⟩ ::
        enclosedIf (right.separated (.binary operation) .right) right.printed

theorem Tree.Renders.enclosedIf {tree : Tree} {tokens : List Token} (renders : Renders false tree tokens)
    (needed : Bool) : Renders needed tree (enclosedIf needed tokens) := by
  cases needed with
  | false => exact renders
  | true => exact .group renders

/-- Every tree can be printed. -/
theorem Tree.renders_printed (tree : Tree) : Renders false tree tree.printed := by
  induction tree with
  | number => exact .number
  | negate position operand ih => exact .negate (ih.enclosedIf _) (Bool.eq_false_or_eq_true _)
  | binary operation position left right ihLeft ihRight =>
    exact .binary (ihLeft.enclosedIf _) (Bool.eq_false_or_eq_true _) (ihRight.enclosedIf _)
      (Bool.eq_false_or_eq_true _)

/-! ### The order of a printed tree -/

/-- The level of an operand on one side of an operator. -/
def Operator.operandLevel : Operator → Associativity → Level
  | binary operation, .left => operation.leftLevel
  | binary operation, .right => operation.rightLevel
  | negate, _ => .signed

/-- An operand that needs no parentheses belongs to the level of its side. -/
theorem Operator.operandLevel_le {outer inner : Operator} {side : Associativity}
    (bare : outer.separates side inner = false) :
    (outer.operandLevel side).precedence ≤ inner.level.precedence := by
  revert bare
  -- The table of traits decides about each pair of operators.
  rcases outer with (_ | _ | _ | _ | _) | _ <;> rcases inner with (_ | _ | _ | _ | _) | _ <;>
    cases side <;> decide

/-- The level of a printed tree: in parentheses it is as tight as a value. -/
def Tree.shownLevel (grouped : Bool) (tree : Tree) : Level := if grouped then .values else tree.level

/-- An operand stands in parentheses or needs none, so it is tight enough for its side. -/
theorem Tree.operandLevel_le {grouped : Bool} {outer : Operator} {side : Associativity} {operand : Tree}
    (apart : grouped = true ∨ operand.separated outer side = false) :
    (outer.operandLevel side).precedence ≤ (operand.shownLevel grouped).precedence := by
  cases grouped with
  | true => exact Level.precedence_le_values _
  | false =>
    have bare : operand.separated outer side = false := apart.resolve_left Bool.false_ne_true
    rw [separated] at bare
    rw [shownLevel, level]
    -- A bare number is a value, and a bare operator holds as tightly as its side asks.
    cases root : operand.root? with
    | none => exact Level.precedence_le_values _
    | some inner =>
      rw [root] at bare
      exact Operator.operandLevel_le bare

/-- A printed tree is in order at its level, and its order is that of the tree. -/
theorem Tree.Renders.reorders {grouped : Bool} {tree : Tree} {tokens : List Token}
    (renders : Renders grouped tree tokens) :
    Reorders (tree.shownLevel grouped) tokens tree.postorder := by
  -- Each operand is in order at its own level, and that is tight enough for the side on which it stands.
  induction renders with
  | number => exact .number rfl .empty
  | negate _ apart ih =>
    have operand := ih.relaxed (operandLevel_le apart)
    exact .sign rfl .empty operand
  | @binary operation _ _ _ _ _ _ _ _ leftApart _ rightApart ihLeft ihRight =>
    have first := ihLeft.relaxed (operandLevel_le leftApart)
    have second := ihRight.relaxed (operandLevel_le rightApart)
    exact .operation operation rfl first second
  | group _ ih =>
    -- Inside the parentheses every level is tight enough.
    exact .group rfl rfl .empty ih.asSum

/-- Printing a tree and putting the tokens in postfix order gives the tree back, operands before operators,
whatever parentheses were added to those that it needs. -/
theorem postfixRow_renders {grouped : Bool} {tree : Tree} {tokens : List Token}
    (renders : tree.Renders grouped tokens) : postfixRow ⟨tokens, none⟩ = .ok tree.postorder :=
  renders.reorders.asSum.postfixRow_eq

/-- In `-(2^-(3))*((4))` only the first pair of parentheses is needed. -/
theorem postfixRow_renders_redundant :
    let two : Lexeme := .number "2" (Decimal.toBinary64 false ⟨2, 0⟩)
    let three : Lexeme := .number "3" (Decimal.toBinary64 false ⟨3, 0⟩)
    let four : Lexeme := .number "4" (Decimal.toBinary64 false ⟨4, 0⟩)
    let sign : Lexeme := .operator .negate
    let power : Lexeme := .operator (.binary .pow)
    let times : Lexeme := .operator (.binary .mul)
    let tokens : List Token :=
      [⟨sign, some 0⟩, ⟨.leftParen, some 1⟩, ⟨two, some 2⟩, ⟨power, some 3⟩, ⟨sign, some 4⟩,
        ⟨.leftParen, some 5⟩, ⟨three, some 6⟩, ⟨.rightParen, some 7⟩, ⟨.rightParen, some 8⟩,
        ⟨times, some 9⟩, ⟨.leftParen, some 10⟩, ⟨.leftParen, some 11⟩, ⟨four, some 12⟩,
        ⟨.rightParen, some 13⟩, ⟨.rightParen, some 14⟩]
    (∃ tree : Tree, tree.Renders false tokens) ∧
      postfixRow ⟨tokens, none⟩ = .ok
        [⟨two, some 2⟩, ⟨three, some 6⟩, ⟨sign, some 4⟩, ⟨power, some 3⟩, ⟨sign, some 0⟩,
          ⟨four, some 12⟩, ⟨times, some 9⟩] := by
  intro two three four sign power times tokens
  let base : Tree := .number "2" (Decimal.toBinary64 false ⟨2, 0⟩) (some 2)
  let exponent : Tree := .negate (some 4) (.number "3" (Decimal.toBinary64 false ⟨3, 0⟩) (some 6))
  let factor : Tree := .number "4" (Decimal.toBinary64 false ⟨4, 0⟩) (some 12)
  let raised : Tree := .binary .pow (some 3) base exponent
  have inside : raised.Renders false
      [⟨two, some 2⟩, ⟨power, some 3⟩, ⟨sign, some 4⟩, ⟨.leftParen, some 5⟩, ⟨three, some 6⟩,
        ⟨.rightParen, some 7⟩] :=
    .binary .number (.inr rfl) (.negate (.group .number) (.inl rfl)) (.inr rfl)
  have whole : (Tree.binary .mul (some 9) (.negate (some 0) raised) factor).Renders false tokens :=
    .binary (.negate (.group inside) (.inl rfl)) (.inr rfl) (.group (.group .number)) (.inl rfl)
  exact ⟨⟨_, whole⟩, postfixRow_renders whole⟩

end Reckoner
