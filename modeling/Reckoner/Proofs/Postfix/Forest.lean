import Reckoner.Proofs.Postfix.Operands
import Reckoner.Proofs.Postfix.Tree

/-!
# Reducing a row to trees

The stack of values forgets how its values came about. A stack of trees in its place makes the same moves and
forgets nothing: it holds the row read so far, and its trees have the values of the stack.

* `Tree.foldlM_postorder`, the row of a tree puts its value on the stack, whatever lies there already.
* `exists_forest`, the values on the stack are those of trees.
* `Tree.postorder_injective`, a row is the row of one tree at most.
-/

namespace Reckoner

/-- The value of an expression, the left operand of an operation first. -/
def Tree.value : Tree → Binary64
  | number _ value _ => value
  | negate _ operand => -operand.value
  | binary operation _ left right => operation.apply left.value right.value

/-- The row of a tree puts its value on the stack, whatever lies there already. -/
theorem Tree.foldlM_postorder (tree : Tree) (stack : ValueStack) :
    tree.postorder.foldlM ValueStack.accept stack = .ok (tree.value :: stack) := by
  induction tree generalizing stack with
  | number => rfl
  | negate position operand ih =>
    rw [postorder, List.foldlM_append, ih, ok_bind]
    rfl
  | binary operation position left right ihLeft ihRight =>
    rw [postorder, List.foldlM_append, List.foldlM_append, ihLeft, ok_bind, ihRight, ok_bind]
    rfl

/-- Trees in the place of their values, the last one first. -/
abbrev Forest := List Tree

namespace Forest

def values (forest : Forest) : ValueStack := forest.map Tree.value

/-- The row that the trees were made of. -/
def row (forest : Forest) : List Token := forest.reverse.flatMap Tree.postorder

/-- Joins trees by an operator, the right operand on top. -/
def operate? (forest : Forest) (position : Option Int) : Operator → Option Forest
  | .negate =>
    match forest with
    | operand :: below => some (.negate position operand :: below)
    | _ => none
  | .binary operation =>
    match forest with
    | right :: left :: below => some (.binary operation position left right :: below)
    | _ => none

def accept? (forest : Forest) (token : Token) : Option Forest :=
  match token.lexeme with
  | .number text value => some (.number text value token.position :: forest)
  | .operator op => forest.operate? token.position op
  | _ => none

@[simp] theorem row_cons (tree : Tree) (forest : Forest) :
    row (tree :: forest) = forest.row ++ tree.postorder := by
  simp [row]

/-! ### One token -/

/-- The trees move as their values do. -/
theorem operate?_values (forest : Forest) (position : Option Int) (op : Operator) :
    forest.values.operate? op = (forest.operate? position op).map values := by
  match op, forest with
  | .negate, [] => rfl
  | .negate, operand :: below => rfl
  | .binary operation, [] => rfl
  | .binary operation, [right] => rfl
  | .binary operation, right :: left :: below => rfl

theorem accept_values (forest : Forest) (token : Token) :
    (forest.values.accept token).toOption = (forest.accept? token).map values := by
  rw [ValueStack.accept, accept?]
  cases token.lexeme with
  | number text value => rfl
  | leftParen => rfl
  | rightParen => rfl
  | operator op =>
    simp only [operate?_values forest token.position op]
    cases forest.operate? token.position op <;> rfl

/-- The trees hold the row that was read. -/
theorem row_accept? {forest next : Forest} {token : Token} (accepted : forest.accept? token = some next) :
    next.row = forest.row ++ [token] := by
  obtain ⟨lexeme, position⟩ := token
  cases lexeme with
  | number text value =>
    cases accepted
    exact row_cons _ _
  | leftParen => cases accepted
  | rightParen => cases accepted
  | operator op =>
    change forest.operate? position op = some next at accepted
    match op, forest, accepted with
    | .negate, operand :: below, accepted =>
      cases accepted
      simp [Tree.postorder]
    | .binary operation, right :: left :: below, accepted =>
      cases accepted
      simp [Tree.postorder]

/-! ### A row of tokens -/

/-- A row that the stack of values takes is taken by the trees in its place. -/
theorem exists_of_foldlM {row : List Token} :
    ∀ {forest : Forest} {stack : ValueStack}, row.foldlM ValueStack.accept forest.values = .ok stack →
      ∃ next : Forest, row.foldlM accept? forest = some next ∧ next.values = stack := by
  induction row with
  | nil =>
    intro forest stack folded
    cases folded
    exact ⟨forest, rfl, rfl⟩
  | cons token row ih =>
    intro forest stack folded
    rw [List.foldlM_cons] at folded
    obtain ⟨between, accepted, later⟩ := bind_eq_ok.mp folded
    have moved := accept_values forest token
    rw [accepted] at moved
    obtain ⟨grown, taken, rfl⟩ := Option.map_eq_some_iff.mp moved.symm
    obtain ⟨next, run, same⟩ := ih later
    exact ⟨next, by rw [List.foldlM_cons, taken]; exact run, same⟩

theorem row_foldlM {row : List Token} :
    ∀ {forest next : Forest}, row.foldlM accept? forest = some next → next.row = forest.row ++ row := by
  induction row with
  | nil =>
    intro forest next folded
    cases folded
    rw [List.append_nil]
  | cons token row ih =>
    intro forest next folded
    rw [List.foldlM_cons] at folded
    obtain ⟨grown, taken, later⟩ := Option.bind_eq_some_iff.mp folded
    rw [ih later, row_accept? taken, List.append_assoc, List.singleton_append]

end Forest

/-- The values that a row leaves on the stack are those of trees, and the row is made of these trees. -/
theorem exists_forest {row : List Token} {stack : ValueStack}
    (folded : row.foldlM ValueStack.accept [] = .ok stack) :
    ∃ forest : Forest, forest.values = stack ∧ forest.row = row := by
  have start : row.foldlM ValueStack.accept (Forest.values []) = .ok stack := folded
  obtain ⟨forest, run, same⟩ := Forest.exists_of_foldlM start
  exact ⟨forest, same, Forest.row_foldlM run⟩

namespace Tree

/-- The row of a tree grows that tree, whatever stands beside it. -/
theorem foldlM_accept? (tree : Tree) (forest : Forest) :
    tree.postorder.foldlM Forest.accept? forest = some (tree :: forest) := by
  induction tree generalizing forest with
  | number => rfl
  | negate position operand ih =>
    rw [postorder, List.foldlM_append, ih]
    rfl
  | binary operation position left right ihLeft ihRight =>
    rw [postorder, List.foldlM_append, List.foldlM_append, ihLeft, Option.bind_eq_bind, Option.bind_some,
      ihRight]
    rfl

/-- A row is the row of one tree at most. -/
theorem postorder_injective : Function.Injective postorder := by
  intro tree other same
  have grown := tree.foldlM_accept? []
  rw [same, other.foldlM_accept? []] at grown
  exact (List.cons.inj (Option.some.inj grown)).1.symm

end Tree

/-- A row is reduced to a value exactly if it is the row of a tree of that value. -/
theorem postfixValue_eq_ok {row : List Token} {value : Binary64} :
    postfixValue row = .ok value ↔ ∃ tree : Tree, tree.postorder = row ∧ tree.value = value := by
  rw [postfixValue_eq, bind_eq_ok]
  constructor
  · rintro ⟨stack, folded, left⟩
    -- One value is left, so there is one tree, and it holds the whole row.
    rw [result_eq_ok] at left
    obtain ⟨forest, values, rfl⟩ := exists_forest folded
    rw [left] at values
    obtain ⟨tree, rfl, same⟩ := List.map_eq_singleton_iff.mp values
    exact ⟨tree, (Forest.row_cons tree []).symm, same⟩
  · rintro ⟨tree, rfl, rfl⟩
    exact ⟨[tree.value], tree.foldlM_postorder [], rfl⟩

end Reckoner
