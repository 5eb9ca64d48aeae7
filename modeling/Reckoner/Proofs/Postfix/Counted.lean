import Mathlib.Data.List.Induction
import Reckoner.Proofs.Expression.Classified
import Reckoner.Proofs.Postfix.Forest

/-!
# The counter of a postfix row

A counter goes up by one at a number and down at an operator, by one less than the operands that it takes. The
rows on which every operator finds the counter high enough, and that leave it at one, are the rows of trees.
Any other row is reported by the first operator for which the counter is too low, or by what it is at the end.

Main result: `reported_cases`.
-/

namespace Reckoner

/-- The row holds numbers and operators only. -/
def IsPostfix (row : List Token) : Prop :=
  ∀ token ∈ row, token.lexeme.kind = .number ∨ token.lexeme.kind = .operator

/-- Before every operator the counter is at least the number of operands that it takes. -/
def Supplied (row : List Token) : Prop :=
  ∀ before op position after, row = before ++ ⟨.operator op, position⟩ :: after →
    op.traits.arity ≤ surplus before

/-- A valid row: the counter is high enough all along, and one at the end. -/
def Counted (row : List Token) : Prop := Supplied row ∧ surplus row = 1

def numberCount (row : List Token) : Nat := row.countP (·.lexeme.kind == .number)

def Lexeme.isBinary : Lexeme → Bool
  | operator (.binary _) => true
  | _ => false

def binaryCount (row : List Token) : Nat := row.countP (·.lexeme.isBinary)

/-- The value of a row, or the report of its fault. A row comes without the expression that it was made of. -/
def reported (row : List Token) : Except Diagnosis Binary64 :=
  (postfixValue row).mapError (Diagnosis.ofFault .null)

theorem arity_binary (operation : Operation) : (Operator.binary operation).traits.arity = 2 := by
  cases operation <;> rfl

/-- A sign takes one operand and gives one back, so the counter tells the numbers from the binary operators. -/
theorem surplus_eq (row : List Token) : surplus row = numberCount row - binaryCount row := by
  induction row with
  | nil => rfl
  | cons token row ih =>
    rw [surplus_cons, ih]
    simp only [numberCount, binaryCount, List.countP_cons]
    rcases token.lexeme with _ | (operation | _) | _ | _
    · simp [Lexeme.surplus, Lexeme.kind, Lexeme.isBinary]
      omega
    · simp [Lexeme.surplus, Lexeme.kind, Lexeme.isBinary, arity_binary]
      omega
    · simp [Lexeme.surplus, Lexeme.kind, Lexeme.isBinary, Operator.traits]
    · simp [Lexeme.surplus, Lexeme.kind, Lexeme.isBinary]
    · simp [Lexeme.surplus, Lexeme.kind, Lexeme.isBinary]

/-! ### The counter along a row -/

theorem supplied_nil : Supplied [] := by
  intro before op position after split
  simp at split

theorem Supplied.front {row more : List Token} (supplied : Supplied (row ++ more)) : Supplied row := by
  rintro before op position after rfl
  exact supplied before op position (after ++ more) (by simp)

theorem IsPostfix.front {row more : List Token} (solid : IsPostfix (row ++ more)) : IsPostfix row :=
  fun token member => solid token (List.mem_append_left more member)

/-- Either every operator is supplied, or there is a first one that is not. -/
theorem supplied_or_short (row : List Token) :
    Supplied row ∨ ∃ before op position after, row = before ++ ⟨.operator op, position⟩ :: after ∧
      Supplied before ∧ surplus before < op.traits.arity := by
  induction row using List.reverseRecOn with
  | nil => exact .inl supplied_nil
  | append_singleton row token ih =>
    rcases ih with supplied | ⟨before, op, position, after, rfl, supplied, few⟩
    · by_cases enough : ∀ op, token.lexeme = .operator op → op.traits.arity ≤ surplus row
      · -- The operator of a split is the new token, or it stands in the row before it.
        refine .inl fun before op position after split => ?_
        rcases List.eq_nil_or_concat after with rfl | ⟨after, last, rfl⟩
        · obtain ⟨rfl, same⟩ := List.append_inj' split rfl
          cases same
          exact enough op rfl
        · rw [List.concat_eq_append, ← List.cons_append, ← List.append_assoc] at split
          obtain ⟨rfl, -⟩ := List.append_inj' split rfl
          exact supplied before op position after rfl
      · obtain ⟨op, other⟩ := not_forall.mp enough
        obtain ⟨lexeme, few⟩ := Classical.not_imp.mp other
        exact .inr ⟨row, op, token.position, [], by rw [← lexeme], supplied, Int.not_le.mp few⟩
    · exact .inr ⟨before, op, position, after ++ [token], by simp, supplied, few⟩

/-- A row of which every operator is supplied is taken, and leaves as many values as the counter says. -/
theorem Supplied.foldlM {row : List Token} (supplied : Supplied row) (solid : IsPostfix row) :
    ∃ stack, row.foldlM ValueStack.accept [] = .ok stack ∧ stack.length = surplus row := by
  induction row using List.reverseRecOn with
  | nil => exact ⟨[], rfl, rfl⟩
  | append_singleton row token ih =>
    obtain ⟨stack, folded, height⟩ := ih supplied.front solid.front
    rw [List.foldlM_append, folded, ok_bind, List.foldlM_cons, surplus_append]
    obtain ⟨lexeme, position⟩ := token
    have kind := solid ⟨lexeme, position⟩ (by simp)
    cases lexeme with
    | number text value =>
      refine ⟨value :: stack, rfl, ?_⟩
      simp [Lexeme.surplus, height]
    | operator op =>
      have enough := supplied row op position [] rfl
      rw [← height] at enough
      obtain ⟨next, operated, left⟩ := operate?_of_le (Int.ofNat_le.mp enough)
      refine ⟨next, by simp [ValueStack.accept, operated], ?_⟩
      simp only [surplus_cons, surplus_nil, Lexeme.surplus, left]
      omega
    | leftParen => simp [Lexeme.kind] at kind
    | rightParen => simp [Lexeme.kind] at kind

/-- The first operator that is not supplied is the fault. -/
theorem postfixValue_short {before after : List Token} {op : Operator} {position : Option Int}
    (supplied : Supplied before) (few : surplus before < op.traits.arity) (solid : IsPostfix before) :
    postfixValue (before ++ ⟨.operator op, position⟩ :: after) = .error (.missingOperand op) := by
  obtain ⟨stack, folded, height⟩ := supplied.foldlM solid
  rw [← height] at few
  have refused : stack.accept ⟨.operator op, position⟩ = .error (.missingOperand op) := by
    simp [ValueStack.accept, operate?_of_lt (Int.ofNat_lt.mp few)]
  rw [postfixValue_eq, List.foldlM_append, folded, ok_bind, List.foldlM_cons, refused]
  rfl

/-- Behind a number, and behind an operator that is supplied, there is at least one value. -/
theorem Supplied.one_le {row : List Token} (supplied : Supplied row) (solid : IsPostfix row)
    (nonempty : row ≠ []) : 1 ≤ surplus row := by
  rcases List.eq_nil_or_concat row with rfl | ⟨front, ⟨lexeme, position⟩, rfl⟩
  · exact absurd rfl nonempty
  rw [List.concat_eq_append] at supplied solid ⊢
  have kind := solid ⟨lexeme, position⟩ (by simp)
  rw [surplus_append, surplus_cons, surplus_nil]
  cases lexeme with
  | number text value =>
    obtain ⟨stack, -, height⟩ := supplied.front.foldlM solid.front
    simp only [Lexeme.surplus]
    omega
  | operator op =>
    have enough := supplied front op position [] rfl
    simp only [Lexeme.surplus]
    omega
  | leftParen => simp [Lexeme.kind] at kind
  | rightParen => simp [Lexeme.kind] at kind

theorem ValueStack.result_of_one_lt {stack : ValueStack} (many : 1 < stack.length) :
    stack.result = .error (.missingOperator stack.length) := by
  match stack, many with
  | a :: b :: below, _ => rfl

/-- A row that is supplied is judged by what it leaves. -/
theorem Supplied.postfixValue_eq {row : List Token} (supplied : Supplied row) (solid : IsPostfix row) :
    ∃ stack : ValueStack, postfixValue row = stack.result ∧ stack.length = surplus row := by
  obtain ⟨stack, folded, height⟩ := supplied.foldlM solid
  refine ⟨stack, ?_, height⟩
  rw [Reckoner.postfixValue_eq, folded, ok_bind]

/-- Several values that no operator joins. -/
theorem Supplied.postfixValue_unjoined {row : List Token} (supplied : Supplied row) (solid : IsPostfix row)
    (nonempty : row ≠ []) (other : surplus row ≠ 1) :
    ∃ left : Nat, left = surplus row ∧ postfixValue row = .error (.missingOperator left) := by
  obtain ⟨stack, reduced, height⟩ := supplied.postfixValue_eq solid
  have least := supplied.one_le solid nonempty
  refine ⟨stack.length, height, ?_⟩
  rw [reduced, ValueStack.result_of_one_lt (by omega)]

/-- A row has a value exactly if it is valid by the counter. -/
theorem postfixValue_iff_counted {row : List Token} (solid : IsPostfix row) :
    (∃ value, postfixValue row = .ok value) ↔ Counted row := by
  rcases supplied_or_short row with supplied | ⟨before, op, position, after, rfl, supplied, few⟩
  · obtain ⟨stack, reduced, height⟩ := supplied.postfixValue_eq solid
    rw [Counted, reduced, ← height]
    simp only [result_eq_ok]
    constructor
    · rintro ⟨value, rfl⟩
      exact ⟨supplied, rfl⟩
    · rintro ⟨-, one⟩
      exact List.length_eq_one_iff.mp (Int.ofNat_inj.mp one)
  · rw [postfixValue_short supplied few solid.front]
    constructor
    · rintro ⟨value, run⟩
      cases run
    · rintro ⟨supplied, -⟩
      exact absurd few (Int.not_lt.mpr (supplied before op position after rfl))

/-! ### Reports -/

theorem reported_eq_ok {row : List Token} {value : Binary64} :
    reported row = .ok value ↔ postfixValue row = .ok value := by
  rw [reported]
  cases postfixValue row <;> simp [Except.mapError]

theorem reported_of_error {row : List Token} {fault : Fault} (failed : postfixValue row = .error fault) :
    reported row = .error (.invalidExpression fault.message .null) := by
  rw [reported, failed, ← postfixValue_ofExpression failed .null]
  rfl

/-- Only an empty row is reported as empty. -/
theorem reported_empty_iff {row : List Token} (solid : IsPostfix row) :
    reported row = .error (.invalidExpression "Empty expression." .null) ↔ row = [] := by
  constructor
  · intro failed
    -- The messages of the other faults begin with another word.
    have other {fault : Fault} (found : postfixValue row = .error fault) :
        fault.message = "Empty expression." := by
      rw [reported_of_error found] at failed
      simpa [Diagnosis.invalidExpression] using failed
    rcases supplied_or_short row with supplied | ⟨before, op, position, after, rfl, supplied, few⟩
    · by_contra nonempty
      by_cases one : surplus row = 1
      · obtain ⟨value, run⟩ := (postfixValue_iff_counted solid).mpr ⟨supplied, one⟩
        rw [reported_eq_ok.mpr run] at failed
        cases failed
      · obtain ⟨left, -, found⟩ := supplied.postfixValue_unjoined solid nonempty one
        have same : "Missing operator: " ++ toString left ++ " values left." = "Empty expression." := other found
        have chars := congrArg String.toList same
        simp [String.toList_append] at chars
    · have found : postfixValue (before ++ ⟨.operator op, position⟩ :: after) = .error (.missingOperand op) :=
        postfixValue_short supplied few solid.front
      have same : "Missing operand for '" ++ toString op.written ++ "'." = "Empty expression." := other found
      have chars := congrArg String.toList same
      simp [String.toList_append] at chars
  · rintro rfl
    rfl

/-- A row of numbers and operators has a value exactly if it is valid by the counter, and exactly if it is the
row of a tree; there is one such tree, and its value is the value of the row. Otherwise the report names the
first operator for which the counter is too low; if there is none, the row is empty, or it leaves another
number of values than one. -/
theorem reported_cases {row : List Token} (solid : IsPostfix row) :
    ((∃ value, reported row = .ok value) ↔ Counted row) ∧
    (Counted row ↔ ∃ tree : Tree, tree.postorder = row) ∧
    (∀ tree : Tree, tree.postorder = row →
      reported row = .ok tree.value ∧ ∀ other : Tree, other.postorder = row → other = tree) ∧
    (¬ Supplied row → ∃ before op position after, row = before ++ ⟨.operator op, position⟩ :: after ∧
      Supplied before ∧ surplus before < op.traits.arity ∧
      reported row = .error (.invalidExpression s!"Missing operand for '{op.written}'." .null)) ∧
    (reported row = .error (.invalidExpression "Empty expression." .null) ↔ row = []) ∧
    (Supplied row → row ≠ [] → surplus row ≠ 1 → ∃ left : Nat, left + binaryCount row = numberCount row ∧
      reported row = .error (.invalidExpression s!"Missing operator: {left} values left." .null)) := by
  have counted := postfixValue_iff_counted solid
  refine ⟨?_, ?_, ?_, ?_, reported_empty_iff solid, ?_⟩
  · simp only [← counted, reported_eq_ok]
  · simp only [← counted, postfixValue_eq_ok, exists_comm, exists_and_left, exists_eq', and_true]
  · intro tree order
    refine ⟨reported_eq_ok.mpr (postfixValue_eq_ok.mpr ⟨tree, order, rfl⟩), fun other order' => ?_⟩
    exact Tree.postorder_injective (order'.trans order.symm)
  · intro unsupplied
    obtain ⟨before, op, position, after, rfl, supplied, few⟩ := (supplied_or_short row).resolve_left unsupplied
    exact ⟨before, op, position, after, rfl, supplied, few,
      reported_of_error (postfixValue_short supplied few solid.front)⟩
  · intro supplied nonempty other
    obtain ⟨left, count, found⟩ := supplied.postfixValue_unjoined solid nonempty other
    rw [surplus_eq row] at count
    exact ⟨left, by omega, reported_of_error found⟩

/-- The row of `8 / -(4)` has its value, and a sign does not join two values. -/
theorem reported_signs :
    let number (text : String) (n : Nat) : Token := ⟨.number text (Decimal.toBinary64 false ⟨n, 0⟩), none⟩
    let sign : Token := ⟨.operator .negate, none⟩
    let divided : Token := ⟨.operator (.binary .div), none⟩
    (IsPostfix [number "8" 8, number "4" 4, sign, divided] ∧
      reported [number "8" 8, number "4" 4, sign, divided] =
        .ok (Decimal.toBinary64 false ⟨8, 0⟩ / -Decimal.toBinary64 false ⟨4, 0⟩)) ∧
    IsPostfix [number "2" 2, number "3" 3, sign] ∧
      reported [number "2" 2, number "3" 3, sign] =
        .error (.invalidExpression "Missing operator: 2 values left." .null) := by
  intro number sign divided
  have solid : IsPostfix [number "8" 8, number "4" 4, sign, divided] := by
    simp [IsPostfix, number, sign, divided, Lexeme.kind]
  have solid' : IsPostfix [number "2" 2, number "3" 3, sign] := by
    simp [IsPostfix, number, sign, Lexeme.kind]
  refine ⟨⟨solid, ?_⟩, solid', ?_⟩
  · let tree : Tree := .binary .div none (.number "8" (Decimal.toBinary64 false ⟨8, 0⟩) none)
      (.negate none (.number "4" (Decimal.toBinary64 false ⟨4, 0⟩) none))
    exact ((reported_cases solid).2.2.1 tree rfl).1
  · have supplied : Supplied [number "2" 2, number "3" 3, sign] := by
      -- The sign is the only operator, and two values stand before it.
      rintro (_ | ⟨_, _ | ⟨_, _ | ⟨_, before⟩⟩⟩) op position after split
      all_goals simp [number, sign] at split
      obtain ⟨rfl, rfl, ⟨rfl, -⟩, -⟩ := split
      decide
    obtain ⟨left, count, found⟩ := (reported_cases solid').2.2.2.2.2 supplied (by simp) (by decide)
    have two : left = 2 := count
    rw [found, two]
    rfl

end Reckoner
