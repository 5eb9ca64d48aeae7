import Reckoner.Diagnosis
import Reckoner.Proofs.Postfix.Order

/-!
# What is output, and where

The operator stack takes every row of tokens, well formed or not, as long as its parentheses match. What it
outputs is the numbers and operators of the row, each of them once; numbers keep their order, operators only
move back, and a group stays together.

To tell equal tokens apart, the places of the tokens are followed through the stack, which does not look at
them.

Main result: `postfixRow_arranged`.
-/

namespace Reckoner

/-! ### Matching parentheses -/

def openings (tokens : List Token) : Nat := tokens.countP (·.lexeme == .leftParen)

def closings (tokens : List Token) : Nat := tokens.countP (·.lexeme == .rightParen)

/-- No closing parenthesis comes too early, and none is missing. -/
def Matched (tokens : List Token) : Prop :=
  (∀ front, front <+: tokens → closings front ≤ openings front) ∧ closings tokens = openings tokens

/-- The same, with so many parentheses open before the tokens. -/
def Closes (depth : Nat) (tokens : List Token) : Prop :=
  (∀ front, front <+: tokens → closings front ≤ depth + openings front) ∧
    closings tokens = depth + openings tokens

theorem closes_zero {tokens : List Token} : Closes 0 tokens ↔ Matched tokens := by
  simp only [Closes, Matched, Nat.zero_add]

theorem openings_append (first second : List Token) :
    openings (first ++ second) = openings first + openings second := List.countP_append

theorem closings_append (first second : List Token) :
    closings (first ++ second) = closings first + closings second := List.countP_append

theorem openings_cons (token : Token) (tokens : List Token) :
    openings (token :: tokens) = openings [token] + openings tokens := openings_append [token] tokens

theorem closings_cons (token : Token) (tokens : List Token) :
    closings (token :: tokens) = closings [token] + closings tokens := closings_append [token] tokens

theorem closes_nil {depth : Nat} : Closes depth [] ↔ depth = 0 := by
  constructor
  · rintro ⟨-, level⟩
    exact level.symm
  · rintro rfl
    refine ⟨fun front within => ?_, rfl⟩
    rw [List.prefix_nil.mp within]
    exact Nat.le_refl _

/-- One token may take the depth down, but not below the ground. -/
theorem closes_cons {depth : Nat} {token : Token} {tokens : List Token} :
    Closes depth (token :: tokens) ↔ closings [token] ≤ depth + openings [token] ∧
      Closes (depth + openings [token] - closings [token]) tokens := by
  constructor
  · rintro ⟨few, level⟩
    have first := few [token] ⟨tokens, rfl⟩
    refine ⟨first, fun front within => ?_, ?_⟩
    · have longer := few (token :: front) (List.cons_prefix_cons.mpr ⟨rfl, within⟩)
      rw [closings_cons, openings_cons] at longer
      omega
    · rw [closings_cons, openings_cons] at level
      omega
  · rintro ⟨first, few, level⟩
    refine ⟨fun front within => ?_, ?_⟩
    · rcases List.prefix_cons_iff.mp within with rfl | ⟨more, rfl, behind⟩
      · exact Nat.zero_le _
      · have shorter := few more behind
        rw [closings_cons, openings_cons]
        omega
    · rw [closings_cons, openings_cons]
      omega

/-- The parentheses on the stack are as many as are open; one that would close more is refused. -/
theorem accept_depth (stack : OperatorStack) (token : Token) :
    (∃ output next, stack.accept token = .ok (output, next) ∧
        closings [token] ≤ stack.parens.length + openings [token] ∧
        next.parens.length = stack.parens.length + openings [token] - closings [token]) ∨
      (stack.parens.length + openings [token] < closings [token] ∧
        stack.accept token = .error (.unopened token.position)) := by
  cases lexeme : token.lexeme with
  | number text value =>
    exact .inl ⟨_, _, accept_number stack lexeme, by simp [closings, lexeme], by simp [openings, closings, lexeme]⟩
  | operator op =>
    obtain ⟨output, next, accepted, same⟩ := parens_operator stack lexeme
    exact .inl ⟨_, _, accepted, by simp [closings, lexeme], by simp [openings, closings, lexeme, same]⟩
  | leftParen =>
    refine .inl ⟨_, _, accept_leftParen stack lexeme, by simp [closings, lexeme], ?_⟩
    simp [openings, closings, lexeme, parens_leftParen stack lexeme]
  | rightParen =>
    rcases parens_rightParen stack lexeme with ⟨none_open, refused⟩ | ⟨paren, output, next, top, accepted⟩
    · exact .inr ⟨by simp [openings, closings, lexeme, none_open], refused⟩
    · refine .inl ⟨_, _, accepted, ?_, ?_⟩
      · simp [openings, closings, lexeme, top]
      · simp [openings, closings, lexeme, top]

/-- The stack takes the tokens that close what is open on it, and nothing else. Only parentheses can be at
fault. -/
theorem drain_cases (stack : OperatorStack) (tokens : List Token) :
    (Closes stack.parens.length tokens ∧ ∃ row, stack.drain tokens none = .ok row) ∨
      (¬ Closes stack.parens.length tokens ∧ ∃ position,
        stack.drain tokens none = .error (.unopened position) ∨
          stack.drain tokens none = .error (.unclosed position)) := by
  induction tokens generalizing stack with
  | nil =>
    -- At the end, the last parenthesis that is still open is at fault.
    rw [closes_nil, List.length_eq_zero_iff, OperatorStack.drain, close_eq]
    cases stack.parens with
    | nil => exact .inl ⟨rfl, stack, rfl⟩
    | cons paren below => exact .inr ⟨by simp, paren.position, .inr rfl⟩
  | cons token tokens ih =>
    -- What is behind the token has to close what is open behind it.
    rw [closes_cons]
    rcases accept_depth stack token with ⟨output, next, accepted, few, depth⟩ | ⟨many, refused⟩
    · rw [drain_ok accepted, ← depth]
      rcases ih next with ⟨closes, row, drained⟩ | ⟨open_left, position, faulty⟩
      · exact .inl ⟨⟨few, closes⟩, output ++ row, by rw [drained]; rfl⟩
      · refine .inr ⟨fun closes => open_left closes.2, position, ?_⟩
        rcases faulty with faulty | faulty
        · exact .inl (by rw [faulty]; rfl)
        · exact .inr (by rw [faulty]; rfl)
    · exact .inr ⟨fun closes => by omega, token.position, .inl (drain_error refused)⟩

/-! ### What is output -/

def Token.isParen (token : Token) : Bool := token.lexeme == .leftParen || token.lexeme == .rightParen

/-- Every number and every operator is output, once, and no parenthesis is. -/
theorem Reorders.perm {level : Level} {tokens row : List Token} (order : Reorders level tokens row) :
    row.Perm (tokens.filter (!·.isParen)) := by
  -- An operator is the only token that moves: from between its operands to behind them.
  have behind (token : Token) {left right first second : List Token} (solid : token.isParen = false)
      (before : first.Perm (left.filter (!·.isParen))) (after : second.Perm (right.filter (!·.isParen))) :
      (first ++ second ++ [token]).Perm ((left ++ token :: right).filter (!·.isParen)) := by
    rw [List.filter_append, List.filter_cons_of_pos (by simp [solid])]
    exact (List.perm_append_singleton token _).trans
      ((List.Perm.cons token (before.append after)).trans List.perm_middle.symm)
  induction order with
  | empty => exact .nil
  | @number token _ _ _ _ lexeme _ ih =>
    have own : [token].filter (!·.isParen) = [token] := by simp [Token.isParen, lexeme]
    rw [List.filter_append, own]
    exact ih.append_right [token]
  | @group opening closing _ _ _ _ opens closes _ _ ihBefore ihInside =>
    have first : opening.isParen = true := by simp [Token.isParen, opens]
    have last : closing.isParen = true := by simp [Token.isParen, closes]
    simp only [List.filter_append, List.filter_cons, first, last, Bool.not_true, Bool.false_eq_true,
      if_false, List.filter_nil, List.append_nil]
    exact ihBefore.append ihInside
  | sign lexeme _ _ ihBefore ihAfter =>
    exact behind _ (by simp [Token.isParen, lexeme]) ihBefore ihAfter
  | operation operation lexeme _ _ ihBefore ihAfter =>
    exact behind _ (by simp [Token.isParen, lexeme]) ihBefore ihAfter
  | tighter _ ih => exact ih

theorem Reorders.mem {level : Level} {tokens row : List Token} (order : Reorders level tokens row)
    {token : Token} (member : token ∈ row) : token ∈ tokens :=
  (List.mem_filter.mp (order.perm.subset member)).1

/-- What is output before a number stands before it among the infix tokens. -/
theorem Reorders.pairwise {before : Token → Token → Prop} {level : Level} {tokens row : List Token}
    (order : Reorders level tokens row) : tokens.Pairwise before →
      row.Pairwise fun earlier later => later.lexeme.kind = .number → before earlier later := by
  induction order with
  | empty => exact fun _ => .nil
  | number _ order ih =>
    intro sorted
    -- The number is output last and stands last.
    obtain ⟨first, -, across⟩ := List.pairwise_append.mp sorted
    exact List.pairwise_append.mpr ⟨ih first, List.pairwise_singleton _ _,
      fun a inRow b own _ => across a (order.mem inRow) b own⟩
  | group _ _ before inside ihBefore ihInside =>
    intro sorted
    obtain ⟨first, second, across⟩ := List.pairwise_append.mp sorted
    obtain ⟨within, -, -⟩ := List.pairwise_append.mp (List.pairwise_cons.mp second).2
    refine List.pairwise_append.mpr ⟨ihBefore first, ihInside within, fun a inRow b inGroup _ => ?_⟩
    exact across a (before.mem inRow) b (List.mem_cons_of_mem _ (List.mem_append_left _ (inside.mem inGroup)))
  | sign lexeme before after ihBefore ihAfter | operation operation lexeme before after ihBefore ihAfter =>
    intro sorted
    obtain ⟨first, second, across⟩ := List.pairwise_append.mp sorted
    obtain ⟨-, operand⟩ := List.pairwise_cons.mp second
    -- Behind its operands the operator is before no number.
    refine List.pairwise_append.mpr ⟨List.pairwise_append.mpr ⟨ihBefore first, ihAfter operand, ?_⟩,
      List.pairwise_singleton _ _, ?_⟩
    · exact fun a inLeft b inRight _ => across a (before.mem inLeft) b (List.mem_cons_of_mem _ (after.mem inRight))
    · intro a _ b own number
      cases List.mem_singleton.mp own
      rw [lexeme] at number
      cases number
  | tighter _ ih => exact ih

/-! ### Places -/

/-- The token, with its place in a row instead of that in a text. -/
def Token.placed (token : Token) (place : Nat) : Token := ⟨token.lexeme, some place⟩

def Token.place (token : Token) : Nat := (token.position.getD 0).toNat

@[simp] theorem place_placed (token : Token) (place : Nat) : (token.placed place).place = place := rfl

/-- The tokens with their places, from a first one on. -/
def numbered (start : Nat) (tokens : List Token) : List Token :=
  (tokens.zipIdx start).map fun entry => entry.1.placed entry.2

/-- The places of the numbers and operators. -/
def solidPlaces (start : Nat) (tokens : List Token) : List Nat :=
  ((tokens.zipIdx start).filter (!·.1.isParen)).map Prod.snd

theorem numbered_append (start : Nat) (first second : List Token) :
    numbered start (first ++ second) = numbered start first ++ numbered (start + first.length) second := by
  rw [numbered, List.zipIdx_append, List.map_append]
  rfl

theorem numbered_cons (start : Nat) (token : Token) (tokens : List Token) :
    numbered start (token :: tokens) = token.placed start :: numbered (start + 1) tokens :=
  rfl

theorem places_numbered (start : Nat) (tokens : List Token) :
    (numbered start tokens).Pairwise fun earlier later => earlier.place < later.place := by
  have places : (numbered start tokens).map Token.place = List.range' start tokens.length := by
    rw [numbered, List.map_map, ← List.zipIdx_map_snd]
    rfl
  refine List.pairwise_map.mp ?_
  rw [places]
  exact List.pairwise_lt_range'

theorem solid_numbered (start : Nat) (tokens : List Token) :
    ((numbered start tokens).filter (!·.isParen)).map Token.place = solidPlaces start tokens := by
  rw [numbered, List.filter_map, List.map_map]
  rfl

/-- The places of tokens do not matter for their parentheses. -/
theorem closes_numbered {depth start : Nat} {tokens : List Token} :
    Closes depth (numbered start tokens) ↔ Closes depth tokens := by
  induction tokens generalizing depth start with
  | nil => exact Iff.rfl
  | cons token tokens ih =>
    rw [numbered_cons, closes_cons, closes_cons, ih]
    exact Iff.rfl

/-- The token with this place, as it stands in the row. -/
def restored (tokens : List Token) (token : Token) : Token :=
  ⟨token.lexeme, (tokens[token.place]?).bind Token.position⟩

@[simp] theorem restored_lexeme (tokens : List Token) (token : Token) :
    (restored tokens token).lexeme = token.lexeme := rfl

theorem restored_placed {tokens : List Token} {token : Token} {place : Nat}
    (found : tokens[place]? = some token) : restored tokens (token.placed place) = token := by
  rw [restored, place_placed, found]
  rfl

section

variable {tokens before part after : List Token} (split : tokens = before ++ (part ++ after))
include split

/-- A part of a row, numbered as it stands there, is found at its places. -/
theorem getElem?_zipIdx {token : Token} {place : Nat} (entry : (token, place) ∈ part.zipIdx before.length) :
    tokens[place]? = some token := by
  obtain ⟨behind, found⟩ := List.mk_mem_zipIdx_iff_le_and_getElem?_sub.mp entry
  have inPart : place - before.length < part.length := (List.getElem?_eq_some_iff.mp found).1
  rw [split, List.getElem?_append_right behind, List.getElem?_append_left inPart, found]

theorem getElem?_numbered {token : Token} (member : token ∈ numbered before.length part) :
    tokens[token.place]? = some (restored tokens token) := by
  obtain ⟨⟨own, place⟩, entry, rfl⟩ := List.mem_map.mp member
  have found := getElem?_zipIdx split entry
  rw [restored_placed found]
  exact found

theorem map_restored : (numbered before.length part).map (restored tokens) = part := by
  rw [numbered, List.map_map]
  have same : ∀ entry ∈ part.zipIdx before.length, restored tokens (entry.1.placed entry.2) = entry.1 :=
    fun entry member => restored_placed (getElem?_zipIdx split member)
  exact (List.map_congr_left same).trans (List.zipIdx_map_fst before.length part)

end

/-! ### Groups -/

/-- How the tokens of a row get to their places in its postfix row. -/
structure Arranged (tokens row : List Token) (places : List Nat) : Prop where
  /-- The places are those where the output stood in the infix row. -/
  reads : row.map some = places.map (tokens[·]?)
  /-- Every number and every operator is output, once, and no parenthesis is. -/
  complete : places.Perm (solidPlaces 0 tokens)
  /-- What is output before a number stood before it. -/
  numbers : places.Pairwise fun earlier later =>
    ∀ token ∈ tokens[later]?, token.lexeme.kind = .number → earlier < later
  /-- A group stays together, and is put in order as if it stood alone. -/
  groups : ∀ {before inside after : List Token} {opening closing : Token},
    tokens = before ++ opening :: (inside ++ closing :: after) →
    opening.lexeme = .leftParen → closing.lexeme = .rightParen → Matched inside →
    ∃ first block last inner, places = first ++ (block ++ last) ∧
      block.Perm (solidPlaces (before.length + 1) inside) ∧
      postfixRow ⟨inside, none⟩ = .ok inner ∧ inner.map some = block.map (tokens[·]?)

theorem Matched.order {tokens : List Token} (matched : Matched tokens) (start : Nat) :
    ∃ row, Reorders .sum (numbered start tokens) row := by
  have closes : Closes 0 (numbered start tokens) := closes_numbered.mpr (closes_zero.mpr matched)
  rcases drain_cases [] (numbered start tokens) with ⟨-, row, drained⟩ | ⟨open_left, -⟩
  · exact ⟨row, postfixRow_iff.mp drained⟩
  · exact absurd closes open_left

/-- The row of a group stands in one piece in the row around it. -/
theorem Reorders.group_stays {before inside after row inner : List Token} {opening closing : Token}
    (order : Reorders .sum (before ++ opening :: (inside ++ closing :: after)) row)
    (opens : opening.lexeme = .leftParen) (closes : closing.lexeme = .rightParen)
    (within : Reorders .sum inside inner) : ∃ first last, row = first ++ (inner ++ last) := by
  have drained := order.postfixRow_eq
  obtain ⟨-, output, final, run, -, -⟩ := accepts_of_drain drained
  obtain ⟨early, -, stack, -, left, -⟩ := run.split
  -- The opening parenthesis keeps the group apart from what is on the stack by then.
  obtain ⟨now, pending, inner_run, rfl, operators⟩ := within.accepts (blocks_paren .sum stack opens)
  have group := (inner_run.enclosed opens closes operators).drain after none
  rw [List.cons_append, List.append_assoc, List.singleton_append] at group
  rw [postfixRow, left.drain, group] at drained
  cases rest : stack.drain after none with
  | error fault =>
    rw [rest] at drained
    cases drained
  | ok last =>
    rw [rest] at drained
    cases drained
    exact ⟨early, last, rfl⟩

theorem Reorders.arranged {tokens row : List Token} (order : Reorders .sum (numbered 0 tokens) row) :
    Arranged tokens (row.map (restored tokens)) (row.map Token.place) where
  reads := by
    have whole : tokens = [] ++ (tokens ++ []) := by simp
    rw [List.map_map, List.map_map]
    exact List.map_congr_left fun token member => (getElem?_numbered whole (order.mem member)).symm
  complete := by
    rw [← solid_numbered]
    exact order.perm.map Token.place
  numbers := by
    have whole : tokens = [] ++ (tokens ++ []) := by simp
    refine List.pairwise_map.mpr ((order.pairwise (places_numbered 0 tokens)).imp_of_mem ?_)
    intro earlier later _ member before token found number
    -- A token keeps its lexeme at its place.
    rw [getElem?_numbered whole (order.mem member)] at found
    cases Option.mem_some.mp found
    exact before number
  groups := by
    intro before inside after opening closing split opens closes matched
    -- The inside is numbered as it stands in the row, so its block is found there with its places.
    obtain ⟨block, within⟩ := matched.order (before.length + 1)
    have moved : numbered 0 tokens = numbered 0 before ++ opening.placed before.length ::
        (numbered (before.length + 1) inside ++
          closing.placed (before.length + 1 + inside.length) ::
            numbered (before.length + 1 + inside.length + 1) after) := by
      rw [split, numbered_append, Nat.zero_add, numbered_cons, numbered_append, numbered_cons]
    obtain ⟨first, last, rfl⟩ := (moved ▸ order).group_stays opens closes within
    -- Seen from the inside, the opening parenthesis belongs to what stands before.
    have inner : tokens = (before ++ [opening]) ++ (inside ++ closing :: after) := by simp [split]
    have start : (before ++ [opening]).length = before.length + 1 := by simp
    refine ⟨first.map Token.place, block.map Token.place, last.map Token.place,
      block.map (restored tokens), by simp, ?_, ?_, ?_⟩
    · rw [← solid_numbered]
      exact within.perm.map Token.place
    · have alone := within.map (restored_lexeme tokens)
      rw [← start, map_restored inner] at alone
      exact alone.postfixRow_eq
    · rw [List.map_map, List.map_map]
      rw [← start] at within
      exact List.map_congr_left fun token member => (getElem?_numbered inner (within.mem member)).symm

/-- Rows with matching parentheses, and only these, have a postfix row, well formed or not. It consists of
their numbers and operators, each once: nothing overtakes a number from before it, and the tokens of a group
stand together as if they were alone. For all other rows parentheses are reported. -/
theorem postfixRow_arranged (tokens : List Token) :
    (Matched tokens ∧ ∃ row places, postfixRow ⟨tokens, none⟩ = .ok row ∧ Arranged tokens row places) ∨
      (¬ Matched tokens ∧ ∃ fault, postfixRow ⟨tokens, none⟩ = .error fault ∧
        ∀ expression, Diagnosis.ofFault expression fault =
          Diagnosis.mismatchedParentheses fault.message expression) := by
  rcases drain_cases [] tokens with ⟨closes, -⟩ | ⟨open_left, position, faulty⟩
  · have matched := closes_zero.mp closes
    obtain ⟨row, order⟩ := matched.order 0
    have whole : tokens = [] ++ (tokens ++ []) := by simp
    have alone := order.map (restored_lexeme tokens)
    have same : (numbered 0 tokens).map (restored tokens) = tokens := map_restored whole
    rw [same] at alone
    exact .inl ⟨matched, _, _, alone.postfixRow_eq, order.arranged⟩
  · refine .inr ⟨fun matched => open_left (closes_zero.mpr matched), ?_⟩
    rcases faulty with faulty | faulty
    · exact ⟨_, faulty, fun _ => rfl⟩
    · exact ⟨_, faulty, fun _ => rfl⟩

end Reckoner
