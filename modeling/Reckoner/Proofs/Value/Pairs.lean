import Mathlib.Data.List.Chain
import Reckoner.Value.Reader

/-!
# Pairs of surrogates

A half that leads and a half that follows it have the same escapes as the character that they make up, so it is
this character that is read from them. All other texts are read as they are. Among these are the texts without
halves, and all that the reader itself yields.

* `joinPairs`, the points with a character in the place of each pair.
* `CodeText.Unpaired`, the texts without pairs.
-/

namespace Reckoner

namespace CodePoint

/-- Do the two points make up a pair? -/
def pairs : CodePoint → CodePoint → Bool
  | surrogate first, surrogate second => first.leads && !second.leads
  | _, _ => false

end CodePoint

/-- The points with one character for the two halves of each pair. -/
def joinPairs : List CodePoint → List CodePoint
  | [] => []
  | .surrogate first :: .surrogate second :: rest =>
    if first.leads && !second.leads then .char (Value.charOfPair first.unit second.unit) :: joinPairs rest
    else .surrogate first :: joinPairs (.surrogate second :: rest)
  | point :: rest => point :: joinPairs rest

/-- A point in front of no second half makes up no pair. -/
theorem pairs_of_other {point : CodePoint} {points : List CodePoint}
    (other : ∀ first second rest, point = .surrogate first → points = .surrogate second :: rest → False) :
    ∀ next ∈ points.head?, point.pairs next = false := by
  intro next head
  cases point with
  | char c => rfl
  | surrogate first =>
    cases next with
    | char c => rfl
    | surrogate second =>
      obtain ⟨rest, same⟩ := List.head?_eq_some_iff.mp head
      exact (other first second rest rfl same).elim

/-- No two points in a row make up a pair. -/
def NoPair (points : List CodePoint) : Prop := points.IsChain fun one next => one.pairs next = false

theorem joinPairs_of_noPair {points : List CodePoint} (single : NoPair points) : joinPairs points = points := by
  induction points using joinPairs.induct with
  | case1 => rfl
  | case2 first second rest pair ih =>
    -- These two would be a pair.
    have apart : (first.leads && !second.leads) = false := (List.isChain_cons_cons.mp single).1
    rw [apart] at pair
    cases pair
  | case3 first second rest apart ih =>
    rw [joinPairs, if_neg apart, ih (List.isChain_cons_cons.mp single).2]
  | case4 point rest other ih => rw [joinPairs.eq_3 point rest other, ih single.tail]

namespace CodeText

/-- The text with one character for the two halves of each pair. -/
def joined (text : CodeText) : CodeText := ⟨joinPairs text.points⟩

/-- No half in the text stands right in front of its partner. -/
def Unpaired (text : CodeText) : Prop := NoPair text.points

theorem Unpaired.joined_eq {text : CodeText} (unpaired : text.Unpaired) : text.joined = text :=
  congrArg mk (joinPairs_of_noPair unpaired)

/-- A text of characters has no pairs. -/
theorem unpaired_ofString (text : String) : (ofString text).Unpaired := by
  have chars : ∀ row : List Char, NoPair (row.map .char) := by
    intro row
    induction row with
    | nil => exact .nil
    | cons c row ih =>
      cases row with
      | nil => exact .singleton _
      | cons d row => exact .cons_cons rfl ih
  exact chars text.toList

/-- A half alone. -/
def ofHalf (half : Surrogate) : CodeText := ⟨[.surrogate half]⟩

theorem unpaired_ofHalf (half : Surrogate) : (ofHalf half).Unpaired := .singleton _

end CodeText

end Reckoner
