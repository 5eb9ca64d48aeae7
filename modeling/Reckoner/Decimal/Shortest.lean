import Reckoner.Decimal.Basic

/-!
# The shortest decimal of a double

Of the decimals that read back as a given positive magnitude, those with the fewest digits are taken,
and of these the nearest one, an exact tie going to the even last digit. On each grid of decimals only
the two neighbours of the magnitude need a look: a decimal further out lies behind one of them.

`onGrid?_rank` says that a decimal found on a grid reads back, `exactDecimal_ratio` that the exact one has
the value of the magnitude.
-/

namespace Reckoner

def digitCount (n : Nat) : Nat := (decimalDigits n).length

namespace Binary64

/-- The exponent of the leading decimal digit of a positive magnitude. -/
def leadingExponent (rank : Nat) : Int :=
  if unitsPerOne ≤ units rank then (digitCount (wholePart rank) : Int) - 1
  else -(digitCount ((unitsPerOne - 1) / units rank) : Int)

/-- A magnitude in units of `10 ^ grid`, as numerator and denominator. -/
def inGrid (rank : Nat) (grid : Int) : Nat × Nat :=
  (units rank * Nat.pow 10 (-grid).toNat, unitsPerOne * Nat.pow 10 grid.toNat)

/-- The neighbours of a magnitude on a grid of decimals, the nearer one first. -/
def neighbours (rank : Nat) (grid : Int) : List Decimal :=
  let num := (inGrid rank grid).1
  let den := (inGrid rank grid).2
  [⟨divRoundEven num den, grid⟩, ⟨num / den, grid⟩, ⟨num / den + 1, grid⟩]

/-- The decimal on a grid that reads back as the magnitude, the nearer one of two. -/
def onGrid? (rank : Nat) (grid : Int) : Option Decimal :=
  (neighbours rank grid).find? (·.rank == rank)

/-- The magnitude itself as a decimal, as `2 ^ -1074` is `5 ^ 1074 * 10 ^ -1074`. -/
def exactDecimal (rank : Nat) : Decimal := ⟨units rank * Nat.pow 5 gridPlaces, -gridPlaces⟩

/-- The shortest decimal that reads back as a positive magnitude. Seventeen digits always do. -/
def shortest (rank : Nat) : Decimal :=
  ((List.range 17).findSome? fun (more : Nat) => onGrid? rank (leadingExponent rank - more)).getD
    (exactDecimal rank)

/-- A decimal found on a grid reads back. -/
theorem onGrid?_rank {rank : Nat} {grid : Int} {d : Decimal} (h : onGrid? rank grid = some d) :
    d.rank = rank := by
  simpa using List.find?_some h

/-- A count of `2 ^ -places` is its product with `5 ^ places`, as a count of `10 ^ -places`. -/
theorem halves_ratio (count places : Nat) :
    (⟨count * Nat.pow 5 places, -places⟩ : Decimal).ratio.1 * Nat.pow 2 places =
      count * (⟨count * Nat.pow 5 places, -places⟩ : Decimal).ratio.2 := by
  simp only [Decimal.ratio, Int.toNat_neg_natCast, Int.neg_neg, Int.toNat_natCast]
  -- No power of ten is left over on the side of the coefficient.
  show count * Nat.pow 5 places * 1 * Nat.pow 2 places = count * Nat.pow 10 places
  rw [Nat.mul_one, Nat.mul_assoc]
  exact congrArg (count * ·) (Nat.mul_pow 5 2 places).symm

/-- The exact decimal has the value of the magnitude. -/
theorem exactDecimal_ratio (rank : Nat) :
    (exactDecimal rank).ratio.1 * unitsPerOne = units rank * (exactDecimal rank).ratio.2 := by
  unfold exactDecimal unitsPerOne
  generalize gridPlaces = places
  exact halves_ratio (units rank) places

end Binary64

end Reckoner
