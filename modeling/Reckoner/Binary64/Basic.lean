/-!
# Double precision numbers

A number is not-a-number, an infinity, or a signed finite magnitude. The finite magnitudes are
numbered in increasing order: rank `0` is zero, rank `1` the least positive one. Every magnitude is a
whole number of grid units of `2 ^ -1074`, so arithmetic on them is exact arithmetic on `Nat`.

`units_of_carry` says that a significand and a step of the grid give the rank directly.
-/

namespace Reckoner

/-- How many ranks share one spacing: a significand has 53 bits, and the first is always set. -/
def Binary64.binade : Nat := Nat.pow 2 52

/-- How many finite magnitudes there are; the rank that stands for infinity. -/
def Binary64.rankCount : Nat := 2047 * binade

/-- A double precision number, with one not-a-number. -/
inductive Binary64
  | nan
  | infinite (negative : Bool)
  | finite (negative : Bool) (rank : Nat) (inRange : rank < Binary64.rankCount)
  deriving DecidableEq

namespace Binary64

/-- How many binary places the grid has; a magnitude has no more decimal places either. -/
def gridPlaces : Nat := 1074

/-- One, in grid units. -/
def unitsPerOne : Nat := Nat.pow 2 gridPlaces

theorem binade_eq : binade = 4503599627370496 := by decide

/-- The magnitude of a rank, in grid units: the spacing doubles from one binade to the next. -/
def units (rank : Nat) : Nat :=
  if rank < binade then rank
  else (binade + rank % binade) * Nat.pow 2 (rank / binade - 1)

/-- A significand of 53 bits over a grid `2 ^ step` times as coarse has rank `step * binade` plus itself. -/
theorem units_of_carry {step significand : Nat} (low : binade ≤ significand)
    (high : significand < 2 * binade) :
    units (step * binade + significand) = significand * Nat.pow 2 step := by
  have hdiv : (step * binade + significand) / binade = step + 1 := by
    rw [binade_eq] at *; omega
  have hmod : (step * binade + significand) % binade = significand - binade := by
    rw [binade_eq] at *; omega
  have hlow : ¬ step * binade + significand < binade := by omega
  rw [units, if_neg hlow, hdiv, hmod, Nat.add_sub_cancel, Nat.add_sub_cancel' low]

/-- The number of a given rank; ranks past the last finite one are infinity. -/
def ofRank (negative : Bool) (rank : Nat) : Binary64 :=
  if h : rank < rankCount then .finite negative rank h else .infinite negative

def zero (negative : Bool) : Binary64 := ofRank negative 0

def rankOfOne : Nat := 1023 * binade

def one : Binary64 := ofRank false rankOfOne

/-- Is the sign bit set? A not-a-number has none. -/
def isNegative : Binary64 → Bool
  | nan => false
  | infinite negative => negative
  | finite negative _ _ => negative

def isFinite : Binary64 → Bool
  | finite .. => true
  | _ => false

def isZero : Binary64 → Bool
  | finite _ rank _ => rank == 0
  | _ => false

/-- Is the value a whole number? Infinities are not. -/
def isInteger : Binary64 → Bool
  | finite _ rank _ => units rank % unitsPerOne == 0
  | _ => false

def isOddInteger : Binary64 → Bool
  | finite _ rank _ => units rank % unitsPerOne == 0 && units rank / unitsPerOne % 2 == 1
  | _ => false

/-- The whole part of a finite magnitude. -/
def wholePart (rank : Nat) : Nat := units rank / unitsPerOne

def signed (negative : Bool) (n : Nat) : Int := if negative then -(n : Int) else n

/-- The value rounded towards zero, if it is finite. -/
def truncate? : Binary64 → Option Int
  | finite negative rank _ => some (signed negative (wholePart rank))
  | _ => none

def neg : Binary64 → Binary64
  | nan => nan
  | infinite negative => infinite !negative
  | finite negative rank h => finite (!negative) rank h

instance : Neg Binary64 := ⟨neg⟩

/-- Equality of values: the zeros are equal, a not-a-number equals nothing. -/
def sameValue : Binary64 → Binary64 → Bool
  | infinite s, infinite t => s == t
  | finite s m _, finite t n _ => m == n && (s == t || m == 0)
  | _, _ => false

theorem neg_neg (x : Binary64) : - -x = x := by
  cases x <;> simp [Neg.neg, neg]

end Binary64

end Reckoner
