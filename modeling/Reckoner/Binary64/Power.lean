import Reckoner.Binary64.Arithmetic

/-!
# Powers of doubles

The special cases, the sign and the domain of a power are decided here. Only the magnitude of a finite
positive base raised to a finite exponent is left to the machine's own power function.
-/

namespace Reckoner.Binary64

def signBit : Nat := Nat.pow 2 63

/-- The interchange pattern: the sign bit over the rank. -/
def toBits : Binary64 → UInt64
  | nan => 0x7FF8000000000000
  | infinite negative => UInt64.ofNat (rankCount + if negative then signBit else 0)
  | finite negative rank _ => UInt64.ofNat (rank + if negative then signBit else 0)

def ofBits (bits : UInt64) : Binary64 :=
  let rank := bits.toNat % signBit
  if rankCount < rank then nan else ofRank (signBit ≤ bits.toNat) rank

/-- The magnitude of a number, its sign dropped. -/
def abs : Binary64 → Binary64
  | nan => nan
  | infinite _ => infinite false
  | finite _ rank h => finite false rank h

def withSign (negative : Bool) : Binary64 → Binary64
  | nan => nan
  | infinite _ => infinite negative
  | finite _ rank h => finite negative rank h

/-- The magnitude of a positive base raised to an exponent, by the machine. -/
def machinePower (base exponent : Binary64) : Binary64 :=
  abs (ofBits (Float.pow (Float.ofBits base.toBits) (Float.ofBits exponent.toBits)).toBits)

/-- The magnitude of the power of a base that is zero, one, infinite or positive and finite. The limit
cases follow the growth of the power: up for a base above one, down for a base below. -/
def powerMagnitude (base exponent : Binary64) : Binary64 :=
  match base, exponent with
  | nan, _ => nan
  | _, nan => nan
  | infinite _, exponent => if exponent.isNegative then zero false else infinite false
  | finite _ m _, infinite down =>
    if m = rankOfOne then one
    else if (rankOfOne < m) != down then infinite false
    else zero false
  | finite s m h, finite t n k =>
    if m = 0 then if t then infinite false else zero false
    else machinePower (finite s m h) (finite t n k)

/-- The power. An exponent of zero and a base of one give one, even with not-a-number; a negative base
needs a whole exponent, and an odd one makes the power negative, at poles and overflow too. -/
def pow (a b : Binary64) : Binary64 :=
  if b.isZero || a = one then one
  else
    match a, b with
    | nan, _ => nan
    | _, nan => nan
    | finite true m _, finite _ _ _ =>
      if m != 0 && !b.isInteger then nan
      else withSign b.isOddInteger (powerMagnitude a.abs b)
    | _, _ => withSign (a.isNegative && b.isOddInteger) (powerMagnitude a.abs b)

end Reckoner.Binary64
