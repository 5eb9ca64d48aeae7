import Reckoner.Binary64.Rounding

/-!
# Arithmetic on doubles

Sums, differences, products and quotients are exact and then rounded once. No operation fails: a
quotient by zero is an infinity with the product of the signs, or not-a-number.
-/

namespace Reckoner.Binary64

/-- The sum. An exact zero is negative only if both terms are. -/
def add : Binary64 → Binary64 → Binary64
  | nan, _ => nan
  | _, nan => nan
  | infinite s, infinite t => if s = t then infinite s else nan
  | infinite s, finite .. => infinite s
  | finite .., infinite t => infinite t
  | finite s m _, finite t n _ =>
    let sum := signed s (units m) + signed t (units n)
    if sum = 0 then zero (s && t) else nearest (sum < 0) sum.natAbs 1

/-- The difference: the sum with the opposite. -/
def sub (a b : Binary64) : Binary64 := add a (-b)

def mul : Binary64 → Binary64 → Binary64
  | nan, _ => nan
  | _, nan => nan
  | infinite s, infinite t => infinite (s != t)
  | infinite s, finite t n _ => if n = 0 then nan else infinite (s != t)
  | finite s m _, infinite t => if m = 0 then nan else infinite (s != t)
  | finite s m _, finite t n _ => nearest (s != t) (units m * units n) unitsPerOne

def div : Binary64 → Binary64 → Binary64
  | nan, _ => nan
  | _, nan => nan
  | infinite _, infinite _ => nan
  | infinite s, finite t _ _ => infinite (s != t)
  | finite s _ _, infinite t => zero (s != t)
  | finite s m _, finite t n _ =>
    if n = 0 then
      if m = 0 then nan else infinite (s != t)
    else nearest (s != t) (units m * unitsPerOne) (units n)

instance : Add Binary64 := ⟨add⟩
instance : Sub Binary64 := ⟨sub⟩
instance : Mul Binary64 := ⟨mul⟩
instance : Div Binary64 := ⟨div⟩

end Reckoner.Binary64
