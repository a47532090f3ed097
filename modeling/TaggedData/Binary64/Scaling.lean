import TaggedData.Binary64.Rounding

/-!
# Scaling by powers of ten

A fast way to a number from its digits: the digits are rounded as a whole number, and the
result is multiplied or divided by a power of ten, which rounds again. So the number need not
be the nearest one, and a number near the upper bound may come out as infinite.
-/

namespace TaggedData
namespace Binary64

/-- A finite number without its sign is `numerator / denominator`. -/
def numerator : Binary64 → Nat
  | .finite _ e f => significand e f * 2 ^ (scale e).toNat
  | _ => 0

def denominator : Binary64 → Nat
  | .finite _ e _ => 2 ^ (-scale e).toNat
  | _ => 1

def times (x y : Binary64) : Binary64 :=
  ofQuotient false (x.numerator * y.numerator) (x.denominator * y.denominator)

def dividedBy (x y : Binary64) : Binary64 :=
  ofQuotient false (x.numerator * y.denominator) (x.denominator * y.numerator)

def powerOfTen (n : Nat) : Binary64 :=
  ofDecimal false ⟨1, n⟩

/-- The powers of ten stand in a table that ends at `10 ^ 308`. Below it the way down goes in
several steps; above it there is nothing but infinity. -/
def scaleByTen? (x : Binary64) (exponent : Int) : Option Binary64 :=
  if exponent.natAbs ≤ 308 then
    if 0 ≤ exponent then
      let y := x.times (powerOfTen exponent.natAbs)
      if y.isFinite then some y else none
    else
      some (x.dividedBy (powerOfTen exponent.natAbs))
  else if x.isZero then some x
  else if 0 ≤ exponent then none
  else (x.dividedBy (powerOfTen 308)).scaleByTen? (exponent + 308)
termination_by exponent.natAbs

def withSign (negative : Bool) : Binary64 → Binary64
  | .finite _ e f => .finite negative e f
  | .infinite _ => .infinite negative
  | .nan => .nan

end Binary64
end TaggedData
