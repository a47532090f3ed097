import TaggedData.Binary64.Basic

/-!
# Rounding to the nearest binary64 number

A non-negative quotient of two integers is rounded to the nearest number, a tie
going to the even one: the quotient is measured on the grid of numbers of its own
size, whose step is a power of two, and rounded to a whole number of steps there.
Decimals and integers are quotients, so this is how both are read.
-/

namespace TaggedData

/-- The number `coefficient * 10 ^ exponent`. -/
structure Decimal where
  coefficient : Nat
  exponent : Int
  deriving DecidableEq, Repr

namespace Binary64

def roundHalfEven (num den : Nat) : Nat :=
  let floor := num / den
  match compare (2 * (num % den)) den with
  | .lt => floor
  | .gt => floor + 1
  | .eq => floor + floor % 2

/-- The greatest `k` with `2 ^ k` at most the quotient. -/
def floorLog2 (num den : Nat) : Int :=
  let k : Int := num.log2 - den.log2
  if den * 2 ^ k.toNat ≤ num * 2 ^ (-k).toNat then k else k - 1

/-- The step of the grid around a quotient, for numbers of so many significant
bits of which the smallest is `2 ^ least`: the step is `2` to this power. -/
def gridScale (precision : Nat) (least : Int) (num den : Nat) : Int :=
  max (floorLog2 num den - (precision - 1 : Nat)) least

/-- How many steps of size `2 ^ step` the quotient is nearest to. -/
def gridSteps (step : Int) (num den : Nat) : Nat :=
  roundHalfEven (num * 2 ^ (-step).toNat) (den * 2 ^ step.toNat)

/-- The number nearest to `num / den`. The numbers of one size take `2 ^ 52` places
in the order of magnitudes, so a step count and its scale give the place. -/
def ofQuotient (negative : Bool) (num den : Nat) : Binary64 :=
  if num = 0 then
    zero negative
  else
    let step := gridScale 53 (-1074) num den
    ofMagnitude negative ((step + 1074).toNat * 2 ^ (52 : Nat) + gridSteps step num den)

/-- The number nearest to a decimal. Above `10 ^ 310` everything is infinite and
below `10 ^ (-330)` everything is zero, which keeps the powers of ten small. -/
def ofDecimal (negative : Bool) (d : Decimal) : Binary64 :=
  if d.coefficient = 0 then
    zero negative
  else if 310 < d.exponent then
    .infinite negative
  else if d.exponent + (d.coefficient.log2 + 1) < -330 then
    zero negative
  else
    ofQuotient negative (d.coefficient * 10 ^ d.exponent.toNat) (10 ^ (-d.exponent).toNat)

def ofNat (n : Nat) : Binary64 :=
  ofQuotient false n 1

def ofInt (n : Int) : Binary64 :=
  ofQuotient (decide (n < 0)) n.natAbs 1

/-- The number nearest to a decimal among those of 24 significant bits, which are
all numbers of this format too. -/
def ofSingleDecimal (negative : Bool) (d : Decimal) : Binary64 :=
  if d.coefficient = 0 ∨ d.exponent + (d.coefficient.log2 + 1) < -330 then
    zero negative
  else if 310 < d.exponent then
    .infinite negative
  else
    let num := d.coefficient * 10 ^ d.exponent.toNat
    let den := 10 ^ (-d.exponent).toNat
    let step := gridScale 24 (-149) num den
    let single := gridSteps step num den * 2 ^ step.toNat
    if 2 ^ (128 : Nat) ≤ single then .infinite negative
    else ofQuotient negative single (2 ^ (-step).toNat)

end Binary64
end TaggedData
