import TaggedData.Binary64.Rounding

/-!
# The shortest decimal of a number

A finite number is written with the fewest digits that still read back as that
number, and with the decimal nearest to it among those of that length. For one,
two, … seventeen digits the two decimals around the number are tried, and reading
decides whether one will do; the exact expansion stands behind the search, so the
result reads back whatever the search does.
-/

namespace TaggedData

/-- What happens to a number that lies exactly between two equally short decimals. -/
inductive Tie where
  | toEven
  | awayFromZero
  deriving DecidableEq, Repr

def Tie.round (floor : Nat) : Tie → Nat
  | .toEven => floor + floor % 2
  | .awayFromZero => floor + 1

/-- Decimal digits, most significant first; zero has the digit `0`. -/
def digitsOf (n : Nat) : List Char :=
  Nat.toDigits 10 n

def Decimal.dropZero (d : Decimal) : Decimal :=
  if d.coefficient ≠ 0 ∧ d.coefficient % 10 = 0 then ⟨d.coefficient / 10, d.exponent + 1⟩ else d

namespace Binary64

/-- The power of ten just above a positive quotient: `10 ^ (p - 1) ≤ num / den < 10 ^ p`. -/
def decimalPoint (num den : Nat) : Int :=
  if den ≤ num then (digitsOf (num / den)).length
  else 1 - ((digitsOf ((den - 1) / num)).length : Int)

def exactDecimal (significand : Nat) (scale : Int) : Decimal :=
  ⟨significand * 2 ^ scale.toNat * 5 ^ (-scale).toNat, min scale 0⟩

/-- The multiples of `10 ^ step` on either side of a quotient, the nearer one first. The
upper one may be the next power of ten, which is written with a digit less. -/
def neighbours (tie : Tie) (num den : Nat) (step : Int) : List Decimal :=
  let num := num * 10 ^ (-step).toNat
  let den := den * 10 ^ step.toNat
  let floor := num / den
  let nearer :=
    match compare (2 * (num % den)) den with
    | .lt => floor
    | .gt => floor + 1
    | .eq => tie.round floor
  let farther := if nearer = floor then floor + 1 else floor
  [Decimal.dropZero ⟨nearer, step⟩, Decimal.dropZero ⟨farther, step⟩]

/-- The shortest decimal of a magnitude, `0` for zero. -/
def shortest (tie : Tie) (exponent : Fin 2047) (fraction : Fin (2 ^ (52 : Nat))) : Decimal :=
  let m := significand exponent fraction
  let s := scale exponent
  let num := m * 2 ^ s.toNat
  let den := 2 ^ (-s).toNat
  let point := decimalPoint num den
  let readsBack (d : Decimal) : Bool := ofDecimal false d = .finite false exponent fraction
  if m = 0 then ⟨0, 0⟩
  else
    let found := (List.range 17).findSome? fun digits =>
      (neighbours tie num den (point - (digits + 1 : Nat))).find? readsBack
    found.getD (exactDecimal m s)

end Binary64
end TaggedData
