/-!
# Binary64 numbers

The IEEE-754 binary64 format as data. A finite number is given by its sign, its
biased exponent and its fraction field, so two numbers are the same term exactly
when they have the same bits. There is one NaN.

Arithmetic is not defined here. Numbers are read, compared and written, and all
of that is done on the exact value `significand * 2 ^ scale`.
-/

namespace TaggedData

/-- Powers are those of the core library, also where another instance is in scope. -/
scoped instance (priority := high) corePower {α : Type} [NatPow α] : Pow α Nat :=
  instPowNat

inductive Binary64 where
  | nan
  | infinite (negative : Bool)
  | finite (negative : Bool) (exponent : Fin 2047) (fraction : Fin (2 ^ (52 : Nat)))
  deriving DecidableEq, Repr

namespace Binary64

/-- The integer that the value is a power of two times of. Exponent field zero
holds the subnormal numbers, which have no leading one. -/
def significand (exponent : Fin 2047) (fraction : Fin (2 ^ (52 : Nat))) : Nat :=
  if exponent.val = 0 then fraction.val else 2 ^ (52 : Nat) + fraction.val

def scale (exponent : Fin 2047) : Int :=
  (max exponent.val 1 : Nat) - 1075

theorem significand_lt (exponent : Fin 2047) (fraction : Fin (2 ^ (52 : Nat))) :
    significand exponent fraction < 2 ^ (53 : Nat) := by
  have := fraction.isLt
  unfold significand
  split <;> omega

theorem le_scale (exponent : Fin 2047) : -1074 ≤ scale exponent := by
  unfold scale
  omega

def zero (negative : Bool) : Binary64 :=
  .finite negative 0 0

def isFinite : Binary64 → Bool
  | .finite .. => true
  | _ => false

def isZero : Binary64 → Bool
  | .finite _ e f => significand e f == 0
  | _ => false

def isNegative : Binary64 → Bool
  | .nan => false
  | .infinite negative => negative
  | .finite negative _ _ => negative

/-- Equality of numbers: NaN equals nothing, and the two zeros are equal. -/
def equals (x y : Binary64) : Bool :=
  match x with
  | .nan => false
  | _ => x == y || (x.isZero && y.isZero)

/-- The magnitudes in ascending order: the bits of a number without its sign are
its place in that order, and the place after the last finite one is infinity. -/
def ofMagnitude (negative : Bool) (place : Nat) : Binary64 :=
  if h : place < 2047 * 2 ^ (52 : Nat) then
    .finite negative ⟨place / 2 ^ (52 : Nat), Nat.div_lt_of_lt_mul (by omega)⟩
      ⟨place % 2 ^ (52 : Nat), Nat.mod_lt _ (by decide)⟩
  else
    .infinite negative

theorem ofMagnitude_place (negative : Bool) (exponent : Fin 2047)
    (fraction : Fin (2 ^ (52 : Nat))) :
    ofMagnitude negative (exponent.val * 2 ^ (52 : Nat) + fraction.val) =
      .finite negative exponent fraction := by
  have he := exponent.isLt
  have hf := fraction.isLt
  have hlt : exponent.val * 2 ^ (52 : Nat) + fraction.val < 2047 * 2 ^ (52 : Nat) := by omega
  simp only [ofMagnitude, hlt, ↓reduceDIte, Binary64.finite.injEq, true_and]
  constructor <;> apply Fin.ext <;> simp only <;> omega

/-- The 64 bits of a number, most significant first. -/
def toBits : Binary64 → Nat
  | .nan => 0x7ff8000000000000
  | .infinite negative => negative.toNat * 2 ^ (63 : Nat) + 2047 * 2 ^ (52 : Nat)
  | .finite negative e f => negative.toNat * 2 ^ (63 : Nat) + e.val * 2 ^ (52 : Nat) + f.val

/-- Reads 64 bits; every pattern above infinity is a NaN. -/
def ofBits (bits : Nat) : Binary64 :=
  let place := bits % 2 ^ (63 : Nat)
  if 2047 * 2 ^ (52 : Nat) < place then .nan else ofMagnitude (bits / 2 ^ (63 : Nat) % 2 == 1) place

def toInt? : Binary64 → Option Int
  | .finite negative e f =>
    let magnitude? : Option Nat :=
      match scale e with
      | .ofNat k => some (significand e f * 2 ^ k)
      | .negSucc k =>
        if significand e f % 2 ^ (k + 1) = 0 then some (significand e f / 2 ^ (k + 1)) else none
    magnitude?.map fun n => if negative then -(n : Int) else n
  | _ => none

end Binary64
end TaggedData
