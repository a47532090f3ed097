import TaggedData.Binary64.Shortest

/-!
# Numbers as text

One layout of decimals serves every place where a number is written. A `Style` says
which magnitudes are written positionally and how the exponent of the others looks;
the three styles at the end are the ones in use.
-/

namespace TaggedData

namespace Decimal

def leadingExponent (d : Decimal) : Int :=
  (digitsOf d.coefficient).length + d.exponent - 1

/-- All digits in place, with zeros between them and the point where needed. -/
def positional (d : Decimal) : List Char :=
  let digits := digitsOf d.coefficient
  if 0 ≤ d.exponent then
    digits ++ List.replicate d.exponent.toNat '0'
  else
    let places := (-d.exponent).toNat
    let padded := List.replicate (places + 1 - digits.length) '0' ++ digits
    padded.take (padded.length - places) ++ '.' :: padded.drop (padded.length - places)

/-- One digit before the point, and the power of ten behind it. -/
def scientific (plusSign : Bool) (d : Decimal) : List Char :=
  let exponent := d.leadingExponent
  let mantissa :=
    match digitsOf d.coefficient with
    | first :: second :: rest => first :: '.' :: second :: rest
    | digits => digits
  let sign := if exponent < 0 then ['-'] else if plusSign then ['+'] else []
  mantissa ++ 'e' :: sign ++ digitsOf exponent.natAbs

end Decimal

namespace Binary64

structure Style where
  tie : Tie
  /-- The powers of ten of the first digit for which notation is positional. -/
  positional : Int → Bool
  /-- Whole numbers in positional notation end in `.0`. -/
  pointZero : Bool
  /-- Positive exponents carry a sign. -/
  plusSign : Bool

/-- Written with every digit in place, however many that takes. -/
def Style.plain : Style := ⟨.awayFromZero, fun _ => true, false, false⟩

def Style.json : Style := ⟨.toEven, fun e => -5 ≤ e && e < 16, true, true⟩

def Style.diagnostic : Style := ⟨.awayFromZero, fun e => -4 ≤ e && e < 16, true, false⟩

def Style.magnitude (style : Style) (exponent : Fin 2047) (fraction : Fin (2 ^ (52 : Nat))) :
    List Char :=
  let d := shortest style.tie exponent fraction
  if d.coefficient = 0 || style.positional d.leadingExponent then
    d.positional ++ if style.pointZero && 0 ≤ d.exponent then ['.', '0'] else []
  else
    d.scientific style.plusSign

/-- The text of a number, with the names that the caller gives to what is not finite. -/
def Style.text (style : Style) (nan infinity : String) : Binary64 → String
  | .nan => nan
  | .infinite negative => (if negative then "-" else "") ++ infinity
  | .finite negative e f => String.ofList ((if negative then ['-'] else []) ++ style.magnitude e f)

/-- The largest integer that is written digit by digit as an integer. -/
def integerBound : Nat := 2 ^ (63 : Nat)

/-- The integer that a whole number between the bounds is written as. The upper bound
itself is written as the integer below it. -/
def asInteger? (x : Binary64) : Option Int :=
  x.toInt?.bind fun n =>
    if -integerBound ≤ n && n ≤ integerBound then some (min n (integerBound - 1)) else none

theorem asInteger?_range {x : Binary64} {n : Int} (h : x.asInteger? = some n) :
    -2 ^ (63 : Nat) ≤ n ∧ n < 2 ^ (63 : Nat) := by
  unfold asInteger? at h
  obtain ⟨m, -, hm⟩ := Option.bind_eq_some_iff.1 h
  unfold integerBound at hm
  split at hm
  · rename_i hb
    simp only [Bool.and_eq_true, decide_eq_true_eq] at hb
    simp only [Option.some.injEq] at hm
    omega
  · simp at hm

/-- The text of a number as the host shows it: whole numbers without a point. -/
def render (x : Binary64) : String :=
  match x.asInteger? with
  | some n => toString n
  | none => Style.plain.text "NaN" "Infinity" x

end Binary64
end TaggedData
