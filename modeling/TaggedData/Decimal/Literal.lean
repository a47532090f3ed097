import TaggedData.Binary64.Rounding
import TaggedData.Text.Blank

/-!
# Decimal literals

Reading a number out of a text. A literal is an optional sign, digits with at most
one point among or around them, and an optional exponent. The usual reader takes words as
well; a look at the letters keeps them out, but for the spellings of infinity. Everything
else reads as NaN.
-/

namespace TaggedData
namespace Decimal

def natOfDigits (digits : List Char) : Nat :=
  digits.foldl (fun n c => 10 * n + (c.toNat - '0'.toNat)) 0

/-- A leading sign, `true` for minus, and what follows it. -/
def splitSign : List Char → Bool × List Char
  | '-' :: rest => (true, rest)
  | '+' :: rest => (false, rest)
  | rest => (false, rest)

/-- A text that is empty or an exponent: a letter, an optional sign and digits. -/
def readExponent? : List Char → Option Int
  | [] => some 0
  | c :: rest =>
    let (negative, digits) := splitSign rest
    if (c = 'e' ∨ c = 'E') ∧ digits ≠ [] ∧ digits.all Char.isDigit then
      some (if negative then -(natOfDigits digits : Int) else natOfDigits digits)
    else
      none

/-- The digits of a fraction, if a point comes first, and what follows them. -/
def splitFraction : List Char → List Char × List Char
  | '.' :: rest => (rest.takeWhile Char.isDigit, rest.dropWhile Char.isDigit)
  | rest => ([], rest)

/-- A whole text as a sign and a decimal. -/
def readLiteral? (text : List Char) : Option (Bool × Decimal) :=
  let (negative, body) := splitSign text
  let whole := body.takeWhile Char.isDigit
  let (fraction, rest) := splitFraction (body.dropWhile Char.isDigit)
  if whole = [] ∧ fraction = [] then
    none
  else
    (readExponent? rest).map fun exponent =>
      (negative, ⟨natOfDigits (whole ++ fraction), exponent - fraction.length⟩)

/-- A letter that does not introduce an exponent. -/
def isWordLetter (c : Char) : Bool :=
  c.isAlpha && c != 'e' && c != 'E'

end Decimal

namespace Binary64

open Decimal

/-- The usual reader of numbers, which takes two words for infinity and one for NaN in any letter
case, beside the decimal literals. -/
def readNumeral? (cs : List Char) : Option Binary64 :=
  let (negative, body) := splitSign cs
  let word := body.map Char.toLower
  if word = "inf".toList ∨ word = "infinity".toList then some (.infinite negative)
  else if word = "nan".toList then some .nan
  else (readLiteral? cs).map fun (negative, d) => ofDecimal negative d

/-- Reading without the words: what has a letter of a word is not read at all, except for
the three spellings of infinity. An empty text is zero. -/
def readFiltered (cs : List Char) : Binary64 :=
  if cs = [] then zero false
  else if cs = "Infinity".toList ∨ cs = "+Infinity".toList then .infinite false
  else if cs = "-Infinity".toList then .infinite true
  else if cs.any isWordLetter then .nan
  else (readNumeral? cs).getD .nan

/-- The number that a text denotes. Blanks around it do not count. -/
def parse (text : String) : Binary64 :=
  readFiltered (Text.trim text.toList)

end Binary64
end TaggedData
