import TaggedData.Value.Basic

/-!
# Equality of values

Values are compared by their contents, except that symbols, functions and definitions
are compared by identity. Keyed structures are equal when they have the same keys with
equal values, in any order, and NaN equals nothing.
-/

namespace TaggedData
namespace Value

mutual

def equals : Value → Value → Bool
  | .nil, .nil => true
  | .null, .null => true
  | .bool a, .bool b => a == b
  | .number x, .number y => x.equals y
  | .string a, .string b => a == b
  | .symbol a, .symbol b => a == b
  | .list xs, .list ys => equalLists xs ys
  | .object xs, .object ys => xs.length == ys.length && includedFields xs ys
  | .function f, .function g => f == g
  | .primitive p, .primitive q => p == q
  | .definition d, .definition e => d == e
  | .constructor c, .constructor d => c == d
  | .tagged t c form p, .tagged t' c' form' p' =>
    t == t' && c == c' && form == form' && equals p p'
  | _, _ => false

def equalLists : List Value → List Value → Bool
  | [], [] => true
  | x :: xs, y :: ys => equals x y && equalLists xs ys
  | _, _ => false

/-- Every entry of the first has an equal entry under its key in the second. -/
def includedFields : List (String × Value) → List (String × Value) → Bool
  | [], _ => true
  | (key, x) :: rest, ys =>
    (match Keyed.find? key ys with
      | some y => equals x y
      | none => false) && includedFields rest ys

end

end Value
end TaggedData
