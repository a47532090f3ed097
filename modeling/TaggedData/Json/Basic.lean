import TaggedData.Binary64.Rounding
import TaggedData.Keyed

/-!
# JSON documents

A document keeps whole numbers of up to 64 bits as integers and every other number as
a finite binary64 number. Objects keep the order of their keys; that the keys of an
object differ is the predicate `Unique`, which every document that was read satisfies.
-/

namespace TaggedData

inductive JsonNumber where
  | integer (n : Int) (inRange : -2 ^ (63 : Nat) ≤ n ∧ n < 2 ^ (64 : Nat))
  | real (x : Binary64) (isFinite : x.isFinite = true)
  deriving DecidableEq

namespace JsonNumber

def toBinary64 : JsonNumber → Binary64
  | .integer n _ => .ofInt n
  | .real x _ => x

end JsonNumber

inductive Json where
  | null
  | bool (b : Bool)
  | number (n : JsonNumber)
  | string (text : String)
  | array (items : List Json)
  | object (fields : List (String × Json))

namespace Json

mutual

/-- No object of the document has a key twice, at any depth. -/
def Unique : Json → Prop
  | .array items => AllUnique items
  | .object fields => (fields.map Prod.fst).Nodup ∧ FieldsUnique fields
  | _ => True

def AllUnique : List Json → Prop
  | [] => True
  | item :: rest => Unique item ∧ AllUnique rest

def FieldsUnique : List (String × Json) → Prop
  | [] => True
  | (_, value) :: rest => Unique value ∧ FieldsUnique rest

end

end Json
end TaggedData
