import TaggedData.Binary64.Basic
import TaggedData.Definition
import TaggedData.Keyed

/-!
# Values

The values that types are checked against: what a JSON document can hold, and beside it
symbols, functions, types and their constructors, and typed values. A typed value is
tagged with the name of its type and the label of its constructor; it does not hold the
definition itself.
-/

namespace TaggedData

/-- A symbol is told apart from others by its number, not by its description. -/
structure Symbol where
  id : Nat
  description : String
  deriving DecidableEq, Repr

/-- A function of the surroundings. What calling it does is known to the `Host` alone. -/
structure Function where
  id : Nat
  name : Option String
  deriving DecidableEq, Repr

/-- What a typed value was made by. -/
inductive Form where
  | variant (arity : Nat)
  | record
  deriving DecidableEq, Repr

inductive Value where
  | nil
  | null
  | bool (b : Bool)
  | number (x : Binary64)
  | string (text : String)
  | symbol (s : Symbol)
  | list (items : List Value)
  | object (fields : List (String × Value))
  | function (f : Function)
  | primitive (p : Primitive)
  | definition (d : Definition)
  | constructor (c : Constructor)
  | tagged (typeName label : String) (form : Form) (payload : Value)

instance : Inhabited Value := ⟨.nil⟩

namespace Value

def isNil : Value → Bool
  | .nil => true
  | _ => false

def isAbsent : Value → Bool
  | .nil | .null => true
  | _ => false

def isCallable : Value → Bool
  | .function _ | .primitive _ | .constructor _ => true
  | _ => false

def isObject : Value → Bool
  | .object _ => true
  | _ => false

def isList : Value → Bool
  | .list _ => true
  | _ => false

def isString : Value → Bool
  | .string _ => true
  | _ => false

def isTagged : Value → Bool
  | .tagged .. => true
  | _ => false

/-- The kind of a value as the host names it. -/
def kind : Value → String
  | .nil => "undefined"
  | .bool _ => "boolean"
  | .number _ => "number"
  | .string _ => "string"
  | .symbol _ => "symbol"
  | .function _ | .primitive _ | .constructor _ => "function"
  | .null | .list _ | .object _ | .definition _ | .tagged .. => "object"

mutual

/-- No keyed structure in the value has a key twice, at any depth. -/
def Unique : Value → Prop
  | .list items => AllUnique items
  | .object fields => (fields.map Prod.fst).Nodup ∧ FieldsUnique fields
  | .tagged _ _ _ payload => Unique payload
  | _ => True

def AllUnique : List Value → Prop
  | [] => True
  | item :: rest => Unique item ∧ AllUnique rest

def FieldsUnique : List (String × Value) → Prop
  | [] => True
  | (_, value) :: rest => Unique value ∧ FieldsUnique rest

end

end Value

namespace Primitive

/-- Whether a value belongs to a primitive type. Nothing is a promise. -/
def admits (p : Primitive) (v : Value) : Bool :=
  match p, v with
  | .array, .list _ => true
  | .boolean, .bool _ => true
  | .number, .number _ => true
  | .string, .string _ => true
  | .symbol, .symbol _ => true
  | .function, v => v.isCallable
  | .object, .list _ | .object, .object _ | .object, .function _ | .object, .primitive _
  | .object, .definition _ | .object, .constructor _ | .object, .tagged .. => true
  | _, _ => false

end Primitive
end TaggedData
