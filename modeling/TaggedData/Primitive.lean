/-!
# Primitive types

The eight types that every schema can name without defining them.
-/

namespace TaggedData

inductive Primitive where
  | array
  | boolean
  | number
  | object
  | promise
  | string
  | symbol
  | function
  deriving DecidableEq, Repr

namespace Primitive

def all : List Primitive :=
  [.array, .boolean, .number, .object, .promise, .string, .symbol, .function]

def name : Primitive → String
  | .array => "Array"
  | .boolean => "Boolean"
  | .number => "Number"
  | .object => "Object"
  | .promise => "Promise"
  | .string => "String"
  | .symbol => "Symbol"
  | .function => "Function"

def ofName? (name : String) : Option Primitive :=
  all.find? fun p => p.name == name

theorem ofName?_eq_some_iff {text : String} {p : Primitive} :
    ofName? text = some p ↔ p.name = text := by
  constructor
  · intro h
    have := List.find?_some h
    simpa using this
  · rintro rfl
    cases p <;> decide

end Primitive
end TaggedData
