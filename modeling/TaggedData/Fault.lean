import TaggedData.Value.Render
import TaggedData.Value.Tags

/-!
# Faults

Everything that can be wrong with a descriptor, a value or a schema, by cause. A fault
keeps the values and definitions that it is about, and its message is worked out from
them at the end.
-/

namespace TaggedData

inductive UnionFault where
  | absent
  | notKeyed (given : Value)
  | nameMissing
  | nameNotText (given : Value)
  | constructorsMissing (name : String)
  | constructorsEmpty (name : String)
  | constructorsNotList (name : String) (given : Value)
  | constructorUnnamed (name : String) (index : Nat) (entry : Value)
  | constructorArity (name label : String) (given : Value)
  | constructorRepeated (name label : String)

inductive RecordFault where
  | absent
  | notKeyed (given : Value)
  | nameMissing
  | nameEmpty
  | nameNotText (given : Value)
  | nameNotCapitalized (name : String)
  | shapeMissing (name : String)
  | shapeEmpty (name : String)
  | shapeNotKeyed (name : String) (given : Value)
  | fieldUnnamed (name : String) (shape : Keyed Value)
  | fieldUntyped (name field : String) (shape : Keyed Value)
  | fieldTypeUnknown (name field : String) (declared : Value) (shape : Keyed Value)

inductive CallFault where
  | unknownConstructor (u : Union) (label : String)
  | argumentCount (c : Constructor) (given : Nat)
  | symbolToNumber
  | arrayLength (length : Binary64)
  | promise
  | function

/-- What is wrong with the cases of a matcher, or with the value it is applied to. -/
inductive MatchFault where
  | noCases (u : Union)
  | unknownCases (u : Union) (labels : List String)
  | missingCases (u : Union) (labels : List String)
  | caseWithoutValue (u : Union) (label : String)
  | casesNotKeyed (u : Union) (given : Value)
  | otherType (u : Union) (given : Value)
  | notAValue (u : Union) (given : Value)
  | noCase (u : Union) (label : String)

/-- What is wrong with a value that should become a value of a record. -/
inductive ShapeFault where
  | absent (r : Record)
  | noFields (r : Record) (given : Value)
  | unexpectedFields (r : Record) (fields : List String)
  | missingFields (r : Record) (fields : List String)
  | fieldValue (r : Record) (field : String) (type : FieldType) (given : Value)
  | elementValue (r : Record) (field : String) (type : ElementType) (given : Value) (index : Nat)
      (item : Value)

inductive SchemaFault where
  | primitiveName (name : String)
  | repeatedName (name : String)
  | unknownType (name : String)
  /-- What is wrong with the text of a document, and where in it. -/
  | malformed (path cause : String)

inductive Fault where
  | union (f : UnionFault)
  | record (f : RecordFault)
  | call (f : CallFault)
  | matching (f : MatchFault)
  | shape (f : ShapeFault)
  | cannotFocus (owner field : String) (target : Value)
  | schema (f : SchemaFault)
  /-- A failure that a branch of a match reports by itself. -/
  | raised (text : String)

def Value.described (v : Value) : String :=
  v.render ++ " : " ++ v.inferredName

namespace UnionFault

def message : UnionFault → String
  | .absent => "Type: a type descriptor is required"
  | .notKeyed given =>
    "Type: the descriptor must be a keyed structure, got " ++ given.described
  | .nameMissing => "Type: typeName is required"
  | .nameNotText given =>
    "Type: typeName must be a non-empty string, got '" ++ given.render ++ "' : " ++
      given.inferredName
  | .constructorsMissing name => "Type " ++ name ++ ": constructors are required"
  | .constructorsEmpty name => "Type " ++ name ++ ": constructors must not be empty"
  | .constructorsNotList name given =>
    "Type " ++ name ++ ": constructors must be a sequence, got " ++ given.described
  | .constructorUnnamed name index entry =>
    "Type " ++ name ++ ": constructor #" ++ toString index ++ " (" ++ entry.render ++
      ") must have a non-empty name"
  | .constructorArity name label given =>
    "Type " ++ name ++ ": constructor " ++ label ++
      " must have a non-negative integer arity, got " ++ given.render
  | .constructorRepeated name label =>
    "Type " ++ name ++ ": constructor " ++ label ++ " is declared twice"

end UnionFault

namespace RecordFault

/-- The signature of a shape whose entries may be anything. -/
def shapeSignature (name : String) (shape : Keyed Value) : String :=
  Record.signatureOf name (shape.map fun (field, declared) => (field, declared.render))

def message : RecordFault → String
  | .absent => "Record: a record descriptor is required"
  | .notKeyed given =>
    "Record: the descriptor must be a keyed structure, got " ++ given.described
  | .nameMissing => "Record: recordName is required"
  | .nameEmpty => "Record: recordName must not be empty"
  | .nameNotText given => "Record: recordName must be a string, got " ++ given.described
  | .nameNotCapitalized name =>
    "Record: recordName " ++ name ++ " must start with an upper-case letter, did you mean " ++
      Text.capitalize name ++ "?"
  | .shapeMissing name => "Record " ++ name ++ ": shape is required"
  | .shapeEmpty name => "Record " ++ name ++ ": shape must declare at least one field"
  | .shapeNotKeyed name given =>
    "Record " ++ name ++ ": shape must be a keyed structure of field types, got " ++
      given.described
  | .fieldUnnamed name shape =>
    "Record " ++ name ++ ": every field needs a name in " ++ shapeSignature name shape
  | .fieldUntyped name field shape =>
    "Record " ++ name ++ ": field " ++ field ++ " has no type in " ++ shapeSignature name shape
  | .fieldTypeUnknown name field declared shape =>
    "Record " ++ name ++ ": field " ++ field ++ " is declared as " ++ declared.render ++
      ", which is not a primitive type, a user type or a one-element list of either, in " ++
      shapeSignature name shape

end RecordFault

namespace CallFault

def message : CallFault → String
  | .unknownConstructor u label =>
    u.name ++ ": no constructor named " ++ label ++ " in " ++ u.signature
  | .argumentCount c given =>
    c.typeName ++ "." ++ c.label ++ ": received " ++ toString given ++
      " argument(s) but expects " ++ toString c.arity
  | .symbolToNumber => "Number: cannot convert a Symbol value to a number"
  | .arrayLength length => "Array: invalid array length " ++ length.render
  | .promise => "Promise: constructor cannot be invoked without 'new'"
  | .function => "Function: host code cannot be compiled from a value"

end CallFault

namespace MatchFault

def message : MatchFault → String
  | .noCases u =>
    u.name ++ ".match: no cases given, missing cases for " ++ Names.braceList u.sortedLabels ++
      " in " ++ u.signature
  | .unknownCases u labels =>
    u.name ++ ".match: cases that will never match " ++ Names.braceList labels ++ " in " ++
      u.signature
  | .missingCases u labels =>
    u.name ++ ".match: missing cases for " ++ Names.braceList labels ++ " in " ++ u.signature
  | .caseWithoutValue u label => u.name ++ ".match: the case for " ++ label ++ " has no value"
  | .casesNotKeyed u given =>
    u.name ++ ".match: cases must be a keyed structure of constructor names, got " ++
      given.described
  | .otherType u given =>
    u.name ++ ".match: expected a value of type " ++ u.name ++ " but got " ++ given.described
  | .notAValue u given => u.name ++ ".match: " ++ given.render ++ " is not a value of " ++ u.name
  | .noCase u label => u.name ++ ".match: no case for constructor " ++ label

end MatchFault

namespace ShapeFault

def mismatch (r : Record) (field type : String) (given : Value) : String :=
  r.name ++ ".of: field " ++ field ++ " expected " ++ type ++ " but got " ++ given.described

def message : ShapeFault → String
  | .absent r => r.name ++ ".of: a value is required for " ++ r.signature
  | .noFields r given =>
    r.name ++ ".of: " ++ given.render ++ " has no fields, expected " ++ r.signature
  | .unexpectedFields r fields =>
    r.name ++ ".of: unexpected fields " ++ Names.braceList fields ++ " for " ++ r.signature
  | .missingFields r fields =>
    r.name ++ ".of: missing fields " ++ Names.braceList fields ++ " for " ++ r.signature
  | .fieldValue r field type given => mismatch r field type.name given ++ ", in " ++ r.signature
  | .elementValue r field type given index item =>
    mismatch r field (FieldType.listOf type).name given ++ "; element " ++ toString index ++
      " (" ++ item.described ++ ") is not a " ++ type.name ++ ", in " ++ r.signature

end ShapeFault

namespace SchemaFault

def message : SchemaFault → String
  | .primitiveName name => "Schema: " ++ name ++ " is a primitive type and cannot be redefined"
  | .repeatedName name => "Schema: " ++ name ++ " is defined twice"
  | .unknownType name => "Schema: unknown type " ++ name
  | .malformed path cause => "at JSON path " ++ path ++ " → " ++ cause

end SchemaFault

namespace Fault

def message : Fault → String
  | .union f => f.message
  | .record f => f.message
  | .call f => f.message
  | .matching f => f.message
  | .shape f => f.message
  | .cannotFocus owner field target =>
    "lens " ++ owner ++ "." ++ field ++ ": cannot focus on " ++ target.described
  | .schema f => f.message
  | .raised text => text

end Fault
end TaggedData
