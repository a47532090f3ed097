import TaggedData.Fault
import TaggedData.Record.FieldType

/-!
# Defining records

A record is described by a keyed structure with a name, which starts with an upper-case
letter, and a shape, which gives every field its type. The name is checked first and the
fields in the order of the shape.
-/

namespace TaggedData
namespace Record

def descriptorName (fields : Keyed Value) : Except Fault String :=
  match Keyed.find? "recordName" fields with
  | none | some .nil | some .null => .error (.record .nameMissing)
  | some (.string name) =>
    if name = "" then .error (.record .nameEmpty)
    else if Text.capitalize name ≠ name then .error (.record (.nameNotCapitalized name))
    else .ok name
  | some given => .error (.record (.nameNotText given))

def descriptorShape (name : String) (fields : Keyed Value) : Except Fault (Keyed Value) :=
  match Keyed.find? "shape" fields with
  | none | some .nil | some .null => .error (.record (.shapeMissing name))
  | some (.object []) => .error (.record (.shapeEmpty name))
  | some (.object shape) => .ok shape
  | some given => .error (.record (.shapeNotKeyed name given))

def defineField (name : String) (shape : Keyed Value) (field : String) (declared : Value) :
    Except Fault FieldType :=
  if field = "" then
    .error (.record (.fieldUnnamed name shape))
  else if declared.isAbsent then
    .error (.record (.fieldUntyped name field shape))
  else
    match FieldType.ofValue? declared with
    | some type => .ok type
    | none => .error (.record (.fieldTypeUnknown name field declared shape))

/-- The types of the fields of a shape, or of a part of it. -/
def defineFields (name : String) (shape : Keyed Value) :
    List (String × Value) → Except Fault (List (String × FieldType))
  | [] => .ok []
  | (field, declared) :: rest =>
    match defineField name shape field declared with
    | .error f => .error f
    | .ok type =>
      match defineFields name shape rest with
      | .error f => .error f
      | .ok types => .ok ((field, type) :: types)

/-- The record that a value describes. Its identity `id` must be new. -/
def define (id : Nat) (descriptor : Value) : Except Fault Record :=
  match descriptor with
  | .nil | .null => .error (.record .absent)
  | .object fields => do
    let name ← descriptorName fields
    let shape ← descriptorShape name fields
    let types ← defineFields name shape shape
    return .ofTypes id name types
  | given => .error (.record (.notKeyed given))

/-- The descriptor of a record with given entries of its shape. -/
def describe (name : String) (shape : Keyed Value) : Value :=
  .object [("recordName", .string name), ("shape", .object shape)]

def ofFields (id : Nat) (name : String) (fields : List (String × Value)) : Except Fault Record :=
  define id (describe name (Keyed.ofPairs fields))

def fieldType? (r : Record) (field : String) : Option FieldType :=
  Keyed.find? field r.fields

end Record
end TaggedData
