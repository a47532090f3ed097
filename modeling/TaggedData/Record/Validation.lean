import TaggedData.Record.Descriptor

/-!
# Values of records

A keyed structure becomes a value of a record if it has exactly the fields of the record
and every one of them holds a value of its type. Superfluous fields are reported before
missing ones, and these before values of a wrong type, of which the first by name counts.
-/

namespace TaggedData
namespace Record

/-- The place of the first item that is not of a type. -/
def firstMisfit? (type : ElementType) : Nat → List Value → Option (Nat × Value)
  | _, [] => none
  | index, item :: rest =>
    if type.admits item then firstMisfit? type (index + 1) rest else some (index, item)

def misfit (r : Record) (field : String) (type : FieldType) (v : Value) : ShapeFault :=
  match type, v with
  | .listOf element, .list items =>
    match firstMisfit? element 0 items with
    | some (index, item) => .elementValue r field element v index item
    | none => .fieldValue r field type v
  | _, _ => .fieldValue r field type v

def checkFields (r : Record) (fields : Keyed Value) : List String → Except Fault Unit
  | [] => .ok ()
  | name :: rest =>
    match r.fieldType? name, Keyed.find? name fields with
    | some type, some v =>
      if type.admits v then checkFields r fields rest else .error (.shape (r.misfit name type v))
    | _, _ => checkFields r fields rest

/-- The value of the record with given fields, which are kept in their order. -/
def of (r : Record) (v : Value) : Except Fault Value :=
  match v with
  | .nil | .null => .error (.shape (.absent r))
  | .object (first :: rest) =>
    let fields : Keyed Value := first :: rest
    let declared := Keyed.keys r.fields
    let given := Keyed.keys fields
    let unexpected := Names.missingFrom declared given
    let missing := Names.missingFrom given declared
    if !unexpected.isEmpty then
      .error (.shape (.unexpectedFields r unexpected))
    else if !missing.isEmpty then
      .error (.shape (.missingFields r missing))
    else
      match checkFields r fields (Names.sorted declared) with
      | .error f => .error f
      | .ok () => .ok (.tagged r.name r.name .record (.object fields))
  | given => .error (.shape (.noFields r given))

end Record
end TaggedData
