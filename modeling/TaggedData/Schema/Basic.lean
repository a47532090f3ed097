import TaggedData.Record.Descriptor
import TaggedData.Union.Descriptor

/-!
# Schemas

A schema is a register of definitions by name, in the order in which they were added. No
name is there twice, and none is the name of a primitive type. An operation that fails
gives no new schema, so the register stays as it was.
-/

namespace TaggedData

structure Schema where
  definitions : List Definition

namespace Schema

def empty : Schema := ⟨[]⟩

def find? (s : Schema) (name : String) : Option Definition :=
  s.definitions.find? fun d => d.name == name

def union? (s : Schema) (name : String) : Option Union :=
  match s.find? name with
  | some (.union u) => some u
  | _ => none

def record? (s : Schema) (name : String) : Option Record :=
  match s.find? name with
  | some (.record r) => some r
  | _ => none

/-- The names of the records, in the order in which they were added. -/
def recordNames (s : Schema) : List String :=
  s.definitions.filterMap fun
    | .record r => some r.name
    | .union _ => none

def insert (s : Schema) (d : Definition) : Except Fault Schema :=
  if (Primitive.ofName? d.name).isSome then
    .error (.schema (.primitiveName d.name))
  else if (s.find? d.name).isSome then
    .error (.schema (.repeatedName d.name))
  else
    .ok ⟨s.definitions ++ [d]⟩

def defineUnion (s : Schema) (id : Nat) (descriptor : Value) : Except Fault (Schema × Union) := do
  let u ← Union.define id descriptor
  let s ← s.insert (.union u)
  return (s, u)

def defineRecord (s : Schema) (id : Nat) (descriptor : Value) :
    Except Fault (Schema × Record) := do
  let r ← Record.define id descriptor
  let s ← s.insert (.record r)
  return (s, r)

/-- The type with a name: a primitive type or a definition. -/
def resolve (s : Schema) (name : String) : Except Fault Value :=
  match Primitive.ofName? name with
  | some p => .ok (.primitive p)
  | none =>
    match s.find? name with
    | some d => .ok (.definition d)
    | none => .error (.schema (.unknownType name))

end Schema
end TaggedData
