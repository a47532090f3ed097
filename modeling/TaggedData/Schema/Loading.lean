import TaggedData.Schema.Basic
import TaggedData.Value.OfJson

/-!
# Loading schemas

A schema document is loaded by defining its types and then its records, each in the order
of the document. The shape of a record names types: primitive types and what was defined
before. A list of one name stands for a list of that type; every other entry is left for
the definition of the record to refuse. How a document is read from its text is left open.
-/

namespace TaggedData

structure SchemaDocument where
  types : List Json
  records : List Json

/-- What is wrong with the text of a document, and the way from its top to the place. -/
structure DocumentFault where
  path : String
  cause : String

abbrev SchemaReader := String → Except DocumentFault SchemaDocument

namespace Schema

def resolveEntry (s : Schema) : Json → Except Fault Value
  | .string name => s.resolve name
  | .array [.string name] => (s.resolve name).map fun type => .list [type]
  | entry => .ok (.ofJson entry)

def resolveShape (s : Schema) : List (String × Json) → Except Fault (List (String × Value))
  | [] => .ok []
  | (field, entry) :: rest => do
    let type ← s.resolveEntry entry
    let types ← s.resolveShape rest
    return (field, type) :: types

/-- The descriptor of a record with the names in its shape resolved. The shape goes to the
end of the descriptor. -/
def resolveDescriptor (s : Schema) : Json → Except Fault Value
  | .object fields =>
    let others := Value.ofJsonFields (Keyed.removeSwap "shape" fields)
    match Keyed.find? "shape" fields with
    | some (.object shape) => (s.resolveShape shape).map fun types =>
        .object (Keyed.put "shape" (.object types) others)
    | some shape => .ok (.object (Keyed.put "shape" (.ofJson shape) others))
    | none => .ok (.object others)
  | descriptor => .ok (.ofJson descriptor)

/-- Adds the types of a document, with identities from `id` on. -/
def loadTypes (s : Schema) (id : Nat) : List Json → Except Fault Schema
  | [] => .ok s
  | descriptor :: rest => do
    let (s, _) ← s.defineUnion id (.ofJson descriptor)
    s.loadTypes (id + 1) rest

def loadRecords (s : Schema) (id : Nat) : List Json → Except Fault Schema
  | [] => .ok s
  | descriptor :: rest => do
    let resolved ← s.resolveDescriptor descriptor
    let (s, _) ← s.defineRecord id resolved
    s.loadRecords (id + 1) rest

/-- The schema of a document that was read. -/
def ofDocument (firstId : Nat) (document : SchemaDocument) : Except Fault Schema := do
  let s ← Schema.empty.loadTypes firstId document.types
  s.loadRecords (firstId + document.types.length) document.records

/-- The schema of a text. Its definitions have the identities from `firstId` on. -/
def load (read : SchemaReader) (firstId : Nat) (text : String) : Except Fault Schema :=
  match read text with
  | .error f => .error (.schema (.malformed f.path f.cause))
  | .ok document => ofDocument firstId document

/-- What is defined on the way through the records, up to the failure if there is one. A
definition that cannot be added is the last. -/
def madeOfRecords (s : Schema) (id : Nat) : List Json → List Definition
  | [] => []
  | descriptor :: rest =>
    match (s.resolveDescriptor descriptor).bind (Record.define id) with
    | .error _ => []
    | .ok r => .record r ::
      match s.insert (.record r) with
      | .error _ => []
      | .ok s => s.madeOfRecords (id + 1) rest

/-- What is defined on the way through the types and then the records. -/
def made (s : Schema) (id : Nat) (records : List Json) : List Json → List Definition
  | [] => s.madeOfRecords id records
  | descriptor :: rest =>
    match Union.define id (.ofJson descriptor) with
    | .error _ => []
    | .ok u => .union u ::
      match s.insert (.union u) with
      | .error _ => []
      | .ok s => s.made (id + 1) records rest

end Schema
end TaggedData
