import TaggedData.Callable
import TaggedData.Record.Validation
import TaggedData.Value.OfJson

/-!
# Lifting documents to values of records

A document is read with the shape of a record as a guide. Objects in fields of a record
type are lifted themselves; in fields of a union type a string names a constructor without
arguments and an object with one key a constructor with its arguments. What does not fit
is converted plainly, and the record then refuses it.
-/

namespace TaggedData

namespace Union

/-- The arguments of a constructor: a list of them, or a single one. -/
def argumentsOf : Json → List Value
  | .array items => Value.ofJsonItems items
  | single => [.ofJson single]

def lift (u : Union) : Json → Except Fault Value
  | .string label =>
    if (u.find? label).isSome then u.construct label [] else .ok (.string label)
  | .object [(label, arguments)] =>
    if (u.find? label).isSome then u.construct label (argumentsOf arguments)
    else .ok (.object [(label, .ofJson arguments)])
  | document => .ok (.ofJson document)

end Union

mutual

def ElementType.lift : ElementType → Json → Except Fault Value
  | .primitive _, document => .ok (.ofJson document)
  | .user d, document => d.lift document

/-- Reads a document as a value of a definition, or leaves it plain if it has not even the
outer form of one. -/
def Definition.lift : Definition → Json → Except Fault Value
  | .union u, document => u.lift document
  | .record r, .object entries => r.lift (.object entries)
  | .record _, document => .ok (.ofJson document)

def Record.lift : Record → Json → Except Fault Value
  | ⟨id, name, keys, types, lensTable, inStep⟩, .object entries => do
    let lifted ← entries.mapM fun (key, document) =>
      return (key, ← types.lift key document)
    Record.of ⟨id, name, keys, types, lensTable, inStep⟩ (.object lifted)
  | r, document => r.of (.ofJson document)

def FieldType.lift : FieldType → Json → Except Fault Value
  | .single type, document => type.lift document
  | .listOf type, .array items => (items.mapM fun item => type.lift item).map .list
  | .listOf _, document => .ok (.ofJson document)

/-- Reads an entry by the type that the fields declare for its key. An entry that there is
no field for stays plain. -/
def FieldTable.lift {keys : List String} (table : FieldTable keys) (key : String)
    (document : Json) : Except Fault Value :=
  match table with
  | .nil => .ok (.ofJson document)
  | .cons field type rest => if field = key then type.lift document else rest.lift key document

end

end TaggedData
