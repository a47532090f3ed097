import TaggedData.Definition
import TaggedData.Names

/-!
# Signatures

How a definition is written: a union by its constructor labels, a record by its fields
and their types. Both are sorted by name, so the order of declaration does not show.
-/

namespace TaggedData

def Definition.name : Definition → String
  | .union u => u.name
  | .record r => r.name

def ElementType.name : ElementType → String
  | .primitive p => p.name
  | .user d => d.name

def FieldType.name : FieldType → String
  | .single element => element.name
  | .listOf element => "[" ++ element.name ++ "]"

namespace Union

def sortedLabels (u : Union) : List String :=
  Names.sorted u.labels

/-- Up to three labels stand on the line of the name, more on a line each. -/
def signature (u : Union) : String :=
  let labels := u.sortedLabels
  "type " ++ u.name ++ " = " ++
    if labels.length ≤ 3 then " | ".intercalate labels
    else String.join (labels.map fun label => "\n\t | " ++ label)

end Union

/-- The signature of fields whose types are already text. -/
def Record.signatureOf (name : String) (fields : List (String × String)) : String :=
  Names.bracedEntries ("record " ++ name) fields

def Record.signature (r : Record) : String :=
  Record.signatureOf r.name (r.fields.map fun (field, type) => (field, type.name))

def Definition.signature : Definition → String
  | .union u => u.signature
  | .record r => r.signature

end TaggedData
