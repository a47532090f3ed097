import TaggedData.Binary64.Text
import TaggedData.Names
import TaggedData.Text.Quoted
import TaggedData.Value.Basic

/-!
# The diagnostic view of values

A view of the whole structure of a value, definitions included, with every text quoted.
It is for people who look for a fault; messages use the ordinary text of a value.
-/

namespace TaggedData
namespace Diagnostic

def call (head argument : String) : String :=
  head ++ "(" ++ argument ++ ")"

def list (items : List String) : String :=
  "[" ++ Names.commaSeparated items ++ "]"

def map (entries : List (String × String)) : String :=
  Names.braceList (entries.map fun (key, text) => Text.quoted key ++ ": " ++ text)

def struct (head : String) (fields : List (String × String)) : String :=
  let body := Names.commaSeparated (fields.map fun (name, text) => name ++ ": " ++ text)
  head ++ " \x7b " ++ body ++ " \x7d"

def ofSymbol (s : Symbol) : String :=
  call "Symbol" s.description

def ofFunction (f : Function) : String :=
  call "Function" (f.name.getD "<anonymous>")

def ofConstructor (c : Constructor) : String :=
  call "Constructor" (struct "ConstructorDef" [("type_name", Text.quoted c.typeName),
    ("name", Text.quoted c.label), ("arity", toString c.arity)])

def ofUnion (u : Union) : String :=
  call "Type" (struct "TypeDef" [("name", Text.quoted u.name),
    ("constructors", list (u.constructors.map ofConstructor))])

def ofLens (l : Lens) : String :=
  struct "Lens" [("record", Text.quoted l.owner), ("field", Text.quoted l.field)]

mutual

def ofElementType : ElementType → String
  | .primitive p => call "Primitive" p.name
  | .user d => call "User" (ofDefinition d)

def ofDefinition : Definition → String
  | .union u => call "Union" (ofUnion u)
  | .record r => call "Record" (ofRecord r)

def ofRecord : Record → String
  | ⟨_, name, _, types, lensTable, _⟩ =>
    call "Record" (struct "RecordDef" [("name", Text.quoted name), ("fields", map (ofTypes types)),
      ("lenses", call "Lenses" (map (lensTable.map fun (field, l) => (field, ofLens l))))])

def ofFieldType : FieldType → String
  | .single element => ofElementType element
  | .listOf element => call "ListOf" (ofElementType element)

def ofTypes : {keys : List String} → FieldTable keys → List (String × String)
  | _, .nil => []
  | _, .cons field type rest => (field, ofFieldType type) :: ofTypes rest

end

def ofForm : Form → String
  | .variant arity => struct "Variant" [("arity", toString arity)]
  | .record => "Record"

mutual

def ofValue : Value → String
  | .nil => "Nil"
  | .null => "Null"
  | .bool b => call "Bool" (if b then "true" else "false")
  | .number x => call "Number" (Binary64.Style.diagnostic.text "NaN" "inf" x)
  | .string text => call "String" (Text.quoted text)
  | .symbol s => call "Symbol" (ofSymbol s)
  | .list items => call "List" (list (ofValues items))
  | .object fields => call "Object" (map (ofEntries fields))
  | .function f => call "Function" (ofFunction f)
  | .primitive p => call "Primitive" p.name
  | .definition d => call "Type" (ofDefinition d)
  | .constructor c => call "Constructor" (ofConstructor c)
  | .tagged typeName label form payload =>
    call "Instance" (struct "Instance" [("type_name", Text.quoted typeName),
      ("constructor", Text.quoted label), ("payload", ofValue payload), ("form", ofForm form)])

def ofValues : List Value → List String
  | [] => []
  | item :: rest => ofValue item :: ofValues rest

def ofEntries : List (String × Value) → List (String × String)
  | [] => []
  | (key, value) :: rest => (key, ofValue value) :: ofEntries rest

end

end Diagnostic
end TaggedData
