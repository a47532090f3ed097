import TaggedData.Value.Tags

/-!
# Field types and values

A field type is declared by a value: a primitive type, a definition, or a list of one
of these. The same value comes back from the field type. A field type admits the values
of its primitive type or definition, and lists of them element by element.
-/

namespace TaggedData

namespace ElementType

def ofValue? : Value → Option ElementType
  | .primitive p => some (.primitive p)
  | v => v.definition?.map .user

def toValue : ElementType → Value
  | .primitive p => .primitive p
  | .user d => .definition d

def admits (v : Value) : ElementType → Bool
  | .primitive p => p.admits v
  | .user d => d.is v

end ElementType

namespace FieldType

def ofValue? : Value → Option FieldType
  | .list [element] => (ElementType.ofValue? element).map .listOf
  | v => (ElementType.ofValue? v).map .single

def toValue : FieldType → Value
  | .single element => element.toValue
  | .listOf element => .list [element.toValue]

def admits (v : Value) : FieldType → Bool
  | .single element => element.admits v
  | .listOf element =>
    match v with
    | .list items => items.all fun item => element.admits item
    | _ => false

end FieldType
end TaggedData
