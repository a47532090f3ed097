import TaggedData.Definition.Signature
import TaggedData.Text.Uppercase
import TaggedData.Value.Basic

/-!
# Tags

Every value shows the same three tags: the name of a type, the label of a constructor
and a payload. A definition has the first alone, a typed value has all three, and other
values have none. Membership and matching look at tags only.
-/

namespace TaggedData

structure Tags where
  typeName : Option String
  label : Option String
  payload : Option Value

namespace Value

def tags : Value → Tags
  | .definition d => ⟨some d.name, none, none⟩
  | .tagged typeName label _ payload => ⟨some typeName, some label, some payload⟩
  | _ => ⟨none, none, none⟩

def isPrimitive : Value → Bool
  | .primitive _ => true
  | _ => false

/-- A type has a name and no payload. -/
def isType (v : Value) : Bool :=
  match v.tags.typeName with
  | some name => name ≠ "" && v.tags.payload.isNone
  | none => false

/-- A typed value has all three tags, and its payload is not `nil`. -/
def isTyped : Value → Bool
  | .tagged _ _ _ payload => !payload.isNil
  | _ => false

def definition? (v : Value) : Option Definition :=
  match v with
  | .definition d => if v.isType then some d else none
  | _ => none

mutual

/-- The type name to report for a value: its tag if it is a typed value, the names of
its elements if it is a list, and otherwise its kind. -/
def inferredName : Value → String
  | .list items => "[" ++ Names.commaSeparated (inferredNames items) ++ "]"
  | v =>
    match v with
    | .tagged typeName _ _ payload => if payload.isNil then Text.capitalize v.kind else typeName
    | _ => Text.capitalize v.kind

def inferredNames : List Value → List String
  | [] => []
  | item :: rest => inferredName item :: inferredNames rest

end

end Value

namespace Definition

/-- Membership goes by the type name alone. -/
def is (d : Definition) (v : Value) : Bool :=
  v.tags.typeName == some d.name

end Definition

namespace Constructor

/-- Whether a value carries the tags of this constructor. -/
def is (c : Constructor) (v : Value) : Bool :=
  v.tags.typeName == some c.typeName && v.tags.label == some c.label

end Constructor
end TaggedData
