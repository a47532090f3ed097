import TaggedData.Binary64.Text
import TaggedData.Definition.Signature
import TaggedData.Json.Printer
import TaggedData.Value.Basic

/-!
# Values as text

Every value has a text for messages and a plain JSON view. The two refer to each other:
a keyed structure is shown as its JSON view, and inside that view everything that JSON
cannot hold stands as its text. A typed value is written with its type: a record with
its fields sorted by name, a variant with its arguments.
-/

namespace TaggedData

/-- The document for a number: an integer if it is one, `null` if it is not finite. -/
def Json.ofBinary64 (x : Binary64) : Json :=
  match h : x.asInteger? with
  | some n => .number (.integer n (by have := Binary64.asInteger?_range h; omega))
  | none => if h : x.isFinite = true then .number (.real x h) else .null

/-- Keyed structures of up to three keys are written on one line. -/
def Json.objectText (keys : Nat) (view : List (String × Json)) : String :=
  if keys ≤ 3 then Json.compact (.object view) else Json.indented 0 (.object view)

namespace Value

/-- The text of a value that holds no other values. -/
def atomText : Value → String
  | .nil | .null => "Nil"
  | .bool b => if b then "true" else "false"
  | .number x => x.render
  | .string text => text
  | .symbol s => "Symbol(" ++ s.description ++ ")"
  | .function f =>
    match f.name with
    | some name => "[Function " ++ name ++ "]"
    | none => "[Function]"
  | .primitive p => p.name
  | .definition d => d.signature
  | .constructor c => "[Constructor " ++ c.typeName ++ "." ++ c.label ++ "]"
  | .list _ | .object _ | .tagged .. => ""

/-- A variant applied to its arguments. -/
def variantText (typeName label arguments : String) : String :=
  typeName ++ "." ++ label ++ "(" ++ arguments ++ ")"

mutual

def render : Value → String
  | .list items => "[" ++ Names.commaSeparated (renderAll items) ++ "]"
  | .object fields => Json.objectText fields.length (viewFields fields)
  | .tagged typeName _ .record (.object fields) =>
    Names.bracedEntries typeName (renderFields fields)
  | .tagged typeName _ .record payload => typeName ++ " " ++ render payload
  | .tagged typeName label (.variant 0) _ => typeName ++ "." ++ label
  | .tagged typeName label (.variant (_ + 2)) (.list items) =>
    variantText typeName label (",".intercalate (renderAll items))
  | .tagged typeName label (.variant _) payload => variantText typeName label (render payload)
  | atom => atomText atom

/-- The plain JSON view. Entries without a value are left out of keyed structures. -/
def toJson : Value → Json
  | .nil | .null => .null
  | .bool b => .bool b
  | .number x => .ofBinary64 x
  | .string text => .string text
  | .list items => .array (viewAll items)
  | .object fields => .object (viewFields fields)
  | .tagged typeName _ .record (.object fields) =>
    .string (Names.bracedEntries typeName (renderFields fields))
  | .tagged typeName _ .record payload => .string (typeName ++ " " ++ render payload)
  | .tagged typeName label (.variant 0) _ => .string (typeName ++ "." ++ label)
  | .tagged typeName label (.variant (_ + 2)) (.list items) =>
    .string (variantText typeName label (",".intercalate (renderAll items)))
  | .tagged typeName label (.variant _) payload =>
    .string (variantText typeName label (render payload))
  | atom => .string (atomText atom)

def renderAll : List Value → List String
  | [] => []
  | item :: rest => render item :: renderAll rest

def renderFields : List (String × Value) → List (String × String)
  | [] => []
  | (key, value) :: rest => (key, render value) :: renderFields rest

def viewAll : List Value → List Json
  | [] => []
  | item :: rest => toJson item :: viewAll rest

def viewFields : List (String × Value) → List (String × Json)
  | [] => []
  | (_, .nil) :: rest => viewFields rest
  | (key, value) :: rest => (key, toJson value) :: viewFields rest

end

theorem toJson_tagged (typeName label : String) (form : Form) (payload : Value) :
    toJson (.tagged typeName label form payload) =
      .string (render (.tagged typeName label form payload)) := by
  cases form with
  | record => cases payload <;> simp [toJson, render]
  | variant arity =>
    match arity with
    | 0 => simp [toJson, render]
    | 1 => simp [toJson, render]
    | _ + 2 => cases payload <;> simp [toJson, render]

end Value
end TaggedData
