import TaggedData.Json.Basic
import TaggedData.Value.Basic

/-!
# Values from documents

The plain reading of a document: numbers become binary64 numbers and everything else
stays what it is. Nothing in the result carries a tag.
-/

namespace TaggedData
namespace Value

mutual

def ofJson : Json → Value
  | .null => .null
  | .bool b => .bool b
  | .number n => .number n.toBinary64
  | .string text => .string text
  | .array items => .list (ofJsonItems items)
  | .object fields => .object (ofJsonFields fields)

def ofJsonItems : List Json → List Value
  | [] => []
  | item :: rest => ofJson item :: ofJsonItems rest

def ofJsonFields : List (String × Json) → List (String × Value)
  | [] => []
  | (key, value) :: rest => (key, ofJson value) :: ofJsonFields rest

end

theorem ofJsonItems_eq_map (items : List Json) : ofJsonItems items = items.map ofJson := by
  induction items with
  | nil => simp [ofJsonItems]
  | cons item rest ih => simp [ofJsonItems, ih]

theorem ofJsonFields_eq_map (fields : List (String × Json)) :
    ofJsonFields fields = fields.map fun (key, value) => (key, ofJson value) := by
  induction fields with
  | nil => simp [ofJsonFields]
  | cons p rest ih => simp [ofJsonFields, ih]

end Value
end TaggedData
