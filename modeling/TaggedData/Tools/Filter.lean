import TaggedData.Json.Reader.Document

/-!
# Filters on documents

A filter turns a document into any number of documents, or fails. Filters are composed by
feeding the results of one into another and by giving the results of one after those of
another; the failure of any part is the failure of the whole.
-/

namespace TaggedData

inductive Filter where
  | identity
  | empty
  | constant (document : Json)
  | field (name : String)
  /-- A place in an array, counted from the end if it is negative. -/
  | item (place : Int)
  /-- Every element of an array or value of an object. -/
  | each
  /-- The document and everything in it, a container before its contents. -/
  | everything
  | pipe (first second : Filter)
  | both (first second : Filter)
  | list (items : Filter)
  | object (entries : List (String × Filter))

namespace Json

mutual

/-- A document and all its parts, a container before its contents. -/
def parts : Json → List Json
  | .array items => .array items :: partsOfItems items
  | .object fields => .object fields :: partsOfFields fields
  | atom => [atom]

def partsOfItems : List Json → List Json
  | [] => []
  | item :: rest => parts item ++ partsOfItems rest

def partsOfFields : List (String × Json) → List Json
  | [] => []
  | (_, value) :: rest => parts value ++ partsOfFields rest

end

end Json

namespace Filter

/-- Nothing is at any name or place of `null`. -/
def lookUp (name : String) : Json → Option (List Json)
  | .object fields => some [(Keyed.find? name fields).getD .null]
  | .null => some [.null]
  | _ => none

def lookAt (place : Int) : Json → Option (List Json)
  | .array items =>
    let fromStart := if place < 0 then place + items.length else place
    some [if fromStart < 0 then .null else items[fromStart.toNat]?.getD .null]
  | .null => some [.null]
  | _ => none

def elements : Json → Option (List Json)
  | .array items => some items
  | .object fields => some (fields.map Prod.snd)
  | _ => none

mutual

def run : Filter → Json → Option (List Json)
  | .identity, document => some [document]
  | .empty, _ => some []
  | .constant result, _ => some [result]
  | .field name, document => lookUp name document
  | .item place, document => lookAt place document
  | .each, document => elements document
  | .everything, document => some document.parts
  | .pipe first second, document => do
    let results ← (← run first document).mapM (run second)
    return results.flatten
  | .both first second, document => do
    let results ← run first document
    return results ++ (← run second document)
  | .list items, document => do
    return [.array (← run items document)]
  | .object entries, document => do
    return (← runEntries entries document).map fun pairs => .object (Keyed.ofPairs pairs)

/-- Every choice of one result for each entry; the first entry changes slowest. -/
def runEntries : List (String × Filter) → Json → Option (List (List (String × Json)))
  | [], _ => some [[]]
  | (key, filter) :: rest, document => do
    let choices ← (← run filter document).mapM fun value =>
      (runEntries rest document).map fun choices => choices.map ((key, value) :: ·)
    return choices.flatten

end

end Filter
end TaggedData
