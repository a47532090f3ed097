import TaggedData.Binary64.Text
import TaggedData.Json.Basic

/-!
# Documents as text

The compact form has no space outside strings. The indented form puts every element
on a line of its own, two spaces deeper than its container.
-/

namespace TaggedData

def JsonNumber.text : JsonNumber → String
  | .integer n _ => toString n
  | .real x _ => Binary64.Style.json.text "null" "null" x

namespace Json

/-- Only quotes, backslashes and the controls below the space are escaped. -/
def escapeChar (c : Char) : List Char :=
  if c = '"' then ['\\', '"']
  else if c = '\\' then ['\\', '\\']
  else if c = '\x08' then ['\\', 'b']
  else if c = '\x0c' then ['\\', 'f']
  else if c = '\n' then ['\\', 'n']
  else if c = '\r' then ['\\', 'r']
  else if c = '\t' then ['\\', 't']
  else if c.toNat < 0x20 then
    ['\\', 'u', '0', '0', Nat.digitChar (c.toNat / 16), Nat.digitChar (c.toNat % 16)]
  else [c]

def quote (text : String) : String :=
  String.ofList ('"' :: (text.toList.flatMap escapeChar ++ ['"']))

mutual

def compact : Json → String
  | .null => "null"
  | .bool b => if b then "true" else "false"
  | .number n => n.text
  | .string text => quote text
  | .array items => "[" ++ ",".intercalate (compactAll items) ++ "]"
  | .object fields => "\x7b" ++ ",".intercalate (compactFields fields) ++ "\x7d"

def compactAll : List Json → List String
  | [] => []
  | item :: rest => compact item :: compactAll rest

def compactFields : List (String × Json) → List String
  | [] => []
  | (key, value) :: rest => (quote key ++ ":" ++ compact value) :: compactFields rest

end

/-- The lines of a container between its brackets, which close at the depth of the
container. -/
def indentedBlock (depth : Nat) (opening closing : String) (lines : List String) : String :=
  if lines.isEmpty then
    opening ++ closing
  else
    let margin (n : Nat) := "\n" ++ String.ofList (List.replicate (2 * n) ' ')
    opening ++ margin (depth + 1) ++ ("," ++ margin (depth + 1)).intercalate lines ++
      margin depth ++ closing

mutual

def indented (depth : Nat) : Json → String
  | .null => "null"
  | .bool b => if b then "true" else "false"
  | .number n => n.text
  | .string text => quote text
  | .array items => indentedBlock depth "[" "]" (indentedAll (depth + 1) items)
  | .object fields => indentedBlock depth "\x7b" "\x7d" (indentedFields (depth + 1) fields)

def indentedAll (depth : Nat) : List Json → List String
  | [] => []
  | item :: rest => indented depth item :: indentedAll depth rest

def indentedFields (depth : Nat) : List (String × Json) → List String
  | [] => []
  | (key, value) :: rest => (quote key ++ ": " ++ indented depth value) :: indentedFields depth rest

end

end Json
end TaggedData
