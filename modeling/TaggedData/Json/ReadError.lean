import TaggedData.Binary64.Text
import TaggedData.Json.Printer
import TaggedData.Text.Quoted

/-!
# Errors of the JSON reader

An error says what is wrong, how many bytes were still unread when that was noticed,
and the way from the top of the document to the place. Line and column are worked out
from the text when the error is shown.
-/

namespace TaggedData
namespace Json

inductive Found where
  | null
  | bool (b : Bool)
  | number (n : JsonNumber)
  | string (text : String)
  | array
  | object

inductive Defect where
  | endInValue
  | endInList
  | endInObject
  | endInString
  | valueExpected
  | wordExpected
  | colonExpected
  | listSeparatorExpected
  | objectSeparatorExpected
  | keyNotString
  | trailingComma
  | trailingCharacters
  | invalidNumber
  | numberOutOfRange
  | invalidEscape
  | hexEscapeEnds
  | loneSurrogate
  | controlCharacter
  | tooDeep
  | wrongKind (found : Found) (expected : String)
  | repeatedField (name : String)

inductive PathStep where
  | key (name : String)
  | index (i : Nat)
  /-- A key that could not be read. -/
  | unknown

structure ReadError where
  defect : Defect
  /-- How many bytes of the text were not yet used. -/
  unread : Nat
  path : List PathStep

/-- A place in a text: lines count from one, and columns count the bytes of the line
before the place. -/
structure Position where
  line : Nat
  column : Nat
  deriving DecidableEq, Repr

namespace Position

def start : Position := ⟨1, 0⟩

/-- The position after the first bytes of a text, from a given position on. A byte in
the middle of a character counts like any other. -/
def advance (p : Position) (bytes : Nat) : List Char → Position
  | [] => p
  | c :: rest =>
    if bytes < c.utf8Size then ⟨p.line, p.column + bytes⟩
    else
      let next := if c = '\n' then ⟨p.line + 1, 0⟩ else ⟨p.line, p.column + c.utf8Size⟩
      advance next (bytes - c.utf8Size) rest

end Position

def byteLength (cs : List Char) : Nat :=
  cs.foldr (fun c length => c.utf8Size + length) 0

namespace Found

def text : Found → String
  | .null => "null"
  | .bool b => if b then "boolean `true`" else "boolean `false`"
  | .number (.integer n _) => "integer `" ++ toString n ++ "`"
  | .number (.real x _) => "floating point `" ++ Binary64.Style.json.text "NaN" "inf" x ++ "`"
  | .string text => "string " ++ Text.quoted text
  | .array => "sequence"
  | .object => "map"

end Found

namespace Defect

def message : Defect → String
  | .endInValue => "EOF while parsing a value"
  | .endInList => "EOF while parsing a list"
  | .endInObject => "EOF while parsing an object"
  | .endInString => "EOF while parsing a string"
  | .valueExpected => "expected value"
  | .wordExpected => "expected ident"
  | .colonExpected => "expected `:`"
  | .listSeparatorExpected => "expected `,` or `]`"
  | .objectSeparatorExpected => "expected `,` or `\x7d`"
  | .keyNotString => "key must be a string"
  | .trailingComma => "trailing comma"
  | .trailingCharacters => "trailing characters"
  | .invalidNumber => "invalid number"
  | .numberOutOfRange => "number out of range"
  | .invalidEscape => "invalid escape"
  | .hexEscapeEnds => "unexpected end of hex escape"
  | .loneSurrogate => "lone leading surrogate in hex escape"
  | .controlCharacter => "control character (\\u0000-\\u001F) found while parsing a string"
  | .tooDeep => "recursion limit exceeded"
  | .wrongKind found expected => "invalid type: " ++ found.text ++ ", expected " ++ expected
  | .repeatedField name => "duplicate field `" ++ name ++ "`"

end Defect

namespace PathStep

/-- Keys are separated by points, positions in lists stand between brackets. -/
def joinText : List PathStep → Bool → String
  | [], _ => ""
  | .index i :: rest, _ => "[" ++ toString i ++ "]" ++ joinText rest true
  | .key name :: rest, separated => (if separated then "." else "") ++ name ++ joinText rest true
  | .unknown :: rest, separated => (if separated then ".?" else "?") ++ joinText rest true

/-- The path from the top of a document, a point for the top itself. -/
def pathText (path : List PathStep) : String :=
  if path.isEmpty then "." else joinText path false

end PathStep

namespace ReadError

/-- The same error seen from the container that the place is in. -/
def within (step : PathStep) (e : ReadError) : ReadError :=
  { e with path := step :: e.path }

def position (e : ReadError) (text : List Char) : Position :=
  Position.start.advance (byteLength text - e.unread) text

def message (e : ReadError) (text : List Char) : String :=
  let p := e.position text
  e.defect.message ++ " at line " ++ toString p.line ++ " column " ++ toString p.column

end ReadError
end Json
end TaggedData
