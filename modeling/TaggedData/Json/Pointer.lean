import TaggedData.Decimal.Literal
import TaggedData.Json.Basic
import TaggedData.Text.Split

/-!
# Pointers into documents

A pointer is empty or a slash followed by reference tokens with slashes between them. A
token names a key of an object or a place in an array; in it `~1` stands for a slash and
`~0` for a tilde.
-/

namespace TaggedData
namespace Json

/-- A reference token without its escapes. A tilde that begins no escape stays. -/
def unescapeToken : List Char → List Char
  | '~' :: '1' :: rest => '/' :: unescapeToken rest
  | '~' :: '0' :: rest => '~' :: unescapeToken rest
  | c :: rest => c :: unescapeToken rest
  | [] => []

/-- The place that a token names: decimal digits without superfluous zeros. -/
def place? (token : List Char) : Option Nat :=
  match token with
  | [] => none
  | ['0'] => some 0
  | '0' :: _ => none
  | _ =>
    if token.all Char.isDigit then
      some (Decimal.natOfDigits token)
    else
      none

def child? (token : List Char) : Json → Option Json
  | .object fields => Keyed.find? (String.ofList token) fields
  | .array items => (place? token).bind fun place => items[place]?
  | _ => none

/-- The part of a document that a pointer selects. -/
def pointer? (pointer : String) (document : Json) : Option Json :=
  match pointer.toList with
  | [] => some document
  | '/' :: tokens =>
    (Text.split '/' tokens).foldlM (fun part token => part.child? (unescapeToken token)) document
  | _ => none

end Json
end TaggedData
