import TaggedData.Decimal.Literal
import TaggedData.Value.Render

/-!
# Coercions

How the host turns any value into a truth value, a number or a text. The text differs
from the text for messages: absent values have names of their own, and a list is the
texts of its items with commas between.
-/

namespace TaggedData
namespace Value

def isTruthy : Value → Bool
  | .nil | .null => false
  | .bool b => b
  | .number .nan => false
  | .number x => !x.isZero
  | .string text => text ≠ ""
  | _ => true

mutual

def hostText : Value → String
  | .nil => "undefined"
  | .null => "null"
  | .number x => x.render
  | .list items => ",".intercalate (hostTexts items)
  | .object _ => "[object Object]"
  | v => v.render

/-- Inside a list an absent value has no text. -/
def hostTexts : List Value → List String
  | [] => []
  | .nil :: rest => "" :: hostTexts rest
  | .null :: rest => "" :: hostTexts rest
  | item :: rest => hostText item :: hostTexts rest

end

def toNumber : Value → Binary64
  | .nil => .nan
  | .null => .zero false
  | .bool b => .ofNat b.toNat
  | .number x => x
  | .string text => .parse text
  | .list items => .parse (hostText (.list items))
  | _ => .nan

end Value
end TaggedData
