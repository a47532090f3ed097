import TaggedData.Fault
import TaggedData.Value.Coercion

/-!
# Calling

Functions, constructors and primitive types can be called with a list of values. What a
function does is given by the host, and so is the identity of a new symbol. A primitive
type turns its first argument into a value of its own kind; a constructor packages as
many arguments as its arity into a typed value.
-/

namespace TaggedData

/-- The surroundings of a call. -/
structure Host where
  run : Function → List Value → Value
  /-- The number of the next symbol, which no other symbol has. -/
  nextSymbol : Nat

inductive Callable where
  | function (f : Function)
  | constructor (c : Constructor)
  | primitive (p : Primitive)
  deriving DecidableEq

def Value.callable? : Value → Option Callable
  | .function f => some (.function f)
  | .constructor c => some (.constructor c)
  | .primitive p => some (.primitive p)
  | _ => none

namespace Constructor

/-- No payload for no arguments, the argument itself for one, and otherwise a list. -/
def payload : List Value → Value
  | [] => .null
  | [argument] => argument
  | arguments => .list arguments

def call (c : Constructor) (arguments : List Value) : Except Fault Value :=
  if arguments.length = c.arity then
    .ok (.tagged c.typeName c.label (.variant c.arity) (payload arguments))
  else
    .error (.call (.argumentCount c arguments.length))

end Constructor

namespace Union

def construct (u : Union) (label : String) (arguments : List Value) : Except Fault Value :=
  match u.find? label with
  | some c => c.call arguments
  | none => .error (.call (.unknownConstructor u label))

end Union

namespace Primitive

/-- A list of so many absent values, or of the arguments if they are not one number. -/
def callArray : List Value → Except Fault Value
  | [.number x] =>
    match x.toInt? with
    | some n =>
      if 0 ≤ n ∧ n < 2 ^ (32 : Nat) then .ok (.list (List.replicate n.toNat .nil))
      else .error (.call (.arrayLength x))
    | none => .error (.call (.arrayLength x))
  | arguments => .ok (.list arguments)

def call (p : Primitive) (nextSymbol : Nat) (arguments : List Value) : Except Fault Value :=
  match p, arguments with
  | .boolean, [] => .ok (.bool false)
  | .boolean, v :: _ => .ok (.bool v.isTruthy)
  | .number, [] => .ok (.number (.zero false))
  | .number, .symbol _ :: _ => .error (.call .symbolToNumber)
  | .number, v :: _ => .ok (.number v.toNumber)
  | .string, [] => .ok (.string "")
  | .string, v :: _ => .ok (.string v.hostText)
  | .symbol, [] | .symbol, .nil :: _ => .ok (.symbol ⟨nextSymbol, ""⟩)
  | .symbol, v :: _ => .ok (.symbol ⟨nextSymbol, v.hostText⟩)
  | .array, arguments => callArray arguments
  | .object, [] | .object, .nil :: _ | .object, .null :: _ => .ok (.object [])
  | .object, v :: _ => .ok v
  | .promise, _ => .error (.call .promise)
  | .function, _ => .error (.call .function)

end Primitive

namespace Callable

def call (host : Host) (callee : Callable) (arguments : List Value) : Except Fault Value :=
  match callee with
  | .function f => .ok (host.run f arguments)
  | .constructor c => c.call arguments
  | .primitive p => p.call host.nextSymbol arguments

end Callable
end TaggedData
