import TaggedData.Lifting
import TaggedData.Proofs.Definitions
import TaggedData.Record.Lens
import TaggedData.Union.Matcher

/-!
# Histories

What can have happened in a program that uses types: definitions were made, operations
were performed on values that were there, and attempts failed. A typed value records only
names; where it comes from is a matter of its history.
-/

namespace TaggedData

/-- Replacing a field by a given value is the modification by a constant function. -/
inductive Operation where
  | construct (u : Union) (label : String) (arguments : List Value)
  | call (callee : Callable) (arguments : List Value)
  | of (r : Record) (given : Value)
  | lift (r : Record) (document : Json)
  | modify (l : Lens) (target : Value) (f : Value → Value)
  | apply (m : Matcher) (target : Value)

def Operation.perform (host : Host) : Operation → Except Fault Value
  | .construct u label arguments => u.construct label arguments
  | .call callee arguments => callee.call host arguments
  | .of r given => r.of given
  | .lift r document => r.lift document
  | .modify l target f => l.modify target f
  | .apply m target => m.apply host target

/-- What a lens hands to the function that makes the new value of the field. -/
def Lens.current (l : Lens) (fields : Keyed Value) : Value :=
  (Keyed.find? l.field fields).getD .nil

def Matcher.branch? (m : Matcher) (target : Value) : Option Branch :=
  target.tags.label.bind fun label => Keyed.find? label m.branches

/-- What a matcher hands to its branches. -/
def Matcher.payloadOf (target : Value) : Value :=
  target.tags.payload.getD .nil

/-- Lifting the one document by the one definition comes to lifting the other document by
the other definition. -/
inductive Definition.LeadsTo : Definition → Json → Definition → Json → Prop
  | here (d j) : LeadsTo d j d j
  | field {r entries name j d e k} (type : r.fieldType? name = some (.single (.user d)))
      (entry : (name, j) ∈ entries) (rest : LeadsTo d j e k) :
      LeadsTo (.record r) (.object entries) e k
  | item {r entries name items j d e k} (type : r.fieldType? name = some (.listOf (.user d)))
      (entry : (name, .array items) ∈ entries) (mem : j ∈ items) (rest : LeadsTo d j e k) :
      LeadsTo (.record r) (.object entries) e k

inductive Event where
  | defined (d : Definition)
  | performed (operation : Operation) (v : Value)
  | refused (f : Fault)

/-- What happened, the latest first. -/
abbrev History := List Event

namespace History

def Knows (h : History) (d : Definition) : Prop :=
  .defined d ∈ h

def Yields (h : History) (v : Value) : Prop :=
  ∃ operation, .performed operation v ∈ h

/-- A value that exists: an operation yielded it, or something that it is a part of. -/
def Holds (h : History) (v : Value) : Prop :=
  ∃ whole, h.Yields whole ∧ whole.Part v

/-- What can be put together from all that there is. -/
def Available (h : History) (v : Value) : Prop :=
  v.MadeOf h.Knows h.Holds

def Owns (h : History) (u : Union) (c : Constructor) : Prop :=
  h.Knows (.union u) ∧ c ∈ u.constructors

def Written (h : History) (l : Lens) (v : Value) : Prop :=
  ∃ target f result fields, .performed (.modify l target f) result ∈ h ∧
    l.focus? target = some fields ∧ v = f (l.current fields)

/-- An operation makes a value by a constructor of the definition or by its `of`. -/
inductive Makes (h : History) : Operation → Value → Definition → Prop
  | construct {u label arguments v} (made : u.construct label arguments = .ok v) :
      Makes h (.construct u label arguments) v (.union u)
  | call {u c arguments v} (owns : h.Owns u c) (made : c.call arguments = .ok v) :
      Makes h (.call (.constructor c) arguments) v (.union u)
  | of {r given v} (made : r.of given = .ok v) : Makes h (.of r given) v (.record r)
  | lift {r document d j v} (leads : (Definition.record r).LeadsTo document d j)
      (made : d.lift j = .ok v) (typed : v.isTagged = true) : Makes h (.lift r document) v d
  | branch {m target u c v} (branch : m.branch? target = some (.callee (.constructor c)))
      (owns : h.Owns u c) (made : c.call [Matcher.payloadOf target] = .ok v) :
      Makes h (.apply m target) v (.union u)

/-- The definition made the value, or made a value that lenses have turned into it. -/
inductive Origin : History → Value → Definition → Prop
  | made {h operation result v d} (made : Makes h operation v d) :
      Origin (.performed operation result :: h) v d
  | updated {h l target f v d} (origin : Origin h target d) :
      Origin (.performed (.modify l target f) v :: h) v d
  | earlier {e h v d} (origin : Origin h v d) : Origin (e :: h) v d

/-- Constructors come from unions that were defined. What a function gives is put together
from what there is, like everything else. -/
def AllowsCall (h : History) (host : Host) (arguments : List Value) : Callable → Prop
  | .function f => h.Available (host.run f arguments)
  | .constructor c => ∃ u, h.Owns u c
  | .primitive _ => True

def AllowsBranch (h : History) (host : Host) (payload : Value) : Branch → Prop
  | .thunk run => ∀ v, run payload = .ok v → h.Available v
  | .callee c => h.AllowsCall host [payload] c
  | .constant v => h.Available v

def Allows (h : History) (host : Host) : Operation → Prop
  | .construct u _ arguments => h.Knows (.union u) ∧ ∀ v ∈ arguments, h.Available v
  | .call callee arguments => h.AllowsCall host arguments callee ∧ ∀ v ∈ arguments, h.Available v
  | .of r given => h.Knows (.record r) ∧ h.Available given
  | .lift r document => h.Knows (.record r) ∧ document.Unique
  | .modify l target f => (∃ r, h.Knows (.record r) ∧ l ∈ r.lenses) ∧ h.Available target ∧
      ∀ fields, l.focus? target = some fields → h.Available (f (l.current fields))
  | .apply m target => (∃ u branches, h.Knows (.union u) ∧ u.matcher branches = .ok m) ∧
      h.Available target ∧
      ∀ branch, m.branch? target = some branch →
        h.AllowsBranch host (Matcher.payloadOf target) branch

/-- The histories of programs. Definitions may share names. -/
inductive Run : History → Prop
  | start : Run []
  | union {h id descriptor u} (run : Run h) (available : h.Available descriptor)
      (defined : Union.define id descriptor = .ok u) : Run (.defined (.union u) :: h)
  | record {h id descriptor r} (run : Run h) (available : h.Available descriptor)
      (defined : Record.define id descriptor = .ok r) : Run (.defined (.record r) :: h)
  | operation {h host operation v} (run : Run h) (allowed : h.Allows host operation)
      (performed : operation.perform host = .ok v) : Run (.performed operation v :: h)
  | refused {h f} (run : Run h) : Run (.refused f :: h)

end History
end TaggedData
