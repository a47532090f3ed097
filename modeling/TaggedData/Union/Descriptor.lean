import TaggedData.Fault

/-!
# Defining unions

A union is described by a keyed structure with a name and a list of constructors, each
with a name and an arity. The parts are checked in that order, and the list from its
front, so the first thing that is wrong is the one that is reported.
-/

namespace TaggedData

namespace Union

/-- The largest arity. A larger number is read as this one. -/
def arityBound : Nat := 2 ^ (64 : Nat) - 1

def entryLabel? : Value → Option String
  | .object fields =>
    match Keyed.find? "name" fields with
    | some (.string label) => if label = "" then none else some label
    | _ => none
  | _ => none

def entryArity : Value → Value
  | .object fields => (Keyed.find? "arity" fields).getD .nil
  | _ => .nil

/-- The arity that a value denotes: a whole number that is not negative. -/
def arity? : Value → Option Nat
  | .number x =>
    match x.toInt? with
    | some n => if 0 ≤ n then some (min n.toNat arityBound) else none
    | none => none
  | _ => none

/-- The constructors of the entries from `index` on, after those with the labels `seen`. -/
def defineConstructors (id : Nat) (name : String) :
    Nat → List String → List Value → Except Fault (List Constructor)
  | _, _, [] => .ok []
  | index, seen, entry :: rest =>
    match entryLabel? entry with
    | none => .error (.union (.constructorUnnamed name index entry))
    | some label =>
      match arity? (entryArity entry) with
      | none => .error (.union (.constructorArity name label (entryArity entry)))
      | some arity =>
        if label ∈ seen then
          .error (.union (.constructorRepeated name label))
        else
          match defineConstructors id name (index + 1) (label :: seen) rest with
          | .error f => .error f
          | .ok constructors => .ok (⟨id, name, label, arity⟩ :: constructors)

def constructorEntries (name : String) (fields : Keyed Value) : Except Fault (List Value) :=
  match Keyed.find? "constructors" fields with
  | none | some .nil | some .null => .error (.union (.constructorsMissing name))
  | some (.list []) => .error (.union (.constructorsEmpty name))
  | some (.list entries) => .ok entries
  | some given => .error (.union (.constructorsNotList name given))

def descriptorName (fields : Keyed Value) : Except Fault String :=
  match Keyed.find? "typeName" fields with
  | none | some .nil | some .null => .error (.union .nameMissing)
  | some (.string name) =>
    if name = "" then .error (.union (.nameNotText (.string name))) else .ok name
  | some given => .error (.union (.nameNotText given))

/-- The union that a value describes. Its identity `id` must be new. -/
def define (id : Nat) (descriptor : Value) : Except Fault Union :=
  match descriptor with
  | .nil | .null => .error (.union .absent)
  | .object fields => do
    let name ← descriptorName fields
    let entries ← constructorEntries name fields
    let constructors ← defineConstructors id name 0 [] entries
    return ⟨id, name, constructors⟩
  | given => .error (.union (.notKeyed given))

def describe (name : String) (constructors : List (String × Nat)) : Value :=
  .object [("typeName", .string name),
    ("constructors", .list (constructors.map fun (label, arity) =>
      .object [("name", .string label), ("arity", .number (.ofNat arity))]))]

def ofConstructors (id : Nat) (name : String) (constructors : List (String × Nat)) :
    Except Fault Union :=
  define id (describe name constructors)

end Union
end TaggedData
