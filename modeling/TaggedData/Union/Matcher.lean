import TaggedData.Callable

/-!
# Exhaustive matching

A matcher has a branch for every constructor of its union and for nothing else. Applied
to a value of the union it resolves the branch named by the tag of the value: a constant
is the result itself, anything that can be called is called with the payload.
-/

namespace TaggedData

/-- What a match does in one case. -/
inductive Branch where
  /-- A computation on the payload, which may fail. -/
  | thunk (run : Value → Except Fault Value)
  | callee (c : Callable)
  | constant (v : Value)

namespace Branch

/-- A value as a branch: called if it can be, and otherwise a constant. -/
def ofValue (v : Value) : Branch :=
  match v.callable? with
  | some c => .callee c
  | none => .constant v

def isAbsent : Branch → Bool
  | .constant v => v.isAbsent
  | _ => false

def resolve (host : Host) (payload : Value) : Branch → Except Fault Value
  | .thunk run => run payload
  | .callee c => c.call host [payload]
  | .constant v => .ok v

end Branch

/-- The branches of a keyed structure. Nothing else has branches. -/
def branchesOf? : Value → Option (Keyed Branch)
  | .object fields => some (fields.map fun (label, v) => (label, .ofValue v))
  | _ => none

structure Matcher where
  union : Union
  branches : Keyed Branch

namespace Union

/-- The matcher with given branches, if they are one for every constructor and none of
them is absent. -/
def matcher (u : Union) (branches : Keyed Branch) : Except Fault Matcher :=
  let given := Keyed.keys branches
  let unknown := Names.missingFrom u.labels given
  let missing := Names.missingFrom given u.labels
  if branches.isEmpty then
    .error (.matching (.noCases u))
  else if !unknown.isEmpty then
    .error (.matching (.unknownCases u unknown))
  else if !missing.isEmpty then
    .error (.matching (.missingCases u missing))
  else
    match List.find? (fun entry => entry.2.isAbsent) branches with
    | some (label, _) => .error (.matching (.caseWithoutValue u label))
    | none => .ok ⟨u, branches⟩

def matcherOfValue (u : Union) (branches : Value) : Except Fault Matcher :=
  match branchesOf? branches with
  | some branches => u.matcher branches
  | none => .error (.matching (.casesNotKeyed u branches))

end Union

namespace Matcher

def apply (host : Host) (m : Matcher) (v : Value) : Except Fault Value :=
  let tags := v.tags
  if tags.typeName ≠ some m.union.name then
    .error (.matching (.otherType m.union v))
  else
    match tags.label with
    | none => .error (.matching (.notAValue m.union v))
    | some label =>
      match Keyed.find? label m.branches with
      | none => .error (.matching (.noCase m.union label))
      | some branch => branch.resolve host (tags.payload.getD .nil)

end Matcher
end TaggedData
