import TaggedData.Definition.Signature

/-!
# The log

Events of a run that are shown beside its result. How an event is laid out in a line of the
log is left open.
-/

namespace TaggedData
namespace CommandLine

inductive Level where
  | warn
  | info
  | debug
  deriving DecidableEq, Repr

inductive LogEvent where
  | rejected (source error : String)
  | documentsLoaded (documents : Nat)
  | filterApplied (filter : String) (outputs : Nat)
  | unionDefined (name : String) (constructors : Nat)
  | recordDefined (name : String) (fields : Nat)
  | schemaLoaded (definitions : Nat)
  deriving DecidableEq, Repr

namespace LogEvent

def ofDefinition : Definition → LogEvent
  | .union u => .unionDefined u.name u.constructors.length
  | .record r => .recordDefined r.name r.fields.length

def level : LogEvent → Level
  | .rejected .. => .warn
  | .documentsLoaded _ => .info
  | _ => .debug

def message : LogEvent → String
  | .rejected .. => "document rejected"
  | .documentsLoaded _ => "loaded input documents"
  | .filterApplied .. => "applied jq filter"
  | .unionDefined .. => "defined union type"
  | .recordDefined .. => "defined record"
  | .schemaLoaded _ => "loaded schema"

def details : LogEvent → List (String × String)
  | .rejected source error => [("source", source), ("error", error)]
  | .documentsLoaded documents => [("documents", toString documents)]
  | .filterApplied filter outputs => [("filter", filter), ("outputs", toString outputs)]
  | .unionDefined name constructors =>
    [("type_name", name), ("constructors", toString constructors)]
  | .recordDefined name fields => [("record_name", name), ("fields", toString fields)]
  | .schemaLoaded definitions => [("definitions", toString definitions)]

/-- Warnings are shown in any case. -/
def isShown (verbose : Bool) (e : LogEvent) : Bool :=
  verbose || e.level == .warn

end LogEvent

class Log (m : Type → Type) where
  /-- Puts an event into the log. -/
  note (e : LogEvent) : m Unit

variable {m : Type → Type} [Monad m] [Log m]

def logAll (verbose : Bool) : List LogEvent → m Unit
  | [] => return ()
  | e :: rest => do
    if e.isShown verbose then Log.note e
    logAll verbose rest

end CommandLine
end TaggedData
