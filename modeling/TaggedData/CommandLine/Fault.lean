import TaggedData.CommandLine.Filtering
import TaggedData.Files.Access

/-!
# Failures of a command

Everything that ends a command before it has a result. That a document is rejected is no
failure but a result.
-/

namespace TaggedData
namespace CommandLine

inductive InputFault where
  | malformedPattern (cause : String)
  | unreadableEntry (cause : String)
  | noMatch (pattern : String)
  deriving DecidableEq, Repr

inductive Failure where
  | unreadableSchema (path : String) (cause : OsError)
  | invalidSchema (path : String) (f : Fault)
  | unknownRecord (name : String) (known : List String)
  | unresolvedInput (f : InputFault)
  | unreadableFile (path : String) (cause : OsError)
  | malformedFile (path cause : String)
  | malformedLine (path : String) (number : Nat) (cause : String)
  | nothingSelected (pointer source : String)
  | filterFailed (source : String) (f : FilterFault)
  | notCreated (directory : String) (cause : OsError)
  | notWritten (path : String) (cause : OsError)

def InputFault.message : InputFault → String
  | .malformedPattern cause => cause
  | .unreadableEntry cause => cause
  | .noMatch pattern => "glob pattern matched no files: " ++ pattern

namespace Failure

/-- The message without what another one has to say about the cause. -/
def outline : Failure → String
  | .unreadableSchema path _ => "failed to read schema file " ++ path
  | .invalidSchema path _ => "invalid schema file " ++ path
  | .unknownRecord name known =>
    "no record named " ++ name ++ " in schema (records: " ++ Names.commaSeparated known ++ ")"
  | .unresolvedInput _ => "failed to resolve input file paths"
  | .unreadableFile path _ => "failed to read source file " ++ path
  | .malformedFile path _ => "failed to parse JSON source file (" ++ path ++ ")"
  | .malformedLine path number _ =>
    "failed to parse JSON line " ++ toString number ++ " of " ++ path
  | .nothingSelected pointer source =>
    "JSON pointer " ++ pointer ++ " selects nothing in " ++ source
  | .filterFailed source _ => "failed to apply jq expression to source file (" ++ source ++ ")"
  | .notCreated directory _ => "failed to create " ++ directory
  | .notWritten path _ => "failed to write " ++ path

def cause? : Failure → Option String
  | .unreadableSchema _ cause | .unreadableFile _ cause | .notCreated _ cause
  | .notWritten _ cause => some cause.message
  | .invalidSchema _ f => some f.message
  | .unresolvedInput f => some f.message
  | .malformedFile _ cause | .malformedLine _ _ cause => some cause
  | .filterFailed _ f => some f.message
  | .unknownRecord .. | .nothingSelected .. => none

def message (f : Failure) : String :=
  match f.cause? with
  | none => f.outline
  | some cause => f.outline ++ ": " ++ cause

end Failure
end CommandLine
end TaggedData
