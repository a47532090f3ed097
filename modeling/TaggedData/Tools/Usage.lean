import TaggedData.Tools.Arguments

/-!
# Help for the command line
-/

namespace TaggedData
namespace CommandLine

def version : String := "json-adt 0.1.0"

def usage : String :=
  "\n".intercalate [
    "define tagged unions and records in a JSON schema, then validate JSON documents against them",
    "",
    "usage: json-adt describe --schema FILE [--out FILE]",
    "       json-adt check --schema FILE --record NAME --input PATH...",
    "                [--ndjson] [--json-pointer POINTER] [--jq-expr FILTER] [--out FILE]",
    "",
    "  -s, --schema FILE       schema file, an object with types and records",
    "  -r, --record NAME       record that every document must satisfy",
    "  -i, --input PATH...     files or patterns for files",
    "  -o, --out FILE          file for the result, instead of the standard output",
    "      --ndjson            every line of an input is a document",
    "      --json-pointer P    check the part of each document at this pointer",
    "      --jq-expr FILTER    check the results of this filter on each document",
    "      --verbose           log at debug level",
    "  -h, --help              show this help",
    "  -V, --version           show the version"]

namespace ArgumentFault

/-- A request is answered and is no mistake. -/
def isRequest : ArgumentFault → Bool
  | .helpRequested | .versionRequested => true
  | _ => false

def message : ArgumentFault → String
  | .helpRequested | .nothingGiven => usage
  | .versionRequested => version
  | .commandMissing => "a command is missing"
  | .commandUnknown => "there is no such command"
  | .argumentUnknown => "an argument is not known"
  | .argumentRepeated => "an argument is given twice"
  | .valueInvalid => "an option has no value, or an empty one"
  | .tooManyValues => "a switch has a value"
  | .requiredMissing => "a required option is missing"

/-- Help and the version are printed as they are; a mistake stands after a word that says so. -/
def refusal (f : ArgumentFault) : ArgumentRefusal :=
  ⟨(if f.isRequest then f.message else "error: " ++ f.message) ++ "\n", f.isRequest⟩

end ArgumentFault
end CommandLine
end TaggedData
