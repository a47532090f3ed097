import TaggedData.CommandLine.Libraries

/-!
# Filters on documents

A filter is given as a text, for every document anew. Everything that it puts out is a text
again, which has to be a document.
-/

namespace TaggedData
namespace CommandLine

inductive FilterFault where
  | refused (r : FilterRefusal)
  | stopped (filter cause : String)
  | notDocument (index : Nat) (cause : String)

def FilterRefusal.message : FilterRefusal → String
  | .malformed errors => String.join (errors.map fun (text, error) =>
    "parse error: " ++ error ++ " in `" ++ text ++ "`\n")
  | .undefined names => String.join (names.map fun (text, name, kind) =>
    "undefined `" ++ name ++ "`: " ++ kind ++ " in `" ++ text ++ "`\n")

def FilterFault.message : FilterFault → String
  | .refused r => r.message
  | .stopped filter cause => "jq filter `" ++ filter ++ "` failed: " ++ cause
  | .notDocument index cause => "jq output #" ++ toString index ++ " is not JSON: " ++ cause

/-- Reads what a filter put out, from the given number on. -/
def readOutputs (read : String → Except String Json) (filter : String) :
    Nat → List (Except String String) → Except FilterFault (List Json)
  | _, [] => .ok []
  | _, .error cause :: _ => .error (.stopped filter cause)
  | index, .ok text :: rest =>
    match read text with
    | .error cause => .error (.notDocument index cause)
    | .ok result => (readOutputs read filter (index + 1) rest).map (result :: ·)

def Libraries.applyFilter (libraries : Libraries) (filter : String) (document : Json) :
    Except FilterFault (List Json) :=
  match libraries.filter filter with
  | .error r => .error (.refused r)
  | .ok run => readOutputs libraries.document filter 0 (run document)

end CommandLine
end TaggedData
