import TaggedData.CommandLine.Fault
import TaggedData.CommandLine.Log
import TaggedData.Json.Pointer
import TaggedData.Text.Blank

/-!
# Documents of a check

The inputs of a check are resolved to files, the files are read as documents, and in every
document a part is selected, which a filter turns into any number of documents. Every
document has a name for the report. All inputs are resolved before the first file is read,
and all documents of a file are read before the first of them is selected from.
-/

namespace TaggedData
namespace CommandLine

structure SourcedDocument where
  source : String
  content : Json

abbrev Attempt (m : Type → Type) (α : Type) := ExceptT Failure m α

def isPattern (input : String) : Bool :=
  input.toList.any fun c => c == '*' || c == '?' || c == '[' || c == '{'

def pathsOf : List (Except String String) → Except InputFault (List String)
  | [] => .ok []
  | .error cause :: _ => .error (.unreadableEntry cause)
  | .ok path :: rest => (pathsOf rest).map (path :: ·)

/-- A pattern has to describe something. -/
def matchedPaths (pattern : String) :
    Except String (List (Except String String)) → Except InputFault (List String)
  | .error cause => .error (.malformedPattern cause)
  | .ok [] => .error (.noMatch pattern)
  | .ok entries => pathsOf entries

namespace Libraries

variable (libraries : Libraries)

def readWhole (path text : String) : Except Failure (List SourcedDocument) :=
  match libraries.document text with
  | .ok content => .ok [⟨path, content⟩]
  | .error cause => .error (.malformedFile path cause)

/-- The documents of lines, which are numbered from the given one on. Blank lines are
counted and hold no document. -/
def readLines (path : String) : Nat → List (List Char) → Except Failure (List SourcedDocument)
  | _, [] => .ok []
  | number, line :: rest =>
    if Text.allBlank line then
      readLines path (number + 1) rest
    else
      match libraries.document (String.ofList line) with
      | .error cause => .error (.malformedLine path number cause)
      | .ok content =>
        (readLines path (number + 1) rest).map
          (⟨path ++ ":" ++ toString number, content⟩ :: ·)

def readDocuments (byLine : Bool) (path text : String) : Except Failure (List SourcedDocument) :=
  if byLine then libraries.readLines path 1 (Text.lines text.toList)
  else libraries.readWhole path text

end Libraries

/-- Several results of a filter are numbered, a single one is not. -/
def nameResults (source : String) (results : List Json) : List SourcedDocument :=
  match results with
  | [result] => [⟨source, result⟩]
  | results => results.zipIdx.map fun (result, n) => ⟨source ++ "#" ++ toString n, result⟩

namespace Selection

def part (s : Selection) (d : SourcedDocument) : Except Failure Json :=
  match s.pointer with
  | none => .ok d.content
  | some pointer =>
    match d.content.pointer? pointer with
    | some part => .ok part
    | none => .error (.nothingSelected pointer d.source)

def filtered (s : Selection) (libraries : Libraries) (source : String) (part : Json) :
    Except Failure (List SourcedDocument) :=
  match s.filter with
  | none => .ok [⟨source, part⟩]
  | some filter =>
    match libraries.applyFilter filter part with
    | .ok results => .ok (nameResults source results)
    | .error f => .error (.filterFailed source f)

def apply (s : Selection) (libraries : Libraries) (d : SourcedDocument) :
    Except Failure (List SourcedDocument) := do
  s.filtered libraries d.source (← s.part d)

def events (s : Selection) (outputs : Nat) : List LogEvent :=
  match s.filter with
  | none => []
  | some filter => [.filterApplied filter outputs]

end Selection

variable {m : Type → Type} [Monad m] [FileView m] [Log m] (env : Setup)

/-- The paths that one input stands for. A path stands for itself, whether there is a file
or not. -/
def resolveInput (input : String) : Attempt m (List String) :=
  if isPattern input then do
    match matchedPaths input (← (FileView.matching input : m _)) with
    | .ok paths => return paths
    | .error f => throw (.unresolvedInput f)
  else
    return [input]

def resolveInputs : List String → Attempt m (List String)
  | [] => return []
  | input :: rest => do
    let paths ← resolveInput input
    return paths ++ (← resolveInputs rest)

def selectAll (s : Selection) : List SourcedDocument → Attempt m (List SourcedDocument)
  | [] => return []
  | d :: rest => do
    let documents ← ExceptT.mk (pure (s.apply env.libraries d))
    (logAll env.verbose (s.events documents.length) : m Unit)
    return documents ++ (← selectAll s rest)

def loadFile (s : Selection) (path : String) : Attempt m (List SourcedDocument) := do
  match ← (FileView.readText path : m _) with
  | .error e => throw (.unreadableFile path e)
  | .ok text =>
    let documents ← ExceptT.mk (pure (env.libraries.readDocuments s.byLine path text))
    selectAll env s documents

def loadFiles (s : Selection) : List String → Attempt m (List SourcedDocument)
  | [] => return []
  | path :: rest => do
    let documents ← loadFile env s path
    return documents ++ (← loadFiles s rest)

/-- The documents of all inputs, in the order of the inputs. -/
def loadDocuments (s : Selection) (inputs : List String) : Attempt m (List SourcedDocument) := do
  let documents ← loadFiles env s (← resolveInputs inputs)
  (logAll env.verbose [.documentsLoaded documents.length] : m Unit)
  return documents

end CommandLine
end TaggedData
