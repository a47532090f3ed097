import TaggedData.CommandLine.Program
import TaggedData.Files.Tree
import TaggedData.Schema.Document
import TaggedData.Tools.Filter.Reader
import TaggedData.Tools.Usage

/-!
# Runs with own tools

A command line on a tree of files, with the readers, filters and arguments of this library in
place of others. Of filters there are only the simplest.
-/

namespace TaggedData
namespace CommandLine

def runFilter (filter : Filter) : FilterRun := fun document =>
  match filter.run document with
  | none => [.error "no result"]
  | some results => results.map fun result => .ok result.compact

def tools : Libraries where
  arguments arguments := (read arguments).mapError ArgumentFault.refusal
  document := Json.parse
  schema := SchemaDocument.parse
  filter text :=
    match Filter.read? text with
    | none => .error (.malformed [(text, "not a filter")])
    | some filter => .ok (runFilter filter)

/-- A finished command: what it printed and whether it succeeded. -/
structure Completion where
  printed : String
  success : Bool
  deriving DecidableEq, Repr

structure ToldFailure where
  message : String
  deriving DecidableEq, Repr

/-- Others filter with another engine, so what ours says of its failures is left out. -/
def ToldFailure.ofFailure : Failure → ToldFailure
  | .filterFailed source f => ⟨(Failure.filterFailed source f).outline⟩
  | f => ⟨f.message⟩

inductive Refusal where
  | arguments (f : ArgumentFault)
  | command (f : ToldFailure)
  deriving DecidableEq, Repr

def execute (coloured : Bool) (arguments : List String) (tree : FileTree) :
    Except Refusal Completion × FileTree :=
  match read arguments with
  | .error f => (.error (.arguments f), tree)
  | .ok i =>
    let run : Attempt (StateM (Session FileTree)) Bool :=
      i.command.perform ⟨tools, coloured, i.verbose⟩
    let (result, session) := run.run.run (.start tree)
    match result with
    | .error f => (.error (.command (.ofFailure f)), session.files)
    | .ok success => (.ok ⟨session.output, success⟩, session.files)

end CommandLine
end TaggedData
