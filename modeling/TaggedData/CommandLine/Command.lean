/-!
# Commands

What can be asked for: the signatures of a schema, or a check of documents against one of its
records.
-/

namespace TaggedData
namespace CommandLine

/-- How the documents of a check are found in its input files. -/
structure Selection where
  /-- Every line of a file is a document. -/
  byLine : Bool
  pointer : Option String
  filter : Option String
  deriving DecidableEq, Repr

structure CheckCommand where
  schema : String
  record : String
  inputs : List String
  selection : Selection
  /-- Where the report goes, if not to the standard output. -/
  out : Option String
  deriving DecidableEq, Repr

inductive Command where
  | describe (schema : String) (out : Option String)
  | check (c : CheckCommand)
  deriving DecidableEq, Repr

structure Invocation where
  command : Command
  /-- Whether less important events are shown as well. -/
  verbose : Bool
  deriving DecidableEq, Repr

end CommandLine
end TaggedData
