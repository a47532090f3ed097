import TaggedData.CommandLine.Command
import TaggedData.Schema.Loading

/-!
# Libraries

What a run leaves to others: reading the arguments, reading documents, and filters. What
patterns for paths stand for is left to the files.
-/

namespace TaggedData
namespace CommandLine

/-- Arguments that are no invocation: a request for help or for the version, or a mistake. -/
structure ArgumentRefusal where
  text : String
  isRequest : Bool

/-- Why a filter is not taken: errors in its text, or names without a meaning. With each stands
the text where it is. -/
inductive FilterRefusal where
  | malformed (errors : List (String × String))
  | undefined (names : List (String × String × String))

/-- The texts that a filter puts out for a document, or what goes wrong in place of one. -/
abbrev FilterRun := Json → List (Except String String)

structure Libraries where
  arguments : List String → Except ArgumentRefusal Invocation
  document : String → Except String Json
  schema : SchemaReader
  filter : String → Except FilterRefusal FilterRun

/-- The libraries of a run and the settings that all of it has in common. -/
structure Setup where
  libraries : Libraries
  coloured : Bool
  verbose : Bool

end CommandLine
end TaggedData
