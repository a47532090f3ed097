import TaggedData.Files.Access
import TaggedData.Tools.Glob
import TaggedData.Names

/-!
# Expanding patterns

The paths that a pattern stands for, in ascending order of their names. A directory comes
before what is in it.
-/

namespace TaggedData

inductive FileKind where
  | file
  | directory
  deriving DecidableEq, Repr

/-- What an expansion asks of the files. -/
class DirectoryView (m : Type → Type) where
  /-- What is at a path, if there is anything. -/
  kind? (path : String) : m (Option FileKind)
  /-- The names in a directory, in any order. -/
  entryNames (path : String) : m (Except OsError (List String))

namespace DirectoryView

variable {m : Type → Type} [Monad m] [DirectoryView m]

def exists? (path : String) : m Bool := do
  return (← kind? path).isSome

def isDirectory (path : String) : m Bool := do
  return (← kind? path) == some .directory

end DirectoryView

structure UnreadableDirectory where
  path : String
  cause : OsError
  deriving DecidableEq, Repr

namespace UnreadableDirectory

def message (u : UnreadableDirectory) : String :=
  "attempting to read `" ++ u.path ++ "` resulted in an error: " ++ u.cause.message

end UnreadableDirectory

namespace Glob

/-- No path has more names than this, because it could not be opened. -/
def nestingLimit : Nat := 4096

variable {m : Type → Type} [Monad m] [DirectoryView m]

abbrev Expansion (m : Type → Type) := ExceptT UnreadableDirectory m (List String)

/-- What `visit` gives for the names in a directory, and nothing if there is no such
directory. -/
def forEntries (directory : String) (visit : String → Expansion m) : Expansion m := do
  if ← (DirectoryView.isDirectory directory : m _) then
    match ← (DirectoryView.entryNames directory : m _) with
    | .error e => throw ⟨directory, e⟩
    | .ok names => return (← (Names.sorted names).mapM visit).flatten
  else
    return []

/-- What `visit` gives for the names and paths of everything below a directory. -/
def forAllBelow (visit : String → String → Expansion m) : Nat → String → Expansion m
  | 0, _ => return []
  | limit + 1, directory =>
    forEntries directory fun name => do
      let path := Path.entry directory name
      let here ← visit name path
      return here ++ (← forAllBelow visit limit path)

/-- A path that the whole pattern describes. -/
def accept (directoriesOnly : Bool) (path : String) : Expansion m := do
  if !directoriesOnly || (← (DirectoryView.isDirectory path : m _)) then return [path] else return []

mutual

def expandIn (directoriesOnly : Bool) : List Part → String → Expansion m
  | [], path => accept directoriesOnly path
  | .name text :: parts, directory => do
    let path := Path.entry directory text
    let found ← (if text = "." ∨ text = ".." then DirectoryView.isDirectory directory
      else DirectoryView.exists? path : m Bool)
    if found then expandIn directoriesOnly parts path else return []
  | .directories :: parts, directory =>
    forAllBelow (fun name path => arrive directoriesOnly parts name path) nestingLimit directory
  | .form tokens :: parts, directory => do
    let special ←
      if ← (DirectoryView.isDirectory directory : m _) then
        (Part.form tokens).specials.mapM fun name =>
          expandIn directoriesOnly parts (Path.join directory name)
      else
        pure []
    let ordinary ← forEntries directory fun name =>
      if fits tokens name.toList then
        expandIn directoriesOnly parts (Path.entry directory name)
      else
        pure []
    return special.flatten ++ ordinary

/-- The paths that parts of a pattern describe from an entry on. The entry stands for the
first of them, or for a directory if there is none. -/
def arrive (directoriesOnly : Bool) : List Part → String → String → Expansion m
  | [], _, path => accept true path
  | .directories :: parts, name, path => arrive directoriesOnly parts name path
  | .name text :: parts, name, path =>
    if name = text then expandIn directoriesOnly parts path else return []
  | .form tokens :: parts, name, path =>
    if fits tokens name.toList then expandIn directoriesOnly parts path else return []

end

def expand (pattern : Glob) : Expansion m :=
  match pattern.parts with
  | [] => return []
  | parts => expandIn pattern.directoriesOnly parts (if pattern.isAbsolute then "/" else ".")

/-- The paths that a text stands for as a pattern. -/
def paths (text : String) : m (Except String (List (Except String String))) := do
  match read text with
  | .error f => return .error f.message
  | .ok pattern =>
    match ← pattern.expand.run with
    | .error u => return .ok [.error u.message]
    | .ok paths => return .ok (paths.map .ok)

end Glob
end TaggedData
