import TaggedData.Files.Path

/-!
# Access to files

What a command asks of the files around it. Looking at files and changing them are
separate interfaces, so that a computation that only has the first cannot change
anything. How a pattern describes paths is up to the one who gives the interface.
-/

namespace TaggedData

inductive OsError where
  | notFound
  | alreadyExists
  | notDirectory
  | isDirectory
  | notText
  | other (description : String) (code : Nat)
  deriving DecidableEq, Repr

namespace OsError

def withCode (description : String) (code : Nat) : String :=
  description ++ " (os error " ++ toString code ++ ")"

def message : OsError → String
  | .notFound => withCode "No such file or directory" 2
  | .alreadyExists => withCode "File exists" 17
  | .notDirectory => withCode "Not a directory" 20
  | .isDirectory => withCode "Is a directory" 21
  | .notText => "stream did not contain valid UTF-8"
  | .other description code => withCode description code

/-- The refusal with a code of the operating system. -/
def ofCode (code : Nat) (description : String) : OsError :=
  match code with
  | 2 => .notFound
  | 17 => .alreadyExists
  | 20 => .notDirectory
  | 21 => .isDirectory
  | _ => .other description code

end OsError

class FileView (m : Type → Type) where
  /-- The content of a file, which has to be text. -/
  readText (path : String) : m (Except OsError String)
  isDirectory (path : String) : m Bool
  /-- The paths that a pattern stands for, or what is wrong with the pattern. Instead of a path
  there may be what is wrong with an entry on the way. -/
  matching (pattern : String) : m (Except String (List (Except String String)))

class FileStore (m : Type → Type) extends FileView m where
  makeDirectory (path : String) : m (Except OsError Unit)
  /-- Gives a file its content, whatever it had before. -/
  writeText (path text : String) : m (Except OsError Unit)

namespace FileStore

variable {m : Type → Type} [Monad m] [FileStore m]

/-- Makes a directory. That it is there already is no failure. -/
def ensureDirectory (path : String) : m (Except OsError Unit) := do
  match ← makeDirectory path with
  | .ok () => return .ok ()
  | .error e => return if ← FileView.isDirectory path then .ok () else .error e

/-- Makes the first of some directories, each of which is in the next one. The ones
around it are made only if it cannot be made without them. -/
def ensureDirectories : List String → m (Except OsError Unit)
  | [] => return .ok ()
  | path :: around => do
    match ← ensureDirectory path with
    | .error .notFound =>
      match ← ensureDirectories around with
      | .ok () => ensureDirectory path
      | .error e => return .error e
    | result => return result

end FileStore
end TaggedData
