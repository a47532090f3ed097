import TaggedData.Text.Split

/-!
# Path texts

Paths are texts with slashes between names, kept as they were given because messages show
them. An empty name and the name of one point stand for the directory itself.
-/

namespace TaggedData
namespace Path

def isAbsolute (path : String) : Bool :=
  path.toList.head? == some '/'

def segments (path : String) : List String :=
  (Text.split '/' path.toList).map String.ofList

def staysHere (segment : String) : Bool :=
  segment == "" || segment == "."

/-- Whether a path denotes the working directory by points alone. -/
def isHere (path : String) : Bool :=
  path ≠ "" && !isAbsolute path && (segments path).all staysHere

def join (directory name : String) : String :=
  if directory.toList.getLast? == some '/' then directory ++ name else directory ++ "/" ++ name

/-- The path of an entry of a directory. Entries of the working directory have no
directory in their path. -/
def entry (directory name : String) : String :=
  if isHere directory then name else join directory name

/-- Without the last segments that stay where they are. Segments are given from the end
on, and the first segment of a path is kept. -/
def settled : List String → List String
  | last :: before :: rest =>
    if staysHere last then settled (before :: rest) else last :: before :: rest
  | rest => rest

def ofReversed (reversed : List String) : String :=
  if reversed = [""] then "/" else "/".intercalate reversed.reverse

/-- The paths of the directories around the last segment, from the nearest one on. -/
def enclosing : List String → List String
  | _ :: before :: rest =>
    if staysHere before && !rest.isEmpty then enclosing (before :: rest)
    else ofReversed (before :: rest) :: enclosing (before :: rest)
  | _ => []

/-- The directories that a path is in, from the nearest one on. The working directory is
not among them unless the path names it. -/
def directories (path : String) : List String :=
  enclosing (settled (segments path).reverse)

end Path
end TaggedData
