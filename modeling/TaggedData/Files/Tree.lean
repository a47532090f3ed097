import TaggedData.Tools.Glob.Expansion

/-!
# Trees of files

The files under a working directory as data. A tree knows nothing of what is above its
working directory, or of the root, except that these are directories. Keys are paths in
normal form: the names from the working directory on, a path that leaves it starting with
two points, and an absolute path with a slash.
-/

namespace TaggedData

inductive FileNode where
  /-- A file whose content is not text has none here. -/
  | file (text : Option String)
  | directory
  deriving DecidableEq, Repr

structure FileTree where
  nodes : List (List String × FileNode)

namespace FileTree

def empty : FileTree := ⟨[]⟩

/-- The working directory and what is around it are always there. -/
def isFixed (key : List String) : Bool :=
  key == ["/"] || key.all (· == "..")

def node? (tree : FileTree) (key : List String) : Option FileNode :=
  if isFixed key then some .directory else tree.nodes.lookup key

def parentKey (key : List String) : List String :=
  if key = ["/"] then key
  else if key.all (· == "..") then ".." :: key
  else key.dropLast

def follow (tree : FileTree) (key : List String) (segment : String) :
    Except OsError (List String) :=
  match tree.node? key with
  | none => .error .notFound
  | some (.file _) => .error .notDirectory
  | some .directory =>
    .ok (if Path.staysHere segment then key
      else if segment = ".." then parentKey key
      else key ++ [segment])

/-- The key of a path. Everything before its last segment has to be a directory. -/
def key? (tree : FileTree) (path : String) : Except OsError (List String) :=
  if path = "" then .error .notFound
  else (Path.segments path).foldlM tree.follow (if Path.isAbsolute path then ["/"] else [])

def nodeAt (tree : FileTree) (path : String) : Except OsError FileNode :=
  match tree.key? path with
  | .error e => .error e
  | .ok key =>
    match tree.node? key with
    | some node => .ok node
    | none => .error .notFound

def put (tree : FileTree) (key : List String) (node : FileNode) : FileTree :=
  ⟨(key, node) :: tree.nodes.filter fun entry => entry.1 ≠ key⟩

def readText (tree : FileTree) (path : String) : Except OsError String :=
  match tree.nodeAt path with
  | .error e => .error e
  | .ok .directory => .error .isDirectory
  | .ok (.file none) => .error .notText
  | .ok (.file (some text)) => .ok text

def kind? (tree : FileTree) (path : String) : Option FileKind :=
  match tree.nodeAt path with
  | .error _ => none
  | .ok .directory => some .directory
  | .ok (.file _) => some .file

def namesIn (tree : FileTree) (key : List String) : List String :=
  tree.nodes.filterMap fun (path, _) =>
    match path.getLast? with
    | some name => if path.dropLast = key then some name else none
    | none => none

def entryNames (tree : FileTree) (path : String) : Except OsError (List String) :=
  match tree.nodeAt path, tree.key? path with
  | .ok .directory, .ok key => .ok (tree.namesIn key)
  | .ok (.file _), _ => .error .notDirectory
  | .error e, _ => .error e
  | _, .error e => .error e

def makeDirectory (tree : FileTree) (path : String) : Except OsError FileTree :=
  match tree.key? path with
  | .error e => .error e
  | .ok key =>
    match tree.node? key with
    | some _ => .error .alreadyExists
    | none => .ok (tree.put key .directory)

/-- A path that ends in a slash can be no file. -/
def writeText (tree : FileTree) (path text : String) : Except OsError FileTree :=
  if path.toList.getLast? = some '/' then .error .isDirectory
  else
    match tree.key? path with
    | .error e => .error e
    | .ok key =>
      match tree.node? key with
      | some .directory => .error .isDirectory
      | _ => .ok (tree.put key (.file (some text)))

/-- Adds a file and the directories that it is in. -/
def addFile (tree : FileTree) (path : String) (text : Option String) : FileTree :=
  let names := (Path.segments path).filter fun segment => !Path.staysHere segment
  let around := (List.range names.length).filterMap fun n =>
    if n = 0 then none else some (names.take n)
  (around.foldl (fun tree key => tree.put key .directory) tree).put names (.file text)

def files (tree : FileTree) : List (String × Option String) :=
  tree.nodes.filterMap fun (key, node) =>
    match node, key with
    | .file text, name :: rest =>
      if name = "/" ∨ name = ".." then none else some ("/".intercalate (name :: rest), text)
    | _, _ => none

end FileTree

instance : DirectoryView (ReaderM FileTree) where
  kind? path := fun tree => tree.kind? path
  entryNames path := fun tree => tree.entryNames path

namespace FileTree

def isDirectory (tree : FileTree) (path : String) : Bool :=
  tree.kind? path == some .directory

def matching (tree : FileTree) (pattern : String) : Except String (List (Except String String)) :=
  (Glob.paths pattern : ReaderM FileTree _) tree

/-- A change that fails leaves the tree as it was. -/
def attempt (change : FileTree → Except OsError FileTree) :
    StateM FileTree (Except OsError Unit) := fun tree =>
  match change tree with
  | .ok tree => (.ok (), tree)
  | .error e => (.error e, tree)

end FileTree

instance : FileView (ReaderM FileTree) where
  readText path := fun tree => tree.readText path
  isDirectory path := fun tree => tree.isDirectory path
  matching pattern := fun tree => tree.matching pattern

instance : FileStore (StateM FileTree) where
  readText path := fun tree => (tree.readText path, tree)
  isDirectory path := fun tree => (tree.isDirectory path, tree)
  matching pattern := fun tree => (tree.matching pattern, tree)
  makeDirectory path := FileTree.attempt fun tree => tree.makeDirectory path
  writeText path text := FileTree.attempt fun tree => tree.writeText path text

end TaggedData
