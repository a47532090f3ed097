import TaggedData.CommandLine.Log
import TaggedData.Files.Access

/-!
# Sessions

A run acts on the files around it and on two outputs. A session is the state of all three.
-/

namespace TaggedData
namespace CommandLine

class Console (m : Type → Type) extends Log m where
  /-- Puts a text on the standard output. -/
  print (text : String) : m Unit
  /-- Puts a text on the standard error output. -/
  complain (text : String) : m Unit

/-- What stands on the standard error output. -/
inductive Notice where
  | event (e : LogEvent)
  | text (text : String)
  deriving DecidableEq, Repr

structure Session (σ : Type) where
  files : σ
  output : String
  errors : List Notice

namespace Session

variable {σ α : Type}

def start (files : σ) : Session σ := ⟨files, "", []⟩

def printing (s : Session σ) (text : String) : Session σ :=
  { s with output := s.output ++ text }

def noticing (s : Session σ) (n : Notice) : Session σ :=
  { s with errors := s.errors ++ [n] }

/-- A step that is about the files alone. -/
def onFiles (x : StateM σ α) : StateM (Session σ) α := fun s =>
  ((x.run s.files).1, { s with files := (x.run s.files).2 })

instance [FileStore (StateM σ)] : FileStore (StateM (Session σ)) where
  readText path := onFiles (FileView.readText path)
  isDirectory path := onFiles (FileView.isDirectory path)
  matching pattern := onFiles (FileView.matching pattern)
  makeDirectory path := onFiles (FileStore.makeDirectory path)
  writeText path text := onFiles (FileStore.writeText path text)

instance : Console (StateM (Session σ)) where
  note e := modify fun s => s.noticing (.event e)
  print text := modify fun s => s.printing text
  complain text := modify fun s => s.noticing (.text text)

end Session
end CommandLine
end TaggedData
