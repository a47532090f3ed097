import TaggedData.CommandLine.Report
import TaggedData.CommandLine.Session

/-!
# Running commands

A command first works out its whole result from the files that it looks at, and only then
writes it, to one file or to the standard output. Reports in files have no colours. What goes
wrong is told on the standard error output.
-/

namespace TaggedData
namespace CommandLine

structure Outcome where
  text : String
  /-- Where the text goes, if not to the standard output. -/
  out : Option String
  success : Bool
  deriving DecidableEq, Repr

/-- Every definition in the order of the schema. -/
def description (s : Schema) : String :=
  "\n\n".intercalate (s.definitions.map Definition.signature)

def findRecord (s : Schema) (name : String) : Except Failure Record :=
  match s.record? name with
  | some r => .ok r
  | none => .error (.unknownRecord name s.recordNames)

section View

variable {m : Type → Type} [Monad m] [FileView m] [Log m] (env : Setup)

def Setup.schemaEvents (text : String) : List LogEvent :=
  match env.libraries.schema text with
  | .error _ => []
  | .ok document => (Schema.empty.made 0 document.records document.types).map .ofDefinition

def loadSchema (path : String) : Attempt m Schema := do
  match ← (FileView.readText path : m _) with
  | .error e => throw (.unreadableSchema path e)
  | .ok text =>
    (logAll env.verbose (env.schemaEvents text) : m Unit)
    match Schema.load env.libraries.schema 0 text with
    | .error f => throw (.invalidSchema path f)
    | .ok s =>
      (logAll env.verbose [.schemaLoaded s.definitions.length] : m Unit)
      return s

def CheckCommand.report (c : CheckCommand) : Attempt m Report := do
  let s ← loadSchema env c.schema
  let r ← ExceptT.mk (pure (findRecord s c.record))
  let documents ← loadDocuments env c.selection c.inputs
  return documents.map (Verdict.ofDocument r)

def Command.outcome : Command → Attempt m Outcome
  | .describe schema out => do
    return ⟨description (← loadSchema env schema), out, true⟩
  | .check c => do
    let report : Report ← c.report env
    (logAll env.verbose report.warnings : m Unit)
    return ⟨report.text (env.coloured && c.out.isNone), c.out, report.isSuccess⟩

end View

section Store

variable {m : Type → Type} [Monad m] [FileStore m] [Console m]

/-- Writes a result to the file that it is for, making the directories around it, or prints
it. -/
def Outcome.emit (o : Outcome) : Attempt m Unit :=
  match o.out with
  | none => (Console.print (o.text ++ "\n") : m Unit)
  | some path => do
    let directories := Path.directories path
    match ← (FileStore.ensureDirectories directories : m _) with
    | .error e => throw (.notCreated (directories.headD "") e)
    | .ok () =>
      match ← (FileStore.writeText path o.text : m _) with
      | .error e => throw (.notWritten path e)
      | .ok () => return ()

/-- Gives whether the command was successful. -/
def Command.perform (env : Setup) (c : Command) : Attempt m Bool := do
  let o ← c.outcome env
  o.emit
  return o.success

inductive Ending where
  | refused (r : ArgumentRefusal)
  | failed (f : Failure)
  | finished (success : Bool)

/-- The exit code. A result that is not what was asked for is a failure for the caller, though
nothing went wrong. -/
def Ending.code : Ending → Nat
  | .refused r => if r.isRequest then 0 else 2
  | .failed _ => 1
  | .finished success => if success then 0 else 1

def perform (libraries : Libraries) (coloured : Bool) (arguments : List String) : m Ending := do
  match libraries.arguments arguments with
  | .error r =>
    if r.isRequest then Console.print r.text else Console.complain r.text
    return .refused r
  | .ok i =>
    match ← (i.command.perform ⟨libraries, coloured, i.verbose⟩).run with
    | .ok success => return .finished success
    | .error f =>
      Console.complain ("error: " ++ f.message ++ "\n")
      return .failed f

end Store
end CommandLine
end TaggedData
