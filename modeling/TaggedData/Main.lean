import TaggedData.CommandLine.Run

/-!
# The program

The command line on the files of the machine. Results go to the standard output or to a
file, failures to the standard error output.
-/

namespace TaggedData

namespace Machine

/-- The code of an error, which some of the machine's libraries negate. -/
def plainCode (code : UInt32) : Nat :=
  if 2 ^ (31 : Nat) ≤ code.toNat then 2 ^ (32 : Nat) - code.toNat else code.toNat

def refusal : IO.Error → OsError
  | .alreadyExists _ code details | .invalidArgument _ code details
  | .permissionDenied _ code details | .resourceExhausted _ code details
  | .inappropriateType _ code details | .noSuchThing _ code details
  | .interrupted _ code details | .noFileOrDirectory _ code details
  | .otherError code details | .resourceBusy code details | .resourceVanished code details
  | .unsupportedOperation code details | .hardwareFault code details
  | .unsatisfiedConstraints code details | .illegalOperation code details
  | .protocolError code details | .timeExpired code details => .ofCode (plainCode code) details
  | .unexpectedEof => .other "unexpected end of file" 0
  | .userError text => .other text 0

def attempt {α : Type} (action : IO α) : IO (Except OsError α) := do
  match ← action.toBaseIO with
  | .ok a => return .ok a
  | .error e => return .error (refusal e)

def readText (path : String) : IO (Except OsError String) := do
  match ← attempt (IO.FS.readBinFile path) with
  | .error e => return .error e
  | .ok bytes =>
    match String.fromUTF8? bytes with
    | some text => return .ok text
    | none => return .error .notText

def kind? (path : String) : IO (Option FileKind) := do
  match ← (System.mkFilePath [path]).metadata.toBaseIO with
  | .ok data => return some (if data.type == .dir then .directory else .file)
  | .error _ => return none

def entryNames (path : String) : IO (Except OsError (List String)) :=
  attempt do
    let entries ← (System.mkFilePath [path]).readDir
    return entries.toList.map (·.fileName)

instance : DirectoryView IO where
  kind? := kind?
  entryNames := entryNames

instance : FileStore IO where
  readText := readText
  isDirectory := DirectoryView.isDirectory
  matching := Glob.paths
  makeDirectory path := attempt (IO.FS.createDir path)
  writeText path text := attempt (IO.FS.writeFile path text)

/-- A line of the log, without the time. -/
def logLine (e : CommandLine.LogEvent) : String :=
  let level := match e.level with
    | .warn => "WARN"
    | .info => "INFO"
    | .debug => "DEBUG"
  " ".intercalate (level :: e.message :: e.details.map fun (name, value) => name ++ "=" ++ value)

instance : CommandLine.Console IO where
  note e := IO.eprintln (logLine e)
  print text := IO.print text
  complain text := IO.eprint text

def isColoured : IO Bool := do
  let force ← IO.getEnv "CLICOLOR_FORCE"
  let refuse ← IO.getEnv "NO_COLOR"
  let allow ← IO.getEnv "CLICOLOR"
  return CommandLine.Colour.isWanted force refuse allow (← (← IO.getStdout).isTty)

end Machine
end TaggedData

def main (arguments : List String) : IO UInt32 := do
  let coloured ← TaggedData.Machine.isColoured
  let ending ← TaggedData.CommandLine.perform TaggedData.CommandLine.tools coloured arguments
  return ending.code.toUInt32
