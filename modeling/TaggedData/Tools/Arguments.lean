import TaggedData.CommandLine.Libraries

/-!
# Command-line arguments

A command line names one of two commands and gives it options. The value of an option is
the argument after it, or stands in the same argument. An option is settled when the next
one is met or the arguments end: only then are its values counted and checked, so an
argument that is not known at all is noticed before a value that is missing.
-/

namespace TaggedData
namespace CommandLine

/-- Why arguments are not a command. The first two are requests and no mistakes. -/
inductive ArgumentFault where
  | helpRequested
  | versionRequested
  | nothingGiven
  | commandMissing
  | commandUnknown
  | argumentUnknown
  | argumentRepeated
  | valueInvalid
  | tooManyValues
  | requiredMissing
  deriving DecidableEq, Repr

inductive ValueOption where
  | schema
  | record
  | input
  | pointer
  | filter
  | out
  deriving DecidableEq, Repr

inductive Switch where
  | verbose
  | byLine
  deriving DecidableEq, Repr

inductive CommandName where
  | describe
  | check
  deriving DecidableEq, Repr

inductive Meaning where
  | help
  | version
  | switch (s : Switch)
  | value (o : ValueOption)
  deriving DecidableEq, Repr

namespace CommandName

def ofText? : String → Option CommandName
  | "describe" => some .describe
  | "check" => some .check
  | _ => none

def long? (command : CommandName) : String → Option Meaning
  | "help" => some .help
  | "verbose" => some (.switch .verbose)
  | "schema" => some (.value .schema)
  | "out" => some (.value .out)
  | name =>
    match command, name with
    | .check, "ndjson" => some (.switch .byLine)
    | .check, "json-pointer" => some (.value .pointer)
    | .check, "jq-expr" => some (.value .filter)
    | .check, "input" => some (.value .input)
    | .check, "record" => some (.value .record)
    | _, _ => none

def short? (command : CommandName) : Char → Option Meaning
  | 'h' => some .help
  | 's' => some (.value .schema)
  | 'o' => some (.value .out)
  | c =>
    match command, c with
    | .check, 'i' => some (.value .input)
    | .check, 'r' => some (.value .record)
    | _, _ => none

end CommandName

structure Given where
  values : List (ValueOption × List String)
  switches : List Switch
  /-- The option that is not settled yet, and its values. -/
  pending : Option (ValueOption × List String)
  deriving DecidableEq, Repr

namespace Given

def empty : Given := ⟨[], [], none⟩

def valuesOf (g : Given) (o : ValueOption) : List String :=
  (g.values.filter fun entry => entry.1 = o).flatMap Prod.snd

def first? (g : Given) (o : ValueOption) : Option String :=
  (g.valuesOf o).head?

/-- Inputs add up; every other option is given once. A file to read the schema from or to
write to has a name. -/
def record (g : Given) (o : ValueOption) (values : List String) : Except ArgumentFault Given :=
  if values = [] then .error .valueInvalid
  else if o ≠ .input ∧ g.valuesOf o ≠ [] then .error .argumentRepeated
  else if (o = .schema ∨ o = .out) ∧ "" ∈ values then .error .valueInvalid
  else .ok { g with values := g.values ++ [(o, values)] }

def settle (g : Given) : Except ArgumentFault Given :=
  match g.pending with
  | none => .ok g
  | some (o, values) => { g with pending := none }.record o values

def attach (g : Given) (o : ValueOption) (value : String) : Except ArgumentFault Given := do
  (← g.settle).record o [value]

/-- Begins an option whose value is in another argument. -/
def await (g : Given) (o : ValueOption) : Except ArgumentFault Given := do
  return { (← g.settle) with pending := some (o, []) }

def turnOn (g : Given) (s : Switch) : Except ArgumentFault Given := do
  let g ← g.settle
  if s ∈ g.switches then .error .argumentRepeated else .ok { g with switches := s :: g.switches }

/-- Whether the next argument can be a value of the option before it. Only inputs have
several. -/
def takesValue (g : Given) : Bool :=
  match g.pending with
  | some (.input, _) | some (_, []) => true
  | _ => false

def addValue (g : Given) (value : String) : Given :=
  { g with pending := g.pending.map fun (o, values) => (o, values ++ [value]) }

/-- An option of one argument, `attached` being what stands behind its name there. -/
def take (g : Given) (meaning : Meaning) (attached : Option String) :
    Except ArgumentFault Given :=
  match meaning, attached with
  | .value o, some value => g.attach o value
  | .value o, none => g.await o
  | _, some _ => .error .tooManyValues
  | .switch s, none => g.turnOn s
  | .help, none => do
    let _ ← g.settle
    .error .helpRequested
  | .version, none => do
    let _ ← g.settle
    .error .versionRequested

end Given

/-- A long option name and the value attached to it by an equals sign. -/
def splitLong (name : List Char) : String × Option String :=
  match name.span (· ≠ '=') with
  | (before, _ :: value) => (String.ofList before, some (String.ofList value))
  | (before, []) => (String.ofList before, none)

/-- The value in an argument behind a short option name. An equals sign in between does
not belong to it. -/
def attachedValue : List Char → Option String
  | [] => none
  | '=' :: value => some (String.ofList value)
  | value => some (String.ofList value)

/-- Short option names in one argument. One that takes a value takes the rest of it. -/
def readShort (meaning? : Char → Option Meaning) (g : Given) :
    List Char → Except ArgumentFault Given
  | [] => .ok g
  | c :: rest =>
    match meaning? c with
    | none => .error .argumentUnknown
    | some (.value o) => g.take (.value o) (attachedValue rest)
    | some meaning => do readShort meaning? (← g.take meaning none) rest

inductive Argument where
  | separator
  | long (name : String) (attached : Option String)
  | short (names : List Char)
  | plain (text : String)

def Argument.ofText (text : String) : Argument :=
  match text.toList with
  | ['-', '-'] => .separator
  | '-' :: '-' :: name => .long (splitLong name).1 (splitLong name).2
  | '-' :: c :: rest => .short (c :: rest)
  | _ => .plain text

def readOption (long? : String → Option Meaning) (short? : Char → Option Meaning) (g : Given) :
    Argument → Except ArgumentFault Given
  | .long name attached =>
    match long? name with
    | some meaning => g.take meaning attached
    | none => .error .argumentUnknown
  | .short names => readShort short? g names
  | _ => .error .argumentUnknown

/-- The arguments of a command. Nothing may stand behind the separator. -/
def readGiven (command : CommandName) (g : Given) : List String → Except ArgumentFault Given
  | [] => g.settle
  | text :: rest =>
    match Argument.ofText text with
    | .separator => if rest = [] then g.settle else .error .argumentUnknown
    | .plain value =>
      if g.takesValue then readGiven command (g.addValue value) rest else .error .argumentUnknown
    | option => do
      readGiven command (← readOption command.long? command.short? g option) rest

namespace Given

def check? (g : Given) : Option CheckCommand := do
  let schema ← g.first? .schema
  let record ← g.first? .record
  let inputs := g.valuesOf .input
  if inputs = [] then none
  else
    some {
      schema, record, inputs,
      selection := ⟨.byLine ∈ g.switches, g.first? .pointer, g.first? .filter⟩,
      out := g.first? .out }

/-- The command, if everything that it needs was given. -/
def command? (g : Given) : CommandName → Option Command
  | .describe => (g.first? .schema).map fun schema => .describe schema (g.first? .out)
  | .check => g.check?.map .check

end Given

/-- The switch for more events may stand before the command and behind it. -/
def readCommand (verbose : Bool) (command : CommandName) (rest : List String) :
    Except ArgumentFault Invocation := do
  let g ← readGiven command .empty rest
  match g.command? command with
  | some c => .ok ⟨c, verbose || .verbose ∈ g.switches⟩
  | none => .error .requiredMissing

def isCommandWord (text : String) : Bool :=
  text == "help" || (CommandName.ofText? text).isSome

/-- Help is given on everything or on one command. -/
def isHelpTopic : List String → Bool
  | [] => true
  | [topic] => isCommandWord topic
  | _ => false

def topLong? : String → Option Meaning
  | "help" => some .help
  | "version" => some .version
  | "verbose" => some (.switch .verbose)
  | _ => none

def topShort? : Char → Option Meaning
  | 'h' => some .help
  | 'V' => some .version
  | _ => none

def withoutCommand (g : Given) : ArgumentFault :=
  if g.switches = [] then .nothingGiven else .commandMissing

/-- The arguments before the command, and the command. -/
def readTop (g : Given) : List String → Except ArgumentFault Invocation
  | [] => .error (withoutCommand g)
  | text :: rest =>
    match Argument.ofText text with
    | .separator =>
      match rest with
      | [] => .error (withoutCommand g)
      | next :: _ => .error (if isCommandWord next then .argumentUnknown else .commandUnknown)
    | .plain word =>
      match CommandName.ofText? word with
      | some command => readCommand (.verbose ∈ g.switches) command rest
      | none =>
        .error (if word = "help" ∧ isHelpTopic rest then .helpRequested else .commandUnknown)
    | option => do readTop (← readOption topLong? topShort? g option) rest

def read (arguments : List String) : Except ArgumentFault Invocation :=
  readTop .empty arguments

end CommandLine
end TaggedData
