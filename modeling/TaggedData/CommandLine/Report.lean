import TaggedData.CommandLine.Documents
import TaggedData.Lifting

/-!
# Reports

A check says of every document whether it is a value of the record, and if it is not, why.
The report has a line for each and ends with the two counts.
-/

namespace TaggedData
namespace CommandLine

structure Verdict where
  source : String
  result : Except Fault Value

namespace Verdict

def ofDocument (r : Record) (d : SourcedDocument) : Verdict :=
  ⟨d.source, r.lift d.content⟩

def isPassed (v : Verdict) : Bool :=
  v.result.isOk

end Verdict

inductive Colour where
  | green
  | red
  deriving DecidableEq, Repr

namespace Colour

/-- Whether to use colours, given the settings that force, refuse and allow them and
whether the output is a terminal. The value `0` takes a setting back, except for a
refusal. -/
def isWanted (force refuse allow : Option String) (isTerminal : Bool) : Bool :=
  if force.any (· ≠ "0") then true
  else if refuse.isSome then false
  else allow.all (· ≠ "0") && isTerminal

def paint (coloured : Bool) (c : Colour) (text : String) : String :=
  let code := match c with
    | .green => "32"
    | .red => "31"
  if coloured then "\x1b[" ++ code ++ "m" ++ text ++ "\x1b[0m" else text

end Colour

abbrev Report := List Verdict

namespace Report

def passed (r : Report) : Nat :=
  r.countP Verdict.isPassed

def failed (r : Report) : Nat :=
  r.countP fun v => !v.isPassed

def isSuccess (r : Report) : Bool :=
  r.failed == 0

def line (coloured : Bool) (v : Verdict) : String :=
  match v.result with
  | .ok _ => Colour.green.paint coloured "ok" ++ " " ++ v.source
  | .error f => Colour.red.paint coloured "failed" ++ " " ++ v.source ++ ": " ++ f.message

def summary (coloured : Bool) (r : Report) : String :=
  (if r.isSuccess then Colour.green else Colour.red).paint coloured
    (toString r.passed ++ " passed, " ++ toString r.failed ++ " failed")

def text (coloured : Bool) (r : Report) : String :=
  "\n".intercalate (r.map (line coloured) ++ [r.summary coloured])

def warnings (r : Report) : List LogEvent :=
  r.filterMap fun v =>
    match v.result with
    | .ok _ => none
    | .error f => some (.rejected v.source f.message)

end Report
end CommandLine
end TaggedData
