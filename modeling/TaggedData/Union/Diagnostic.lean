import TaggedData.Union.Matcher
import TaggedData.Value.Diagnostic

/-!
# The diagnostic view of branches

Of a computation only its presence is shown, and of a matcher only the names of its
cases.
-/

namespace TaggedData
namespace Diagnostic

def ofBranch : Branch → String
  | .thunk _ | .callee _ => "Thunk(..)"
  | .constant v => call "Constant" (ofValue v)

def ofBranches (branches : Keyed Branch) : String :=
  map (branches.map fun (label, branch) => (label, ofBranch branch))

def ofMatcher (m : Matcher) : String :=
  struct "Matcher" [("type", Text.quoted m.union.name),
    ("cases", list ((Keyed.keys m.branches).map Text.quoted))]

end Diagnostic
end TaggedData
