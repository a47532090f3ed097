/-!
# Lists of names in messages

Names are sorted by code point wherever a text lists them, so that a message does not
depend on the order in which they were given.
-/

namespace TaggedData
namespace Names

def sorted (names : List String) : List String :=
  names.mergeSort fun a b => decide (a ≤ b)

/-- The names in ascending order that one list has and the other has not. -/
def missingFrom (there names : List String) : List String :=
  sorted (names.filter fun name => !there.contains name)

def commaSeparated (names : List String) : String :=
  ", ".intercalate names

def braceList (names : List String) : String :=
  "\x7b" ++ commaSeparated names ++ "\x7d"

/-- A heading with named entries between braces, sorted by name. -/
def bracedEntries (head : String) (entries : List (String × String)) : String :=
  let ordered := entries.mergeSort fun a b => decide (a.1 ≤ b.1)
  head ++ " \x7b " ++ commaSeparated (ordered.map fun (name, text) => name ++ " : " ++ text) ++ " \x7d"

theorem sorted_perm (names : List String) : (sorted names).Perm names :=
  List.mergeSort_perm names _

@[simp] theorem mem_sorted {name : String} {names : List String} :
    name ∈ sorted names ↔ name ∈ names :=
  (sorted_perm names).mem_iff

theorem mem_missingFrom {name : String} {there names : List String} :
    name ∈ missingFrom there names ↔ name ∈ names ∧ name ∉ there := by
  simp [missingFrom]

theorem missingFrom_eq_nil_iff {there names : List String} :
    missingFrom there names = [] ↔ ∀ name ∈ names, name ∈ there := by
  simp only [List.eq_nil_iff_forall_not_mem, mem_missingFrom, not_and, Classical.not_not]

end Names
end TaggedData
