import TaggedData.Proofs.Matching
import TaggedData.Proofs.NameOrder

/-!
# What is reported of a table of branches

A table that is not accepted is reported for its keys, if anything is wrong with these: that
there are none, or else all that are no labels, or else all labels that are no keys. This part
goes by the two sets of names only, so the order of the branches and the order of the
constructors do not matter. With the right keys it is the first branch without a value that is
reported.
-/

namespace TaggedData

namespace Union

theorem signature_eq_of_perm {u v : Union} (name : v.name = u.name) (h : v.labels.Perm u.labels) :
    v.signature = u.signature := by
  rw [signature, signature, sortedLabels, sortedLabels, Names.sorted_eq_of_perm h, name]

/-- A fault of a table of branches, and how it is written. -/
inductive Blames (u : Union) (branches : Keyed Branch) : MatchFault → String → Prop
  /-- Every label, if there are no branches at all. -/
  | empty {labels : List String} (empty : branches = []) (ascending : labels.Pairwise (· < ·))
      (exactly : ∀ label, label ∈ labels ↔ label ∈ u.labels) :
      Blames u branches (.noCases u)
        (u.name ++ ".match: no cases given, missing cases for " ++ Names.braceList labels ++
          " in " ++ u.signature)
  /-- All the keys that are no labels, whatever else is wrong. -/
  | unknown {labels : List String} (nonempty : labels ≠ []) (ascending : labels.Pairwise (· < ·))
      (exactly : ∀ label, label ∈ labels ↔ label ∈ Keyed.keys branches ∧ label ∉ u.labels) :
      Blames u branches (.unknownCases u labels)
        (u.name ++ ".match: cases that will never match " ++ Names.braceList labels ++ " in " ++
          u.signature)
  /-- All the labels that are no keys, if every key is a label. -/
  | missing {labels : List String} (given : branches ≠ [])
      (known : ∀ label ∈ Keyed.keys branches, label ∈ u.labels) (nonempty : labels ≠ [])
      (ascending : labels.Pairwise (· < ·))
      (exactly : ∀ label, label ∈ labels ↔ label ∈ u.labels ∧ label ∉ Keyed.keys branches) :
      Blames u branches (.missingCases u labels)
        (u.name ++ ".match: missing cases for " ++ Names.braceList labels ++ " in " ++ u.signature)
  /-- The first branch that is an absent constant. -/
  | valueless {before after : Keyed Branch} {label : String} {v : Value}
      (keys : ∀ label, label ∈ Keyed.keys branches ↔ label ∈ u.labels)
      (split : branches = before ++ (label, .constant v) :: after) (absent : v.isAbsent = true)
      (earlier : ∀ entry ∈ before, entry.2.isAbsent = false) :
      Blames u branches (.caseWithoutValue u label)
        (u.name ++ ".match: the case for " ++ label ++ " has no value")

variable {u : Union} {branches : Keyed Branch}

end Union
end TaggedData
