import TaggedData.Proofs.NameOrder

/-!
# How definitions are written

A union is written as its labels, a record as its fields with their types, both in ascending
order of names. Few labels stand on one line.
-/

namespace TaggedData

/-- How the type of a field is written: by its name, and in brackets for a list. -/
inductive FieldType.Written : FieldType → String → Prop
  | primitive (p : Primitive) : Written (.single (.primitive p)) p.name
  | union (u : Union) : Written (.single (.user (.union u))) u.name
  | record (r : Record) : Written (.single (.user (.record r))) r.name
  | listOf {element : ElementType} {text : String} (item : Written (.single element) text) :
      Written (.listOf element) ("[" ++ text ++ "]")

/-- How a definition is written. -/
inductive Definition.Written : Definition → String → Prop
  | line {u : Union} {labels : List String} (perm : labels.Perm u.labels)
      (ascending : labels.Pairwise (· ≤ ·)) (few : labels.length ≤ 3) :
      Written (.union u) ("type " ++ u.name ++ " = " ++ " | ".intercalate labels)
  | lines {u : Union} {labels : List String} (perm : labels.Perm u.labels)
      (ascending : labels.Pairwise (· ≤ ·)) (many : 3 < labels.length) :
      Written (.union u) ("type " ++ u.name ++ " = " ++
        String.join (labels.map fun label => "\n\t | " ++ label))
  | record {r : Record} {fields : List (String × FieldType)} {entries : List String}
      (perm : fields.Perm r.fields) (ascending : fields.Pairwise fun a b => a.1 ≤ b.1)
      (written : List.Forall₂ (fun field entry =>
        ∃ type, field.2.Written type ∧ entry = field.1 ++ " : " ++ type) fields entries) :
      Written (.record r) ("record " ++ r.name ++ " \x7b " ++ ", ".intercalate entries ++ " \x7d")

theorem FieldType.written_name (type : FieldType) : type.Written type.name := by
  have hsingle : ∀ element : ElementType, (single element).Written element.name := by
    intro element
    cases element with
    | primitive p => exact .primitive p
    | user d =>
      cases d with
      | union u => exact .union u
      | record r => exact .record r
  cases type with
  | single element => exact hsingle element
  | listOf element => exact .listOf (hsingle element)

theorem Union.written_signature (u : Union) : (Definition.union u).Written u.signature := by
  have hperm := Names.sorted_perm u.labels
  have hascending := Names.pairwise_sorted u.labels
  rw [signature]
  by_cases hfew : u.sortedLabels.length ≤ 3
  · rw [if_pos hfew]
    exact .line hperm hascending hfew
  · rw [if_neg hfew]
    exact .lines hperm hascending (Nat.lt_of_not_le hfew)

theorem Record.written_signature (r : Record) : (Definition.record r).Written r.signature := by
  have hsorted : (r.fields.mergeSort fun a b => decide (a.1 ≤ b.1)).map
      (fun field => (field.1, field.2.name)) =
        (r.fields.map fun field => (field.1, field.2.name)).mergeSort
          fun a b => decide (a.1 ≤ b.1) :=
    List.map_mergeSort fun _ _ _ _ => rfl
  have hperm := List.mergeSort_perm r.fields fun a b => decide (a.1 ≤ b.1)
  rw [signature, signatureOf, Names.bracedEntries, Names.commaSeparated, ← hsorted, List.map_map]
  refine .record hperm (Names.pairwise_mergeSort r.fields) ?_
  rw [List.forall₂_map_right_iff, List.forall₂_same]
  intro field _
  exact ⟨_, field.2.written_name, rfl⟩

theorem Definition.written_signature (d : Definition) : d.Written d.signature := by
  cases d with
  | union u => exact u.written_signature
  | record r => exact r.written_signature

end TaggedData
