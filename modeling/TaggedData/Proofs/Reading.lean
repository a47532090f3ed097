import TaggedData.Proofs.Basic
import TaggedData.Proofs.Parts
import TaggedData.Schema.Document

/-!
# What is read has no key twice

Members of an object are put under their keys, so a document that was read is unique at
every depth, and so are the descriptors of a schema document.
-/

namespace TaggedData
namespace Json

theorem Unique.put {fields : Keyed Json} (hfields : (object fields).Unique) {j : Json}
    (hj : j.Unique) (key : String) : (object (Keyed.put key j fields)).Unique := by
  obtain ⟨hunique, hentries⟩ := unique_object.mp hfields
  refine unique_object.mpr ⟨hunique.put key j, fun entry hentry => ?_⟩
  rcases Keyed.mem_of_mem_put hentry with rfl | hentry
  · exact hj
  · exact hentries entry hentry

theorem unique_nil : (object []).Unique :=
  unique_object.mpr ⟨List.nodup_nil, List.forall_mem_nil _⟩

mutual

/-- By induction on the text, like the reader itself. -/
theorem unique_of_readValue {depth : Nat} {s : List Char} {j : Json} {rest : Rest s}
    (h : readValue depth s = .ok (j, rest)) : j.Unique := by
  unfold readValue at h
  split at h
  · cases h
  · rename_i c rest hskip
    have hrest : rest.length < s.length := by
      have hle := length_skipSpace_le s
      rw [hskip, List.length_cons] at hle
      exact hle
    dsimp only at h
    split at h
    case h_6 =>
      obtain ⟨_, _, hj⟩ := map_eq_ok.mp h
      cases hj
      trivial
    case h_7 =>
      split_ifs at h
      · cases h
      · obtain ⟨⟨items, rest'⟩, hitems, hj⟩ := map_eq_ok.mp h
        cases hj
        exact unique_array.mpr (unique_of_readItems hitems)
    case h_8 =>
      split_ifs at h
      · cases h
      · obtain ⟨⟨fields, rest'⟩, hfields, hj⟩ := map_eq_ok.mp h
        cases hj
        exact unique_of_readMembers unique_nil hfields
    case h_9 => cases h
    all_goals
      split at h <;> cases h
      trivial
termination_by (s.length, 0)

theorem unique_of_readItems {depth index : Nat} {first : Bool} {s : List Char}
    {items : List Json} {rest : Rest s} (h : readItems depth index first s = .ok (items, rest)) :
    ∀ j ∈ items, j.Unique := by
  unfold readItems at h
  split at h
  · cases h
  · cases h
    exact List.forall_mem_nil _
  · rename_i t ht hnext
    split at h
    · cases h
    · rename_i item rest hitem
      obtain ⟨⟨items, rest'⟩, hitems, hj⟩ := map_eq_ok.mp h
      cases hj
      have hle : t.length ≤ s.length := ht
      have hrest : rest.val.length < s.length := Nat.lt_of_lt_of_le rest.property hle
      intro j hj
      rcases List.mem_cons.mp hj with rfl | hj
      · exact unique_of_readValue hitem
      · exact unique_of_readItems hitems j hj
termination_by (s.length, 1)
decreasing_by
  · rcases Nat.lt_or_eq_of_le hle with hlt | heq
    · exact Prod.Lex.left _ _ hlt
    · rw [heq]
      exact Prod.Lex.right _ Nat.zero_lt_one
  · exact Prod.Lex.left _ _ hrest

theorem unique_of_readMembers {depth : Nat} {first : Bool} {fields : Keyed Json} {s : List Char}
    {members : Keyed Json} {rest : Rest s} (hfields : (object fields).Unique)
    (h : readMembers depth first fields s = .ok (members, rest)) : (object members).Unique := by
  unfold readMembers at h
  split at h
  · cases h
  · cases h
    exact hfields
  · rename_i t hnext
    split at h
    · cases h
    · rename_i key afterKey hkey
      split at h
      · cases h
      · rename_i afterColon hcolon
        have hlt : afterColon.length < s.length := by
          have h1 := length_readKey hkey
          have h2 := length_readColon hcolon
          have h3 := t.property
          simp only at h1
          omega
        dsimp only at h
        split at h
        · cases h
        · rename_i value rest hvalue
          have hrest : rest.val.length < s.length := Nat.lt_trans rest.property hlt
          obtain ⟨⟨members, rest'⟩, hmembers, hj⟩ := map_eq_ok.mp h
          cases hj
          exact unique_of_readMembers (hfields.put (unique_of_readValue hvalue) key) hmembers
termination_by (s.length, 1)

end

end Json

namespace SchemaDocument

open Json

structure Unique (document : SchemaDocument) : Prop where
  types : ∀ j ∈ document.types, j.Unique
  records : ∀ j ∈ document.records, j.Unique

theorem refuseKind_ne_ok {α : Type} {expected : String} {s : List Char} {a : α} :
    refuseKind expected s ≠ .ok a := by
  intro h
  unfold refuseKind at h
  split at h
  · cases h
  · dsimp only at h
    split at h
    case h_1 | h_2 | h_3 | h_4 | h_5 | h_6 => split at h <;> cases h
    all_goals cases h

theorem refuseRepeated_ne_ok {α : Type} {name : String} {s : List Char} {a : α} :
    refuseRepeated name s ≠ .ok a := by
  intro h
  unfold refuseRepeated at h
  split at h <;> cases h

theorem unique_of_readDescriptors {s : List Char} {items : List Json} {rest : Rest s}
    (h : readDescriptors s = .ok (items, rest)) : ∀ j ∈ items, j.Unique := by
  unfold readDescriptors at h
  split at h
  · obtain ⟨⟨items', rest'⟩, hitems, heq⟩ := map_eq_ok.mp h
    cases heq
    exact unique_of_readItems hitems
  · exact absurd h refuseKind_ne_ok

theorem unique_of_readPair {s : List Char} {document : SchemaDocument}
    (h : readPair s = .ok document) : document.Unique := by
  unfold readPair at h
  split at h
  · cases h
  · cases h
    exact ⟨List.forall_mem_nil _, List.forall_mem_nil _⟩
  · split at h
    · cases h
    · rename_i types _ htypes
      split at h
      · cases h
      · cases h
        exact ⟨unique_of_readDescriptors htypes, List.forall_mem_nil _⟩
      · split at h
        · cases h
        · rename_i records _ hrecords
          obtain ⟨_, _, rfl⟩ := map_eq_ok.mp h
          exact ⟨unique_of_readDescriptors htypes, unique_of_readDescriptors hrecords⟩

/-- By induction on the text behind each member. -/
theorem unique_of_readFields {first : Bool} {types records : Option (List Json)} {s : List Char}
    {document : SchemaDocument} (htypes : ∀ j ∈ types.getD [], j.Unique)
    (hrecords : ∀ j ∈ records.getD [], j.Unique)
    (h : readFields first types records s = .ok document) : document.Unique := by
  unfold readFields at h
  split at h
  · cases h
  · cases h
    exact ⟨htypes, hrecords⟩
  · rename_i t hnext
    split at h
    · cases h
    · rename_i key afterKey hkey
      split at h
      · exact absurd h refuseRepeated_ne_ok
      · split at h
        · cases h
        · rename_i afterColon hcolon
          have hlt : afterColon.length < s.length := by
            have h1 := length_readKey hkey
            have h2 := length_readColon hcolon
            have h3 := t.property
            simp only at h1
            omega
          dsimp only at h
          split at h
          · split at h
            · cases h
            · rename_i descriptors rest hdescriptors
              have hrest : rest.val.length < s.length := Nat.lt_trans rest.property hlt
              have hunique : ∀ j ∈ (some descriptors).getD [], j.Unique :=
                unique_of_readDescriptors hdescriptors
              split at h
              · exact unique_of_readFields hunique hrecords h
              · exact unique_of_readFields htypes hunique h
          · split at h
            · cases h
            · rename_i rest hskip
              have hrest : rest.val.length < s.length := Nat.lt_trans rest.property hlt
              exact unique_of_readFields htypes hrecords h
termination_by s.length

theorem unique_of_read {text : List Char} {document : SchemaDocument}
    (h : read text = .ok document) : document.Unique := by
  unfold read at h
  split at h
  · exact unique_of_readPair h
  · exact unique_of_readFields (List.forall_mem_nil _) (List.forall_mem_nil _) h
  · exact absurd h refuseKind_ne_ok

end SchemaDocument

/-- Whatever is read has no key twice. -/
def SchemaReader.Unique (read : SchemaReader) : Prop :=
  ∀ text document, read text = .ok document → document.Unique

theorem SchemaDocument.unique_parse : SchemaReader.Unique SchemaDocument.parse := by
  intro text document h
  unfold parse at h
  cases hread : read text.toList with
  | error e =>
    rw [hread] at h
    cases h
  | ok read =>
    rw [hread] at h
    cases h
    exact unique_of_read hread

end TaggedData
