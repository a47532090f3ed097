import TaggedData.Proofs.Basic
import TaggedData.Record.Validation

/-!
# Accepted values

Which keyed structures become values of a record, said without the order in which the
checks are made: those with the keys of the record and a value of the declared type under
each of them. The value of the record holds the structure as it is.
-/

namespace TaggedData
namespace Record

/-- The keys are those of the record, and every value is of the type of its field. -/
structure Accepts (r : Record) (fields : Keyed Value) : Prop where
  keys : ∀ name, name ∈ Keyed.keys fields ↔ name ∈ Keyed.keys r.fields
  admitted : ∀ name type v, r.fieldType? name = some type →
    Keyed.find? name fields = some v → type.admits v = true

def instanceOf (r : Record) (fields : Keyed Value) : Value :=
  .tagged r.name r.name .record (.object fields)

theorem checkFields_eq_ok_iff {r : Record} {fields : Keyed Value} {names : List String} :
    r.checkFields fields names = .ok () ↔ ∀ name ∈ names, ∀ type v,
      r.fieldType? name = some type → Keyed.find? name fields = some v → type.admits v = true := by
  induction names with
  | nil => simp [checkFields]
  | cons name rest ih =>
    rw [checkFields, List.forall_mem_cons]
    split
    · rename_i type v htype hv
      split_ifs with hadmits
      · rw [ih]
        refine ⟨fun h => ⟨?_, h⟩, And.right⟩
        intro type' v' htype' hv'
        rw [htype] at htype'
        rw [hv] at hv'
        cases htype'
        cases hv'
        exact hadmits
      · simp only [false_iff]
        exact fun h => hadmits (h.1 type v htype hv)
    · rename_i hnone
      rw [ih]
      exact ⟨fun h => ⟨fun type v htype hv => absurd hv (hnone type v htype), h⟩, And.right⟩

/-- Superfluous keys go before missing ones, and these before the values. -/
theorem of_object_eq (r : Record) {fields : Keyed Value} (hne : fields ≠ []) :
    r.of (.object fields) =
      if Names.missingFrom (Keyed.keys r.fields) (Keyed.keys fields) ≠ [] then
        .error (.shape (.unexpectedFields r
          (Names.missingFrom (Keyed.keys r.fields) (Keyed.keys fields))))
      else if Names.missingFrom (Keyed.keys fields) (Keyed.keys r.fields) ≠ [] then
        .error (.shape (.missingFields r
          (Names.missingFrom (Keyed.keys fields) (Keyed.keys r.fields))))
      else
        (r.checkFields fields (Names.sorted (Keyed.keys r.fields))).map
          fun _ => r.instanceOf fields := by
  obtain ⟨first, rest, rfl⟩ := List.exists_cons_of_ne_nil hne
  simp only [of, Bool.not_eq_true', List.isEmpty_eq_false_iff]
  split_ifs
  · rfl
  · rfl
  · cases r.checkFields (first :: rest) (Names.sorted (Keyed.keys r.fields)) <;> rfl

theorem of_object_eq_ok_iff {r : Record} {fields : Keyed Value} {v : Value} :
    r.of (.object fields) = .ok v ↔ fields ≠ [] ∧ r.Accepts fields ∧ v = r.instanceOf fields := by
  by_cases hne : fields = []
  · simp [hne, of]
  rw [of_object_eq r hne]
  split_ifs with hunexpected hmissing
  · refine ⟨nofun, ?_⟩
    rintro ⟨-, haccepts, -⟩
    exact absurd (Names.missingFrom_eq_nil_iff.mpr fun name => (haccepts.keys name).mp) hunexpected
  · refine ⟨nofun, ?_⟩
    rintro ⟨-, haccepts, -⟩
    exact absurd (Names.missingFrom_eq_nil_iff.mpr fun name => (haccepts.keys name).mpr) hmissing
  · rw [not_not, Names.missingFrom_eq_nil_iff] at hunexpected hmissing
    rw [map_eq_ok]
    constructor
    · rintro ⟨_, hcheck, rfl⟩
      refine ⟨hne, ⟨fun name => ⟨hunexpected name, hmissing name⟩, ?_⟩, rfl⟩
      intro name type v htype
      refine checkFields_eq_ok_iff.mp hcheck name (Names.mem_sorted.mpr ?_) type v htype
      exact Keyed.find?_isSome_iff.mp ⟨type, htype⟩
    · rintro ⟨-, haccepts, rfl⟩
      exact ⟨(), checkFields_eq_ok_iff.mpr fun name _ => haccepts.admitted name, rfl⟩

/-- A record with one field accepts the values of that field. -/
theorem of_single_iff {id : Nat} {name field : String} {type : FieldType} {v w : Value} :
    of (.ofTypes id name [(field, type)]) (.object [(field, v)]) = .ok w ↔
      type.admits v = true ∧ w = instanceOf (.ofTypes id name [(field, type)]) [(field, v)] := by
  have haccepts :
      Accepts (.ofTypes id name [(field, type)]) [(field, v)] ↔ type.admits v = true := by
    constructor
    · intro h
      exact h.admitted field type v (by simp [fieldType?, Keyed.find?]) (by simp [Keyed.find?])
    · intro hadmits
      refine ⟨fun other => by simp, fun other type' w htype hw => ?_⟩
      simp only [fieldType?, fields_ofTypes, Keyed.find?] at htype hw
      split_ifs at htype hw
      cases htype
      cases hw
      exact hadmits
  rw [of_object_eq_ok_iff, haccepts]
  exact ⟨And.right, fun h => ⟨List.cons_ne_nil _ _, h⟩⟩

theorem of_eq_ok_iff {r : Record} {x v : Value} :
    r.of x = .ok v ↔ ∃ fields, x = .object fields ∧ fields ≠ [] ∧ r.Accepts fields ∧
      v = r.instanceOf fields := by
  cases x with
  | object fields => simp [of_object_eq_ok_iff]
  | _ => simp [of]

end Record
end TaggedData
