import TaggedData.Proofs.Conformance
import TaggedData.Proofs.Parts

/-!
# Lifting and plain validation

A record can also be made from the plain reading of a document. Lifting extends this: what
the record accepts plainly is lifted to the same value, and without definitions in the fields
there is nothing to lift, so that the refusals are the same as well.
-/

namespace TaggedData

/-- A definition admits nothing that was read plainly. -/
theorem ElementType.lift_of_admits {type : ElementType} {j : Json}
    (h : type.admits (.ofJson j) = true) : type.lift j = .ok (.ofJson j) := by
  cases type with
  | primitive p => rfl
  | user d => cases h.symm.trans (d.is_ofJson j)

namespace FieldType

variable {type : FieldType} {j : Json}

theorem lift_listOf_plain {element : ElementType} {items : List Json}
    (h : ∀ j ∈ items, element.lift j = .ok (.ofJson j)) :
    (listOf element).lift (.array items) = .ok (.ofJson (.array items)) := by
  have hitems : items.mapM (fun item => element.lift item) = .ok (items.map .ofJson) := by
    rw [mapM_eq_ok_iff, List.forall₂_map_right_iff, List.forall₂_same]
    exact h
  rw [Value.ofJson_array]
  exact map_eq_ok.mpr ⟨_, hitems, rfl⟩

/-- A list of a definition admits the plain list without items, and lifting leaves it as
it is. -/
theorem lift_of_admits (h : type.admits (.ofJson j) = true) : type.lift j = .ok (.ofJson j) := by
  cases type with
  | single element => exact ElementType.lift_of_admits h
  | listOf element =>
    cases j with
    | array items =>
      rw [Value.ofJson_array, admits, List.all_map, List.all_eq_true] at h
      apply lift_listOf_plain
      intro item hitem
      exact ElementType.lift_of_admits (h item hitem)
    | _ => rfl

theorem lift_of_primitive {p : Primitive} (h : type.element = .primitive p) :
    type.lift j = .ok (.ofJson j) := by
  cases type with
  | single element =>
    cases h
    rfl
  | listOf element =>
    cases h
    cases j with
    | array items => exact lift_listOf_plain fun _ _ => rfl
    | _ => rfl

end FieldType

namespace Record

variable {r : Record}

theorem lift_object_eq_of {entries : List (String × Json)} {fields : Keyed Value}
    (h : List.Forall₂ r.Lifts entries fields) :
    r.lift (.object entries) = r.of (.object fields) := by
  obtain ⟨id, name, keys, types, lensTable, inStep⟩ := r
  rw [lift, mapM_eq_ok_iff_lifts.mpr h]
  rfl

/-- Where every entry stays plain, the record sees the plain reading of the document. -/
theorem lift_eq_of_plain {document : Json}
    (h : ∀ entries, document = .object entries → ∀ entry ∈ entries,
      r.types.lift entry.1 entry.2 = .ok (.ofJson entry.2)) :
    r.lift document = r.of (.ofJson document) := by
  by_cases hobject : ∃ entries, document = .object entries
  · obtain ⟨entries, rfl⟩ := hobject
    rw [Value.ofJson_object]
    apply lift_object_eq_of
    rw [List.forall₂_map_right_iff, List.forall₂_same]
    intro entry hentry
    exact ⟨rfl, h entries rfl entry hentry⟩
  · obtain ⟨id, name, keys, types, lensTable, inStep⟩ := r
    cases document with
    | object entries => exact absurd ⟨entries, rfl⟩ hobject
    | _ => rfl

theorem lift_of_of {document : Json} (hu : document.Unique) {v : Value}
    (hof : r.of (.ofJson document) = .ok v) : r.lift document = .ok v := by
  rw [← hof]
  apply lift_eq_of_plain
  rintro entries rfl ⟨name, j⟩ hj
  rw [Value.ofJson_object, of_object_eq_ok_iff] at hof
  obtain ⟨-, haccepts, -⟩ := hof
  have hentry := (Keyed.find?_eq_some_iff (Json.unique_object.mp hu).1).mpr hj
  have hfind := (Keyed.find?_map_eq_some_iff (f := Value.ofJson)).mpr ⟨j, hentry, rfl⟩
  obtain ⟨type, htype⟩ := Keyed.find?_isSome_iff.mpr
    ((haccepts.keys name).mp (Keyed.find?_isSome_iff.mp ⟨_, hfind⟩))
  rw [FieldTable.lift_eq htype]
  exact FieldType.lift_of_admits (haccepts.admitted name type _ htype hfind)

theorem lift_eq_of_of_primitive
    (h : ∀ name type, (name, type) ∈ r.fields → ∃ p, type.element = .primitive p)
    (document : Json) : r.lift document = r.of (.ofJson document) := by
  apply lift_eq_of_plain
  rintro entries - ⟨name, j⟩ -
  cases hfind : Keyed.find? name r.fields with
  | none => exact FieldTable.lift_none hfind j
  | some type =>
    obtain ⟨p, hp⟩ := h name type (Keyed.mem_of_find? hfind)
    rw [FieldTable.lift_eq hfind]
    exact FieldType.lift_of_primitive hp

/-- A value keeps the order of its fields and a refusal carries its fault, so that both equations
compare these as well. -/
theorem lift_extends_of (r : Record) (document : Json) :
    (document.Unique → ∀ v, r.of (.ofJson document) = .ok v → r.lift document = .ok v) ∧
      ((∀ name type, (name, type) ∈ r.fields → ∃ p, type.element = .primitive p) →
        r.lift document = r.of (.ofJson document)) := by
  constructor
  · intro hu v hof
    exact lift_of_of hu hof
  · intro h
    exact lift_eq_of_of_primitive h document

/-- A team without members is accepted plainly although its members are persons. -/
theorem lift_extends_of_team :
    team.lift (.object [("members", .array [])]) = .ok (team.instanceOf [("members", .list [])]) ∧
      person.lift (.object [("name", .bool true)]) =
        .error (.shape
          (.fieldValue person "name" (.single (.primitive .string)) (.bool true))) := by
  constructor
  · apply (lift_extends_of team _).1
    · simp [Json.Unique, Json.FieldsUnique, Json.AllUnique]
    · exact of_single_iff.mpr ⟨rfl, rfl⟩
  · rw [(lift_extends_of person _).2]
    · cbv
    · intro name type htype
      cases List.mem_singleton.mp htype
      exact ⟨.string, rfl⟩

end Record
end TaggedData
