import TaggedData.Proofs.Conformance
import TaggedData.Proofs.NameOrder

/-!
# Exact blame

What a refusal reports is the first fault there is: all superfluous keys, or else all missing
keys, or else the first field by name that holds a value of another type. In a list the first
item of another type is reported with its place. That item is looked for after the list was
found wanting as a whole, and it is always found.
-/

namespace TaggedData
namespace Record

variable {r : Record} {fields : Keyed Value}

theorem firstMisfit?_eq_none_iff {type : ElementType} {start : Nat} {items : List Value} :
    firstMisfit? type start items = none ↔ ∀ item ∈ items, type.admits item = true := by
  induction items generalizing start with
  | nil => simp [firstMisfit?]
  | cons item rest ih => cases h : type.admits item <;> simp [firstMisfit?, h, ih]

/-- The item that is found comes after items of the type only. -/
theorem exists_split_of_firstMisfit? {type : ElementType} {start index : Nat} {items : List Value}
    {item : Value} (h : firstMisfit? type start items = some (index, item)) :
    ∃ before after, items = before ++ item :: after ∧ index = start + before.length ∧
      (∀ w ∈ before, type.admits w = true) ∧ type.admits item = false := by
  induction items generalizing start with
  | nil => simp [firstMisfit?] at h
  | cons first rest ih =>
    cases hfirst : type.admits first with
    | false =>
      obtain ⟨rfl, rfl⟩ : start = index ∧ first = item := by simpa [firstMisfit?, hfirst] using h
      exact ⟨[], rest, rfl, rfl, by simp, hfirst⟩
    | true =>
      have hrest : firstMisfit? type (start + 1) rest = some (index, item) := by
        simpa [firstMisfit?, hfirst] using h
      obtain ⟨before, after, rfl, rfl, hbefore, hitem⟩ := ih hrest
      refine ⟨first :: before, after, rfl, ?_, ?_, hitem⟩
      · rw [List.length_cons]
        omega
      · intro w hw
        rcases List.mem_cons.mp hw with rfl | hw
        · exact hfirst
        · exact hbefore w hw

/-- In a list that was refused the search for an item ends at one. -/
theorem misfit_cases (name : String) {type : FieldType} {v : Value} (refused : type.admits v = false) :
    (∀ element items, type = .listOf element → v ≠ .list items) ∧
        r.misfit name type v = .fieldValue r name type v ∨
      ∃ element before item after, type = .listOf element ∧ v = .list (before ++ item :: after) ∧
        (∀ w ∈ before, element.admits w = true) ∧ element.admits item = false ∧
        r.misfit name type v = .elementValue r name element v before.length item := by
  by_cases hlist : ∃ element items, type = .listOf element ∧ v = .list items
  · obtain ⟨element, items, rfl, rfl⟩ := hlist
    cases hfirst : firstMisfit? element 0 items with
    | none =>
      have hall : ∀ item ∈ items, element.admits item = true := firstMisfit?_eq_none_iff.mp hfirst
      have hadmits : (FieldType.listOf element).admits (.list items) = true :=
        List.all_eq_true.mpr hall
      rw [hadmits] at refused
      cases refused
    | some found =>
      obtain ⟨index, item⟩ := found
      have hmisfit : r.misfit name (.listOf element) (.list items) =
          .elementValue r name element (.list items) index item := by
        simp only [misfit, hfirst]
      obtain ⟨before, after, rfl, rfl, hbefore, hitem⟩ := exists_split_of_firstMisfit? hfirst
      rw [Nat.zero_add] at hmisfit
      exact .inr ⟨element, before, item, after, rfl, rfl, hbefore, hitem, hmisfit⟩
  · refine .inl ⟨?_, ?_⟩
    · rintro element items rfl rfl
      exact hlist ⟨element, items, rfl, rfl⟩
    · unfold misfit
      split
      · exact absurd ⟨_, _, rfl, rfl⟩ hlist
      · rfl

/-- The field of a name holds a value of its type. -/
def AdmittedAt (r : Record) (fields : Keyed Value) (name : String) : Prop :=
  ∀ type v, r.fieldType? name = some type → Keyed.find? name fields = some v →
    type.admits v = true

/-- The field at which the check ends comes after admitted fields only. -/
theorem exists_split_of_checkFields {names : List String} {f : Fault}
    (h : r.checkFields fields names = .error f) :
    ∃ before name after type v, names = before ++ name :: after ∧
      (∀ earlier ∈ before, r.AdmittedAt fields earlier) ∧ r.fieldType? name = some type ∧
      Keyed.find? name fields = some v ∧ type.admits v = false ∧
      f = .shape (r.misfit name type v) := by
  induction names with
  | nil => cases h
  | cons first rest ih =>
    by_cases hfirst : r.AdmittedAt fields first
    · have hrest : r.checkFields fields rest = .error f := by
        rw [checkFields] at h
        split at h
        · rename_i type v htype hv
          rwa [if_pos (hfirst type v htype hv)] at h
        · exact h
      obtain ⟨before, name, after, type, v, rfl, hbefore, hfound⟩ := ih hrest
      refine ⟨first :: before, name, after, type, v, rfl, ?_, hfound⟩
      intro earlier hearlier
      rcases List.mem_cons.mp hearlier with rfl | hearlier
      · exact hfirst
      · exact hbefore earlier hearlier
    · simp only [AdmittedAt, not_forall] at hfirst
      obtain ⟨type, v, htype, hv, hadmits⟩ := hfirst
      have hadmits : type.admits v = false := Bool.eq_false_iff.mpr hadmits
      have hf : f = .shape (r.misfit first type v) := by
        simpa [checkFields, htype, hv, hadmits, eq_comm] using h
      exact ⟨[], first, rest, type, v, rfl, by simp, htype, hv, hadmits, hf⟩

/-- A fault of a keyed structure, and how it is written. -/
inductive Blames (r : Record) (fields : Keyed Value) : ShapeFault → String → Prop
  /-- All the keys that the record does not have, whatever else is wrong. -/
  | unexpected {names : List String} (nonempty : names ≠ []) (ascending : names.Pairwise (· < ·))
      (exactly : ∀ name, name ∈ names ↔ name ∈ Keyed.keys fields ∧ name ∉ Keyed.keys r.fields) :
      Blames r fields (.unexpectedFields r names)
        (r.name ++ ".of: unexpected fields " ++ Names.braceList names ++ " for " ++ r.signature)
  /-- All the keys that are missing, if there are no superfluous ones. -/
  | missing {names : List String} (nonempty : names ≠ []) (ascending : names.Pairwise (· < ·))
      (declared : ∀ name ∈ Keyed.keys fields, name ∈ Keyed.keys r.fields)
      (exactly : ∀ name, name ∈ names ↔ name ∈ Keyed.keys r.fields ∧ name ∉ Keyed.keys fields) :
      Blames r fields (.missingFields r names)
        (r.name ++ ".of: missing fields " ++ Names.braceList names ++ " for " ++ r.signature)
  /-- The least field with a value of another type. A list in a field of lists is not
  reported like this. -/
  | field {name : String} {type : FieldType} {v : Value}
      (keys : ∀ name, name ∈ Keyed.keys fields ↔ name ∈ Keyed.keys r.fields)
      (declared : r.fieldType? name = some type) (given : Keyed.find? name fields = some v)
      (refused : type.admits v = false) (least : ∀ lesser < name, r.AdmittedAt fields lesser)
      (notList : ∀ element items, type = .listOf element → v ≠ .list items) :
      Blames r fields (.fieldValue r name type v)
        (r.name ++ ".of: field " ++ name ++ " expected " ++ type.name ++ " but got " ++
          v.described ++ ", in " ++ r.signature)
  /-- The first item of another type, in the least field with such a list. -/
  | element {name : String} {type : ElementType} {before after : List Value} {item : Value}
      (keys : ∀ name, name ∈ Keyed.keys fields ↔ name ∈ Keyed.keys r.fields)
      (declared : r.fieldType? name = some (.listOf type))
      (given : Keyed.find? name fields = some (.list (before ++ item :: after)))
      (least : ∀ lesser < name, r.AdmittedAt fields lesser)
      (earlier : ∀ w ∈ before, type.admits w = true) (refused : type.admits item = false) :
      Blames r fields
        (.elementValue r name type (.list (before ++ item :: after)) before.length item)
        (r.name ++ ".of: field " ++ name ++ " expected " ++ (FieldType.listOf type).name ++
          " but got " ++ Value.described (.list (before ++ item :: after)) ++ "; element " ++
          toString before.length ++ " (" ++ item.described ++ ") is not a " ++ type.name ++
          ", in " ++ r.signature)

/-- A team of a person and two things that are none. -/
def lineup : List Value :=
  [person.instanceOf [("name", .string "Ann")], .string "Bob", .null]

def lineupFault : ShapeFault :=
  .elementValue team "members" (.user (.record person)) (.list lineup) 1 (.string "Bob")

end Record
end TaggedData
