import TaggedData.Proofs.Lenses
import TaggedData.Proofs.Matching
import TaggedData.Proofs.UpperCase

/-!
# The descriptors of records

A record is described by its name, which must be its own upper-case form, and by a shape with at
least one field. An entry of the shape is a primitive type, a definition, or a list of just one of
these. A record has the fields of the shape in their order, and for each of them a type and a
lens. A name that is refused for its first letter comes with a name that is not.
-/

namespace TaggedData

/-- The types that a value stands for by itself. -/
inductive ElementType.DeclaredBy : Value → ElementType → Prop
  | primitive (p) : DeclaredBy (.primitive p) (.primitive p)
  | definition (d) : DeclaredBy (.definition d) (.user d)

inductive FieldType.DeclaredBy : Value → FieldType → Prop
  | single {v element} (declared : element.DeclaredBy v) : DeclaredBy v (.single element)
  | listOf {v element} (declared : element.DeclaredBy v) : DeclaredBy (.list [v]) (.listOf element)

theorem ElementType.ofValue?_eq_some_iff {v : Value} {element : ElementType}
    (named : ∀ d, v = .definition d → d.name ≠ "") :
    ofValue? v = some element ↔ element.DeclaredBy v := by
  constructor
  · intro h
    rw [eq_toValue h]
    cases element with
    | primitive p => exact .primitive p
    | user d => exact .definition d
  · intro h
    cases h with
    | primitive p => rfl
    | definition d =>
      simp [ofValue?, Value.definition?, Value.isType, Value.tags, named d rfl]

theorem FieldType.ofValue?_eq_some_iff {v : Value} {type : FieldType}
    (named : ∀ d, v.Part (.definition d) → d.name ≠ "") :
    ofValue? v = some type ↔ type.DeclaredBy v := by
  have hself : ∀ d, v = .definition d → d.name ≠ "" := by
    rintro d rfl
    exact named d (.refl _)
  constructor
  · intro h
    unfold ofValue? at h
    split at h
    · rename_i element
      obtain ⟨inner, hinner, rfl⟩ := Option.map_eq_some_iff.mp h
      apply DeclaredBy.listOf
      apply (ElementType.ofValue?_eq_some_iff _).mp hinner
      rintro d rfl
      exact named d (.item (List.mem_singleton_self _) (.refl _))
    · obtain ⟨inner, hinner, rfl⟩ := Option.map_eq_some_iff.mp h
      exact .single ((ElementType.ofValue?_eq_some_iff hself).mp hinner)
  · intro h
    cases h with
    | single declared =>
      have helement := (ElementType.ofValue?_eq_some_iff hself).mpr declared
      cases declared <;> simp [ofValue?, helement]
    | listOf declared =>
      have helement := (ElementType.ofValue?_eq_some_iff fun d hd =>
        named d (.item (List.mem_singleton_self _) (hd ▸ .refl _))).mpr declared
      simp [ofValue?, helement]

/-- Defining accepts no definition without a name. -/
theorem Definition.Accepted.name_ne {d : Definition} (h : d.Accepted) : d.name ≠ "" := by
  cases h with
  | union defined => exact (Union.define_wellFormed defined).name_ne
  | record unique known defined =>
    obtain ⟨_, _, -, -, hname, -⟩ := Record.define_eq_ok_iff.mp defined
    exact hname

namespace Record

/-- The field that an entry of a shape specifies. -/
structure SpecifiesField (entry : String × Value) (field : String × FieldType) : Prop where
  name : field.1 = entry.1
  name_ne : entry.1 ≠ ""
  type : field.2.DeclaredBy entry.2

/-- A shape, and the fields that its entries specify in their order. -/
inductive Shapes (fields : Keyed Value) (types : List (String × FieldType)) : Prop
  | keyed (shape) (given : Keyed.find? "shape" fields = some (.object shape))
      (nonempty : shape ≠ []) (entries : List.Forall₂ SpecifiesField shape types)

/-- What a descriptor specifies: a name that is its own upper-case form, and fields. -/
inductive Specifies : Value → String → List (String × FieldType) → Prop
  | keyed {fields name types} (named : Keyed.find? "recordName" fields = some (.string name))
      (name_ne : name ≠ "") (capital : Text.capitalize name = name) (shapes : Shapes fields types) :
      Specifies (.object fields) name types

theorem declares_iff {entry : String × Value} {field : String × FieldType}
    (named : ∀ d, entry.2.Part (.definition d) → d.name ≠ "") :
    Declares entry field ↔ SpecifiesField entry field := by
  constructor
  · rintro ⟨hname, hne, htype⟩
    exact ⟨hname, hname ▸ hne, (FieldType.ofValue?_eq_some_iff named).mp htype⟩
  · rintro ⟨hname, hne, htype⟩
    exact ⟨hname, hname ▸ hne, (FieldType.ofValue?_eq_some_iff named).mpr htype⟩

theorem forall₂_declares_iff {shape : Keyed Value} {types : List (String × FieldType)}
    (named : ∀ entry ∈ shape, ∀ d, entry.2.Part (.definition d) → d.name ≠ "") :
    List.Forall₂ Declares shape types ↔ List.Forall₂ SpecifiesField shape types := by
  induction shape generalizing types with
  | nil => simp
  | cons entry rest ih =>
    obtain ⟨hentry, hrest⟩ := List.forall_mem_cons.mp named
    simp only [List.forall₂_cons_left_iff, declares_iff hentry, ih hrest]

/-- A descriptor gives the record that it specifies, and nothing else gives one. -/
theorem define_iff_specifies {id : Nat} {d : Value} {r : Record}
    (named : ∀ e, d.Part (.definition e) → e.name ≠ "") :
    define id d = .ok r ↔ r.id = id ∧ Specifies d r.name r.fields := by
  have hshape : ∀ {fields shape}, d = .object fields →
      Keyed.find? "shape" fields = some (.object shape) →
      ∀ entry ∈ shape, ∀ e, entry.2.Part (.definition e) → e.name ≠ "" := by
    rintro fields shape rfl hshape entry hentry e hpart
    exact named e (.entry (Keyed.mem_of_find? hshape) (.entry hentry hpart))
  rw [define_eq_ok_iff]
  constructor
  · rintro ⟨fields, shape, hd, hname, hne, hcapital, hfind, hnonempty, hid, hdeclares⟩
    have htypes := (forall₂_declares_iff (hshape hd hfind)).mp hdeclares
    rw [hd]
    exact ⟨hid, .keyed hname hne hcapital (.keyed shape hfind hnonempty htypes)⟩
  · rintro ⟨hid, hspecifies⟩
    cases hspecifies with
    | keyed hname hne hcapital shapes =>
      obtain ⟨shape, hfind, hnonempty, htypes⟩ := shapes
      have hdeclares := (forall₂_declares_iff (hshape rfl hfind)).mpr htypes
      exact ⟨_, shape, rfl, hname, hne, hcapital, hfind, hnonempty, hid, hdeclares⟩

theorem descriptorName_eq_error_iff {fields : Keyed Value} {name : String} :
    descriptorName fields = .error (.record (.nameNotCapitalized name)) ↔
      Keyed.find? "recordName" fields = some (.string name) ∧ name ≠ "" ∧
        Text.capitalize name ≠ name := by
  unfold descriptorName
  split
  case h_4 text hfind => split_ifs <;> grind
  all_goals simp_all

theorem descriptorShape_ne_error {fields : Keyed Value} {name refused : String} :
    descriptorShape name fields ≠ .error (.record (.nameNotCapitalized refused)) := by
  unfold descriptorShape
  split <;> simp

theorem defineField_ne_error {name field refused : String} {shape : Keyed Value}
    {declared : Value} :
    defineField name shape field declared ≠ .error (.record (.nameNotCapitalized refused)) := by
  unfold defineField
  split_ifs
  · simp
  · simp
  · split <;> simp

theorem defineFields_ne_error {name refused : String} {whole shape : Keyed Value} :
    defineFields name whole shape ≠ .error (.record (.nameNotCapitalized refused)) := by
  induction shape with
  | nil => simp [defineFields]
  | cons entry rest ih =>
    obtain ⟨field, declared⟩ := entry
    unfold defineFields
    split
    · rename_i f hfield
      intro h
      cases h
      exact defineField_ne_error hfield
    · split
      · rename_i f hothers
        intro h
        cases h
        exact ih hothers
      · simp

theorem define_of_descriptorName {id : Nat} {fields : Keyed Value} {f : Fault}
    (h : descriptorName fields = .error f) : define id (.object fields) = .error f := by
  simp only [define, h, bind, Except.bind]

theorem define_ne_error {id : Nat} {fields : Keyed Value} {name refused : String}
    (hname : descriptorName fields = .ok name) :
    define id (.object fields) ≠ .error (.record (.nameNotCapitalized refused)) := by
  intro h
  simp only [define, hname, bind, Except.bind] at h
  split at h
  · rename_i hshape
    cases h
    exact descriptorShape_ne_error hshape
  · split at h
    · rename_i htypes
      cases h
      exact defineFields_ne_error htypes
    · cases h

/-- The letter is reported wherever there is a name, whatever is wrong behind it. -/
theorem define_eq_error_iff {id : Nat} {d : Value} {name : String} :
    define id d = .error (.record (.nameNotCapitalized name)) ↔ ∃ fields, d = .object fields ∧
      Keyed.find? "recordName" fields = some (.string name) ∧ name ≠ "" ∧
      Text.capitalize name ≠ name := by
  constructor
  · intro h
    obtain ⟨fields, rfl⟩ : ∃ fields, d = .object fields := by
      cases d with
      | object fields => exact ⟨fields, rfl⟩
      | _ => cases h
    refine ⟨fields, rfl, descriptorName_eq_error_iff.mp ?_⟩
    cases hname : descriptorName fields with
    | error f =>
      rw [define_of_descriptorName hname] at h
      cases h
      rfl
    | ok accepted => exact absurd h (define_ne_error hname)
  · rintro ⟨fields, rfl, h⟩
    exact define_of_descriptorName (descriptorName_eq_error_iff.mpr h)

def renamed (name : String) (fields : Keyed Value) : Keyed Value :=
  Keyed.put "recordName" (.string name) fields

/-- A name is no definition. -/
theorem named_renamed {name : String} {fields : Keyed Value}
    (named : ∀ e, (Value.object fields).Part (.definition e) → e.name ≠ "") (e : Definition)
    (h : (Value.object (renamed name fields)).Part (.definition e)) : e.name ≠ "" := by
  cases h with
  | entry hmem hpart =>
    rcases Keyed.mem_of_mem_put hmem with hname | hmem
    · cases hname
      cases hpart
    · exact named e (.entry hmem hpart)

theorem shapes_renamed_iff {name : String} {fields : Keyed Value}
    {types : List (String × FieldType)} :
    Shapes (renamed name fields) types ↔ Shapes fields types := by
  have hfind : Keyed.find? "shape" (renamed name fields) = Keyed.find? "shape" fields :=
    Keyed.find?_put_of_ne (by decide) _ _
  constructor
  · rintro ⟨shape, given, nonempty, declares⟩
    exact ⟨shape, hfind ▸ given, nonempty, declares⟩
  · rintro ⟨shape, given, nonempty, declares⟩
    exact ⟨shape, hfind.trans given, nonempty, declares⟩

/-- The name in upper case is accepted, and what is left to be wrong is the shape. -/
theorem descriptorName_renamed {name : String} {fields : Keyed Value} (h : name ≠ "") :
    descriptorName (renamed (Text.capitalize name) fields) = .ok (Text.capitalize name) :=
  descriptorName_eq_ok_iff.mpr
    ⟨Keyed.find?_put_self .., Text.capitalize_ne_empty h, Text.capitalize_capitalize name⟩

/-- With its name in upper case, the descriptor is accepted if the shape is right. -/
theorem define_renamed_iff {id : Nat} {name : String} {fields : Keyed Value} {r : Record}
    (named : ∀ e, (Value.object fields).Part (.definition e) → e.name ≠ "") (h : name ≠ "") :
    define id (.object (renamed (Text.capitalize name) fields)) = .ok r ↔
      r.id = id ∧ r.name = Text.capitalize name ∧ Shapes fields r.fields := by
  have hfind : Keyed.find? "recordName" (renamed (Text.capitalize name) fields) =
      some (.string (Text.capitalize name)) :=
    Keyed.find?_put_self ..
  rw [define_iff_specifies (named_renamed named)]
  constructor
  · rintro ⟨hid, hspecifies⟩
    cases hspecifies with
    | keyed hname _ _ shapes =>
      rw [hfind, Option.some.injEq, Value.string.injEq] at hname
      exact ⟨hid, hname.symm, shapes_renamed_iff.mp shapes⟩
  · rintro ⟨hid, hname, shapes⟩
    rw [hname]
    exact ⟨hid, .keyed hfind (Text.capitalize_ne_empty h) (Text.capitalize_capitalize name)
      (shapes_renamed_iff.mpr shapes)⟩

/-- The descriptors that are accepted, what they give, and the way out where the first letter of
the name is wrong. No accepted definition is without a name (`Definition.Accepted.name_ne`). -/
theorem description_law (id : Nat) (d : Value)
    (named : ∀ e, d.Part (.definition e) → e.name ≠ "") :
    ((∃ r, define id d = .ok r) ↔ ∃ name types, Specifies d name types) ∧
    (∀ r, define id d = .ok r → Specifies d r.name r.fields ∧
      (∀ field, (∃ type, r.fieldType? field = some type) ↔ field ∈ Keyed.keys r.fields) ∧
      (d.Unique → ∀ field type, r.fieldType? field = some type ↔ (field, type) ∈ r.fields) ∧
      ∀ field l, r.lens? field = some l ↔
        field ∈ Keyed.keys r.fields ∧ l = ⟨r.name, field⟩) ∧
    (∀ name, define id d = .error (.record (.nameNotCapitalized name)) ↔
      ∃ fields, d = .object fields ∧ Keyed.find? "recordName" fields = some (.string name) ∧
        name ≠ "" ∧ Text.capitalize name ≠ name) ∧
    ∀ name fields, d = .object fields →
      define id d = .error (.record (.nameNotCapitalized name)) →
      (Fault.record (.nameNotCapitalized name)).message = "Record: recordName " ++ name ++
        " must start with an upper-case letter, did you mean " ++ Text.capitalize name ++ "?" ∧
      descriptorName (renamed (Text.capitalize name) fields) = .ok (Text.capitalize name) ∧
      ∀ r, define id (.object (renamed (Text.capitalize name) fields)) = .ok r ↔
        r.id = id ∧ r.name = Text.capitalize name ∧ Shapes fields r.fields := by
  refine ⟨⟨?_, ?_⟩, ?_, fun name => define_eq_error_iff, ?_⟩
  · rintro ⟨r, hr⟩
    obtain ⟨-, hspecifies⟩ := (define_iff_specifies named).mp hr
    exact ⟨r.name, r.fields, hspecifies⟩
  · rintro ⟨name, types, hspecifies⟩
    rw [← fields_ofTypes id name types] at hspecifies
    exact ⟨.ofTypes id name types, (define_iff_specifies named).mpr ⟨rfl, hspecifies⟩⟩
  · intro r hr
    obtain ⟨-, hspecifies⟩ := (define_iff_specifies named).mp hr
    refine ⟨hspecifies, fun field => Keyed.find?_isSome_iff, ?_, fun field l => lens?_eq_some_iff⟩
    intro hunique field type
    exact Keyed.find?_eq_some_iff (define_distinct hr hunique).unique
  · rintro name fields rfl hrefused
    obtain ⟨_, -, -, hne, -⟩ := define_eq_error_iff.mp hrefused
    exact ⟨rfl, descriptorName_renamed hne, fun r => define_renamed_iff named hne⟩

/-- A shape with a list of values of a union. -/
def spanShape : Keyed Value :=
  [("width", .primitive .number), ("marks", .list [.definition (.union Union.maybe)])]

theorem description_law_span :
    define 1 (describe "ßpan" spanShape) = .error (.record (.nameNotCapitalized "ßpan")) ∧
    ∃ r, define 1 (describe "SSpan" spanShape) = .ok r ∧
      r.fields = [("width", .single (.primitive .number)),
        ("marks", .listOf (.user (.union Union.maybe)))] ∧
      r.lens? "marks" = some ⟨"SSpan", "marks"⟩ := by
  have hnamed : ∀ name e, (describe name spanShape).Part (.definition e) → e.name ≠ "" := by
    intro name e hpart
    have he : e = .union Union.maybe := by
      simpa [describe, spanShape] using hpart
    rw [he]
    exact (Definition.Accepted.union Union.define_maybe).name_ne
  obtain ⟨-, -, hrefused, hrenamed⟩ := description_law 1 (describe "ßpan" spanShape) (hnamed "ßpan")
  have hcapital : Text.capitalize "ßpan" = "SSpan" := by decide +kernel
  have hlower : define 1 (describe "ßpan" spanShape) =
      .error (.record (.nameNotCapitalized "ßpan")) := by
    apply (hrefused "ßpan").mpr
    exact ⟨_, rfl, rfl, by decide, by rw [hcapital]; decide⟩
  obtain ⟨-, -, hdefine⟩ := hrenamed "ßpan" _ rfl hlower
  rw [hcapital] at hdefine
  have hupper := (hdefine (.ofTypes 1 "SSpan" [("width", .single (.primitive .number)),
      ("marks", .listOf (.user (.union Union.maybe)))])).mpr
    ⟨rfl, rfl, .keyed spanShape rfl (List.cons_ne_nil _ _)
      (.cons ⟨rfl, by decide, .single (.primitive _)⟩
        (.cons ⟨rfl, by decide, .listOf (.definition _)⟩ .nil))⟩
  obtain ⟨-, hfields, -⟩ := description_law 1 (describe "SSpan" spanShape) (hnamed "SSpan")
  obtain ⟨-, -, -, hlens⟩ := hfields _ hupper
  exact ⟨hlower, _, hupper, rfl, (hlens "marks" _).mpr ⟨by decide, rfl⟩⟩

end Record
end TaggedData
