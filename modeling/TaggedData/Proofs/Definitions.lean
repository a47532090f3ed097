import TaggedData.Proofs.Basic
import TaggedData.Proofs.Parts
import TaggedData.Record.Descriptor
import TaggedData.Union.Descriptor

/-!
# What defining establishes

A definition that was accepted is well formed: the labels of a union differ, its
constructors carry its name, and there is at least one; the fields of a record differ and
there is at least one. The definitions in the field types of a record stood in its shape.
-/

namespace TaggedData

/-- What a field holds one of, or a list of. -/
def FieldType.element : FieldType → ElementType
  | .single element => element
  | .listOf element => element

theorem ElementType.eq_toValue {v : Value} {element : ElementType}
    (h : ofValue? v = some element) : v = element.toValue := by
  cases v with
  | primitive p =>
    cases h
    rfl
  | definition d =>
    simp only [ofValue?, Value.definition?, Option.map_eq_some_iff] at h
    obtain ⟨e, he, rfl⟩ := h
    split_ifs at he
    cases he
    rfl
  | _ => cases h

theorem FieldType.eq_toValue {v : Value} {type : FieldType} (h : ofValue? v = some type) :
    v = type.toValue := by
  unfold ofValue? at h
  split at h
  · obtain ⟨element, helement, rfl⟩ := Option.map_eq_some_iff.mp h
    rw [ElementType.eq_toValue helement, toValue]
  · obtain ⟨element, helement, rfl⟩ := Option.map_eq_some_iff.mp h
    exact ElementType.eq_toValue helement

/-- A definition in a field type stood in the value that declared the type. -/
theorem FieldType.part_of_ofValue? {v : Value} {type : FieldType} {d : Definition}
    (h : ofValue? v = some type) (hd : type.element = .user d) : v.Part (.definition d) := by
  rw [eq_toValue h]
  cases type with
  | single element =>
    cases hd
    exact .refl _
  | listOf element =>
    cases hd
    exact .item (List.mem_singleton_self _) (.refl _)

namespace Union

structure WellFormed (u : Union) : Prop where
  name_ne : u.name ≠ ""
  constructors_ne : u.constructors ≠ []
  labels_nodup : u.labels.Nodup
  typeName_eq : ∀ c ∈ u.constructors, c.typeName = u.name

/-- What an entry gives: a label and an arity. The rest comes from the union. -/
structure Gives (id : Nat) (name : String) (entry : Value) (c : Constructor) : Prop where
  label : entryLabel? entry = some c.label
  arity : arity? (entryArity entry) = some c.arity
  typeId : c.typeId = id
  typeName : c.typeName = name

theorem defineConstructors_eq_ok_iff {id : Nat} {name : String} {index : Nat} {seen : List String}
    {entries : List Value} {constructors : List Constructor} :
    defineConstructors id name index seen entries = .ok constructors ↔
      List.Forall₂ (Gives id name) entries constructors ∧
        (constructors.map (·.label)).Nodup ∧ ∀ c ∈ constructors, c.label ∉ seen := by
  induction entries generalizing index seen constructors with
  | nil => cases constructors <;> simp [defineConstructors]
  | cons entry rest ih =>
    constructor
    · intro h
      unfold defineConstructors at h
      split at h
      · cases h
      · rename_i label hlabel
        split at h
        · cases h
        · rename_i arity harity
          split_ifs at h with hseen
          split at h
          · cases h
          · rename_i others hothers
            cases h
            obtain ⟨hgives, hnodup, hfresh⟩ := ih.mp hothers
            refine ⟨.cons ⟨hlabel, harity, rfl, rfl⟩ hgives, ?_, ?_⟩
            · rw [List.map_cons, List.nodup_cons]
              refine ⟨fun hl => ?_, hnodup⟩
              obtain ⟨c, hc, hlabel⟩ := List.mem_map.mp hl
              exact hfresh c hc (by simp [hlabel])
            · intro c hc
              rcases List.mem_cons.mp hc with rfl | hc
              · exact hseen
              · exact fun hs => hfresh c hc (List.mem_cons_of_mem _ hs)
    · rintro ⟨hgives, hnodup, hfresh⟩
      obtain ⟨c, others, hc, hothers, rfl⟩ := List.forall₂_cons_left_iff.mp hgives
      obtain ⟨hdistinct, hnodup⟩ := List.nodup_cons.mp (List.map_cons ▸ hnodup)
      obtain ⟨hseen, hfresh⟩ := List.forall_mem_cons.mp hfresh
      obtain ⟨rfl, rfl⟩ := And.intro hc.typeId hc.typeName
      have hrest : defineConstructors c.typeId c.typeName (index + 1) (c.label :: seen) rest =
          .ok others := by
        refine ih.mpr ⟨hothers, hnodup, fun d hd hmem => ?_⟩
        rcases List.mem_cons.mp hmem with heq | hmem
        · exact hdistinct (heq ▸ List.mem_map_of_mem hd)
        · exact hfresh d hd hmem
      unfold defineConstructors
      simp [hc.label, hc.arity, hseen, hrest]

theorem descriptorName_eq_ok_iff {fields : Keyed Value} {name : String} :
    descriptorName fields = .ok name ↔
      Keyed.find? "typeName" fields = some (.string name) ∧ name ≠ "" := by
  unfold descriptorName
  split
  case h_4 text hfind => split_ifs <;> grind
  all_goals simp_all

theorem constructorEntries_eq_ok_iff {name : String} {fields : Keyed Value}
    {entries : List Value} : constructorEntries name fields = .ok entries ↔
      Keyed.find? "constructors" fields = some (.list entries) ∧ entries ≠ [] := by
  unfold constructorEntries
  split <;> grind

theorem define_eq_ok_iff {id : Nat} {descriptor : Value} {u : Union} :
    define id descriptor = .ok u ↔ ∃ fields entries, descriptor = .object fields ∧
      Keyed.find? "typeName" fields = some (.string u.name) ∧ u.name ≠ "" ∧
      Keyed.find? "constructors" fields = some (.list entries) ∧ entries ≠ [] ∧
      u.id = id ∧ List.Forall₂ (Gives id u.name) entries u.constructors ∧ u.labels.Nodup := by
  constructor
  · intro h
    unfold define at h
    split at h
    any_goals cases h
    rename_i fields
    simp only [bind_eq_ok] at h
    obtain ⟨name, hname, entries, hentries, constructors, hconstructors, h⟩ := h
    cases h
    obtain ⟨hfind, hne⟩ := descriptorName_eq_ok_iff.mp hname
    obtain ⟨hlist, hentries⟩ := constructorEntries_eq_ok_iff.mp hentries
    obtain ⟨hgives, hnodup, -⟩ := defineConstructors_eq_ok_iff.mp hconstructors
    exact ⟨fields, entries, rfl, hfind, hne, hlist, hentries, rfl, hgives, hnodup⟩
  · rintro ⟨fields, entries, rfl, hfind, hne, hlist, hentries, rfl, hgives, hnodup⟩
    have hname : descriptorName fields = .ok u.name :=
      descriptorName_eq_ok_iff.mpr ⟨hfind, hne⟩
    have hentries : constructorEntries u.name fields = .ok entries :=
      constructorEntries_eq_ok_iff.mpr ⟨hlist, hentries⟩
    have hconstructors : defineConstructors u.id u.name 0 [] entries = .ok u.constructors :=
      defineConstructors_eq_ok_iff.mpr ⟨hgives, hnodup, fun _ _ => List.not_mem_nil⟩
    simp only [define, bind_eq_ok]
    exact ⟨u.name, hname, entries, hentries, u.constructors, hconstructors, rfl⟩

/-- A descriptor that is made of a name and of labels with arities describes just these. -/
theorem define_describe {id : Nat} {name : String} {entries : List (String × Nat)}
    (hname : name ≠ "") (hne : entries ≠ [])
    (hentries : ∀ entry ∈ entries, entry.1 ≠ "" ∧ arity? (.number (.ofNat entry.2)) = some entry.2)
    (hnodup : (entries.map Prod.fst).Nodup) :
    define id (describe name entries) =
      .ok ⟨id, name, entries.map fun (label, arity) => ⟨id, name, label, arity⟩⟩ := by
  refine define_eq_ok_iff.mpr ⟨_, _, rfl, rfl, hname, rfl, by simpa using hne, rfl, ?_, ?_⟩
  · rw [List.forall₂_map_left_iff, List.forall₂_map_right_iff, List.forall₂_same]
    rintro ⟨label, arity⟩ hentry
    obtain ⟨hlabel, harity⟩ := hentries _ hentry
    exact ⟨by simp [entryLabel?, Keyed.find?, hlabel], harity, rfl, rfl⟩
  · simpa [labels, Function.comp_def] using hnodup

theorem define_wellFormed {id : Nat} {descriptor : Value} {u : Union}
    (h : define id descriptor = .ok u) : u.WellFormed := by
  obtain ⟨fields, entries, -, -, hname, -, hentries, -, hgives, hnodup⟩ := define_eq_ok_iff.mp h
  refine ⟨hname, ?_, hnodup, fun c hc => ?_⟩
  · intro hnil
    rw [hnil] at hgives
    exact hentries (List.forall₂_nil_right_iff.mp hgives)
  · obtain ⟨entry, -, hentry⟩ := exists_of_forall₂ hgives hc
    exact hentry.typeName

variable {u : Union} {label : String} {c : Constructor}

theorem mem_labels : label ∈ u.labels ↔ ∃ c ∈ u.constructors, c.label = label :=
  List.mem_map

theorem WellFormed.labels_ne (h : u.WellFormed) : u.labels ≠ [] :=
  fun hl => h.constructors_ne (List.map_eq_nil_iff.mp hl)

theorem mem_of_find? (h : u.find? label = some c) : c ∈ u.constructors ∧ c.label = label :=
  ⟨List.mem_of_find?_eq_some h, by simpa using List.find?_some h⟩

/-- Labels differ, so a constructor is found by its own label. -/
theorem WellFormed.find?_label (h : u.WellFormed) (hc : c ∈ u.constructors) :
    u.find? c.label = some c := by
  cases hf : u.find? c.label with
  | none => simpa using List.find?_eq_none.mp hf c hc
  | some d =>
    obtain ⟨hd, hlabel⟩ := mem_of_find? hf
    rw [List.inj_on_of_nodup_map h.labels_nodup hd hc hlabel]

theorem find?_isSome_iff : (u.find? label).isSome ↔ label ∈ u.labels := by
  simp [find?, labels, List.find?_isSome]

end Union

namespace Record

structure Distinct (r : Record) : Prop where
  fields_ne : r.fields ≠ []
  unique : Keyed.Unique r.fields

structure Declares (entry : String × Value) (field : String × FieldType) : Prop where
  name : field.1 = entry.1
  name_ne : field.1 ≠ ""
  type : FieldType.ofValue? entry.2 = some field.2

theorem defineField_eq_ok_iff {name field : String} {shape : Keyed Value} {declared : Value}
    {type : FieldType} : defineField name shape field declared = .ok type ↔
      field ≠ "" ∧ FieldType.ofValue? declared = some type := by
  unfold defineField
  split_ifs with hfield habsent
  · simp [hfield]
  · cases declared with
    | nil | null => simp [FieldType.ofValue?, ElementType.ofValue?, Value.definition?]
    | _ => cases habsent
  · split <;> simp_all

theorem defineFields_eq_ok_iff {name : String} {whole shape : Keyed Value}
    {types : List (String × FieldType)} :
    defineFields name whole shape = .ok types ↔ List.Forall₂ Declares shape types := by
  induction shape generalizing types with
  | nil => cases types <;> simp [defineFields]
  | cons entry rest ih =>
    obtain ⟨field, declared⟩ := entry
    constructor
    · intro h
      unfold defineFields at h
      split at h
      · cases h
      · rename_i type hfield
        split at h
        · cases h
        · rename_i others hothers
          cases h
          obtain ⟨hne, htype⟩ := defineField_eq_ok_iff.mp hfield
          exact .cons ⟨rfl, hne, htype⟩ (ih.mp hothers)
    · intro h
      obtain ⟨⟨field', type⟩, others, ⟨rfl, hne, htype⟩, hothers, rfl⟩ :=
        List.forall₂_cons_left_iff.mp h
      have hfield : defineField name whole field' declared = .ok type :=
        defineField_eq_ok_iff.mpr ⟨hne, htype⟩
      simp [defineFields, hfield, ih.mpr hothers]

theorem descriptorName_eq_ok_iff {fields : Keyed Value} {name : String} :
    descriptorName fields = .ok name ↔ Keyed.find? "recordName" fields = some (.string name) ∧
      name ≠ "" ∧ Text.capitalize name = name := by
  unfold descriptorName
  split
  case h_4 text hfind => split_ifs <;> grind
  all_goals simp_all

theorem descriptorShape_eq_ok_iff {name : String} {fields shape : Keyed Value} :
    descriptorShape name fields = .ok shape ↔
      Keyed.find? "shape" fields = some (.object shape) ∧ shape ≠ [] := by
  unfold descriptorShape
  split <;> grind

theorem define_eq_ok_iff {id : Nat} {descriptor : Value} {r : Record} :
    define id descriptor = .ok r ↔ ∃ fields shape, descriptor = .object fields ∧
      Keyed.find? "recordName" fields = some (.string r.name) ∧ r.name ≠ "" ∧
      Text.capitalize r.name = r.name ∧
      Keyed.find? "shape" fields = some (.object shape) ∧ shape ≠ [] ∧
      r.id = id ∧ List.Forall₂ Declares shape r.fields := by
  constructor
  · intro h
    unfold define at h
    split at h
    any_goals cases h
    rename_i fields
    simp only [bind_eq_ok] at h
    obtain ⟨name, hname, shape, hshape, types, htypes, h⟩ := h
    cases h
    obtain ⟨hfind, hne, hcapital⟩ := descriptorName_eq_ok_iff.mp hname
    obtain ⟨hshape, hentries⟩ := descriptorShape_eq_ok_iff.mp hshape
    refine ⟨fields, shape, rfl, hfind, hne, hcapital, hshape, hentries, rfl, ?_⟩
    rw [fields_ofTypes]
    exact defineFields_eq_ok_iff.mp htypes
  · rintro ⟨fields, shape, rfl, hfind, hne, hcapital, hshape, hentries, rfl, htypes⟩
    have hname : descriptorName fields = .ok r.name :=
      descriptorName_eq_ok_iff.mpr ⟨hfind, hne, hcapital⟩
    have hshape : descriptorShape r.name fields = .ok shape :=
      descriptorShape_eq_ok_iff.mpr ⟨hshape, hentries⟩
    have htypes : defineFields r.name shape shape = .ok r.fields :=
      defineFields_eq_ok_iff.mpr htypes
    simp only [define, bind_eq_ok]
    exact ⟨r.name, hname, shape, hshape, r.fields, htypes, congrArg Except.ok r.ofTypes_eta⟩

theorem fields_ne_of_define {id : Nat} {descriptor : Value} {r : Record}
    (h : define id descriptor = .ok r) : r.fields ≠ [] := by
  obtain ⟨fields, shape, -, -, -, -, -, hne, -, hdeclares⟩ := define_eq_ok_iff.mp h
  intro hnil
  rw [hnil] at hdeclares
  exact hne (List.forall₂_nil_right_iff.mp hdeclares)

theorem define_distinct {id : Nat} {descriptor : Value} {r : Record}
    (h : define id descriptor = .ok r) (hu : descriptor.Unique) : r.Distinct := by
  refine ⟨fields_ne_of_define h, ?_⟩
  obtain ⟨fields, shape, rfl, -, -, -, hshape, -, -, hdeclares⟩ := define_eq_ok_iff.mp h
  have hunique :=
    (Value.unique_object.mp ((Value.unique_object.mp hu).2 _ (Keyed.mem_of_find? hshape))).1
  rw [Keyed.Unique, Keyed.keys_eq_of_forall₂ (hdeclares.imp fun _ _ h => h.name)]
  exact hunique

/-- What has the keys of a record is not empty, since a record has a field. -/
theorem ne_nil_of_keys {α : Type} {r : Record} (hr : r.fields ≠ []) {fields : Keyed α}
    (h : ∀ name ∈ Keyed.keys r.fields, name ∈ Keyed.keys fields) : fields ≠ [] := by
  rintro rfl
  obtain ⟨⟨name, type⟩, hfield⟩ := List.exists_mem_of_ne_nil _ hr
  exact absurd (h name (Keyed.mem_keys_of_mem hfield)) List.not_mem_nil

end Record

namespace Definition

/-- The definitions in the types of the fields. -/
def Refers : Definition → Definition → Prop
  | .union _, _ => False
  | .record r, d => ∃ field type, (field, type) ∈ r.fields ∧ type.element = .user d

/-- A record refers to nothing that was not in its descriptor. -/
theorem part_of_refers {id : Nat} {descriptor : Value} {r : Record} {d : Definition}
    (h : Record.define id descriptor = .ok r) (hd : (Definition.record r).Refers d) :
    descriptor.Part (.definition d) := by
  obtain ⟨fields, shape, rfl, -, -, -, hshape, -, -, hdeclares⟩ := Record.define_eq_ok_iff.mp h
  obtain ⟨field, type, hfield, htype⟩ := hd
  obtain ⟨⟨name, declared⟩, hentry, hdeclared⟩ := exists_of_forall₂ hdeclares hfield
  exact .entry (Keyed.mem_of_find? hshape)
    (.entry hentry (FieldType.part_of_ofValue? hdeclared.type htype))

inductive WellFormed : Definition → Prop
  | union {u} (proper : u.WellFormed) : WellFormed (.union u)
  | record {r} (distinct : r.Distinct)
      (inner : ∀ d, (Definition.record r).Refers d → WellFormed d) : WellFormed (.record r)

/-- Defining accepted it, and a record was given only definitions that were accepted before.
No descriptor has a key twice. -/
inductive Accepted : Definition → Prop
  | union {id descriptor u} (defined : Union.define id descriptor = .ok u) : Accepted (.union u)
  | record {id descriptor r} (unique : descriptor.Unique)
      (known : ∀ d, descriptor.Part (.definition d) → Accepted d)
      (defined : Record.define id descriptor = .ok r) : Accepted (.record r)

theorem Accepted.wellFormed {d : Definition} (h : d.Accepted) : d.WellFormed := by
  induction h with
  | union defined => exact .union (Union.define_wellFormed defined)
  | record unique known defined ih =>
    exact .record (Record.define_distinct defined unique) fun d hd =>
      ih d (part_of_refers defined hd)

end Definition
end TaggedData
