import TaggedData.Proofs.Registry

/-!
# What descriptors describe

A descriptor of a schema document gives a definition. A union stands in its descriptor as a
whole. The shape of a record holds names, and what they stand for is what the schema has
under them when the record is defined.
-/

namespace TaggedData

/-- A descriptor as it stands in a schema document. -/
inductive Descriptor where
  | union (j : Json)
  | record (j : Json)

def SchemaDocument.descriptors (document : SchemaDocument) : List Descriptor :=
  document.types.map .union ++ document.records.map .record

namespace Descriptor

def json : Descriptor → Json
  | .union j => j
  | .record j => j

def nameKey : Descriptor → String
  | .union _ => "typeName"
  | .record _ => "recordName"

def name? (descriptor : Descriptor) : Option Json :=
  match descriptor.json with
  | .object fields => Keyed.find? descriptor.nameKey fields
  | _ => none

end Descriptor

/-- A shape names a type by a string, or by a string in a list for a list of the type. -/
inductive Json.Mentions : Json → String → Prop
  | single (name) : Mentions (.string name) name
  | listOf (name) : Mentions (.array [.string name]) name

namespace Schema

/-- What a name stands for. The primitive types come first. -/
inductive Denotes (s : Schema) (name : String) : ElementType → Prop
  | primitive {p} (primitive : Primitive.ofName? name = some p) : Denotes s name (.primitive p)
  | user {d} (free : Primitive.ofName? name = none) (found : s.find? name = some d) :
      Denotes s name (.user d)

inductive Declares (s : Schema) : Json → FieldType → Prop
  | single {name element} (denotes : s.Denotes name element) :
      Declares s (.string name) (.single element)
  | listOf {name element} (denotes : s.Denotes name element) :
      Declares s (.array [.string name]) (.listOf element)

/-- The definition that a descriptor gives to a schema with what it already has. -/
def defined (before : Schema) (id : Nat) : Descriptor → Except Fault Definition
  | .union j => (Union.define id (.ofJson j)).map .union
  | .record j => do
    let resolved ← before.resolveDescriptor j
    (Record.define id resolved).map .record

/-- A descriptor and the definition that it gives: the name, and the constructors in the order
of the list or the fields in the order of the shape. -/
inductive Describes (before : Schema) (id : Nat) : Descriptor → Definition → Prop
  | union {fields entries u} (identity : u.id = id)
      (named : Keyed.find? "typeName" fields = some (.string u.name))
      (listed : Keyed.find? "constructors" fields = some (.array entries))
      (constructors : List.Forall₂ (fun j c => Union.Gives id u.name (.ofJson j) c) entries
        u.constructors) : Describes before id (.union (.object fields)) (.union u)
  | record {fields shape r} (identity : r.id = id)
      (named : Keyed.find? "recordName" fields = some (.string r.name))
      (shaped : Keyed.find? "shape" fields = some (.object shape))
      (types : List.Forall₂ (fun entry field => field.1 = entry.1 ∧
        before.Declares entry.2 field.2) shape r.fields) :
      Describes before id (.record (.object fields)) (.record r)

end Schema

namespace Value

theorem ofJson_eq_string {j : Json} {text : String} (h : ofJson j = .string text) :
    j = .string text := by
  cases j with
  | string other =>
    cases h
    rfl
  | _ => cases h

theorem ofJson_eq_list {j : Json} {vs : List Value} (h : ofJson j = .list vs) :
    ∃ items, j = .array items ∧ vs = items.map ofJson := by
  cases j with
  | array items =>
    rw [ofJson_array] at h
    cases h
    exact ⟨items, rfl, rfl⟩
  | _ => cases h

theorem ofJson_eq_object {j : Json} {entries : Keyed Value} (h : ofJson j = .object entries) :
    ∃ fields, j = .object fields ∧ entries = ofJsonFields fields := by
  cases j with
  | object fields =>
    cases h
    exact ⟨fields, rfl, rfl⟩
  | _ => cases h

theorem find?_ofJsonFields {fields : Keyed Json} {key : String} {v : Value} :
    Keyed.find? key (ofJsonFields fields) = some v ↔
      ∃ j, Keyed.find? key fields = some j ∧ ofJson j = v := by
  rw [ofJsonFields_eq_map]
  exact Keyed.find?_map_eq_some_iff

theorem ofJson_ne_toValue (j : Json) (element : ElementType) : ofJson j ≠ element.toValue := by
  cases element <;> cases j <;> exact nofun

end Value

namespace Schema

variable {s : Schema} {id : Nat}

theorem denotes_of_resolve {name : String} {element : ElementType}
    (h : s.resolve name = .ok element.toValue) : s.Denotes name element := by
  unfold resolve at h
  split at h
  · cases element <;> cases h
    exact .primitive ‹_›
  · split at h <;> cases element <;> cases h
    exact .user ‹_› ‹_›

theorem not_list_of_resolve {name : String} {vs : List Value} :
    s.resolve name ≠ .ok (.list vs) := by
  unfold resolve
  split
  · exact nofun
  · split <;> exact nofun

/-- An entry that is resolved to a type declares it. Every other entry stays plain, and
nothing plain is a type. -/
theorem declares_of_resolveEntry {j : Json} {type : FieldType}
    (h : s.resolveEntry j = .ok type.toValue) : s.Declares j type := by
  unfold resolveEntry at h
  split at h
  · cases type with
    | single element => exact .single (denotes_of_resolve h)
    | listOf element => exact absurd h not_list_of_resolve
  · obtain ⟨v, hv, hvalue⟩ := map_eq_ok.mp h
    cases type with
    | single element => cases element <;> cases hvalue
    | listOf element =>
      cases hvalue
      exact .listOf (denotes_of_resolve hv)
  · have hplain := Except.ok.inj h
    cases type with
    | single element => exact absurd hplain (Value.ofJson_ne_toValue j element)
    | listOf element =>
      obtain ⟨items, rfl, hitems⟩ := Value.ofJson_eq_list hplain
      obtain ⟨item, rest, rfl⟩ : ∃ item rest, items = item :: rest := by
        cases items with
        | nil => cases hitems
        | cons item rest => exact ⟨item, rest, rfl⟩
      exact absurd (List.cons.inj hitems).1.symm (Value.ofJson_ne_toValue item element)

theorem describes_union {j : Json} {u : Union} (h : Union.define id (.ofJson j) = .ok u) :
    s.Describes id (.union j) (.union u) := by
  obtain ⟨vs, entries, hobject, hname, -, hlist, -, hid, hgives, -⟩ := Union.define_eq_ok_iff.mp h
  obtain ⟨fields, rfl, rfl⟩ := Value.ofJson_eq_object hobject
  obtain ⟨text, htext, hstring⟩ := Value.find?_ofJsonFields.mp hname
  obtain ⟨list, hitems, harray⟩ := Value.find?_ofJsonFields.mp hlist
  obtain rfl := Value.ofJson_eq_string hstring
  obtain ⟨items, rfl, rfl⟩ := Value.ofJson_eq_list harray
  exact .union hid htext hitems (List.forall₂_map_left_iff.mp hgives)

/-- What resolving makes of the descriptor of a record: the names in the shape are replaced by
what they stand for. -/
theorem resolveDescriptor_eq_object {j : Json} (hu : j.Unique) {vs types : Keyed Value}
    {name : String} (h : s.resolveDescriptor j = .ok (.object vs))
    (hname : Keyed.find? "recordName" vs = some (.string name))
    (hshape : Keyed.find? "shape" vs = some (.object types)) :
    ∃ fields shape, j = .object fields ∧ Keyed.find? "recordName" fields = some (.string name) ∧
      Keyed.find? "shape" fields = some (.object shape) ∧ List.Forall₂ s.Resolves shape types := by
  unfold resolveDescriptor at h
  split at h
  · rename_i fields
    have hunique := (Json.unique_object.mp hu).1
    dsimp only at h
    split at h
    · rename_i shape hfind
      obtain ⟨resolved, hresolved, hput⟩ := map_eq_ok.mp h
      cases hput
      rw [Keyed.find?_put, if_neg (by decide)] at hname
      rw [Keyed.find?_put, if_pos rfl] at hshape
      cases hshape
      obtain ⟨text, htext, hstring⟩ := Value.find?_ofJsonFields.mp hname
      rw [Keyed.find?_removeSwap_of_ne hunique (by decide)] at htext
      obtain rfl := Value.ofJson_eq_string hstring
      exact ⟨fields, shape, rfl, htext, hfind, resolveShape_eq_ok_iff.mp hresolved⟩
    · -- A shape that is not an object stays plain, so it is no object afterwards.
      rename_i shape hplain hfind
      cases h
      rw [Keyed.find?_put, if_pos rfl] at hshape
      obtain ⟨entries, rfl, -⟩ := Value.ofJson_eq_object (Option.some.inj hshape)
      exact absurd rfl (hplain entries)
    · -- Without a shape there is none among the other fields either.
      rename_i hnone
      cases h
      obtain ⟨shape, hfind, -⟩ := Value.find?_ofJsonFields.mp hshape
      have hmem := Keyed.mem_of_mem_removeSwap (Keyed.mem_of_find? hfind)
      exact absurd (Keyed.mem_keys_of_mem hmem) (Keyed.find?_eq_none_iff.mp hnone)
  · rename_i hplain
    obtain ⟨fields, rfl, -⟩ := Value.ofJson_eq_object (Except.ok.inj h)
    exact absurd rfl (hplain fields)

theorem describes_record {j : Json} (hu : j.Unique) {resolved : Value} {r : Record}
    (hresolved : s.resolveDescriptor j = .ok resolved) (h : Record.define id resolved = .ok r) :
    s.Describes id (.record j) (.record r) := by
  obtain ⟨vs, types, rfl, hname, -, -, hshape, -, hid, hdeclares⟩ := Record.define_eq_ok_iff.mp h
  obtain ⟨fields, shape, rfl, hname, hshape, hresolves⟩ :=
    resolveDescriptor_eq_object hu hresolved hname hshape
  refine .record hid hname hshape ((forall₂_comp hresolves hdeclares).imp ?_)
  rintro ⟨name, j⟩ ⟨field, type⟩ ⟨⟨other, v⟩, hresolves, hdeclares⟩
  refine ⟨hdeclares.name.trans hresolves.name, declares_of_resolveEntry ?_⟩
  rw [hresolves.value, FieldType.eq_toValue hdeclares.type]

theorem describes_of_defined {descriptor : Descriptor} (hu : descriptor.json.Unique)
    {d : Definition} (h : s.defined id descriptor = .ok d) : s.Describes id descriptor d := by
  cases descriptor with
  | union j =>
    obtain ⟨u, hu, rfl⟩ := map_eq_ok.mp h
    exact describes_union hu
  | record j =>
    obtain ⟨resolved, hresolved, hdefined⟩ := bind_eq_ok.mp h
    obtain ⟨r, hr, rfl⟩ := map_eq_ok.mp hdefined
    exact describes_record hu hresolved hr

namespace Describes

variable {descriptor : Descriptor} {d : Definition}

theorem name_eq (h : s.Describes id descriptor d) : descriptor.name? = some (.string d.name) := by
  cases h with
  | union _ named => exact named
  | record _ named => exact named

/-- A record refers to what the schema had before it. -/
theorem refers (h : s.Describes id descriptor d) {e : Definition} (he : d.Refers e) :
    e ∈ s.definitions := by
  cases h with
  | union => cases he
  | record _ _ _ types =>
    obtain ⟨field, type, hfield, htype⟩ := he
    obtain ⟨⟨_, j⟩, -, -, hdeclares⟩ := exists_of_forall₂ types hfield
    cases hdeclares with
    | single denotes | listOf denotes =>
      cases htype
      cases denotes with
      | user _ found => exact (mem_of_find? found).1

end Describes
end Schema
end TaggedData
