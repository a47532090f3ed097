import TaggedData.Proofs.SchemaRun

/-!
# Matching what a record holds

A record admits to a field of a union what has the name of the union, and a matcher of the
union also wants a label. So a field can hold the definition itself, which every matcher
refuses. A typed value in the field is matched as soon as its label is one of the union, and
where all definitions are made through one schema it always is.
-/

namespace TaggedData

/-- What a field of the type is about: its value, or the items of its list. -/
def FieldType.contents : FieldType → Value → List Value
  | .listOf _, .list items => items
  | .listOf _, _ => []
  | .single _, v => [v]

namespace FieldType

variable {type : FieldType} {v w : Value}

theorem admits_contents (h : type.admits v = true) (hw : w ∈ type.contents v) :
    type.element.admits w = true := by
  cases type with
  | single element =>
    rw [List.mem_singleton.mp hw]
    exact h
  | listOf element =>
    cases v with
    | list items => exact List.all_eq_true.mp h w hw
    | _ => cases h

theorem exists_list_of_admits {element : ElementType} (h : (listOf element).admits v = true) :
    ∃ items, v = .list items := by
  cases v with
  | list items => exact ⟨items, rfl⟩
  | _ => cases h

theorem part_of_contents (hw : w ∈ type.contents v) : v.Part w := by
  cases type with
  | single element =>
    rw [List.mem_singleton.mp hw]
    exact .refl _
  | listOf element =>
    cases v with
    | list items => exact .item hw (.refl _)
    | _ => cases hw

end FieldType

theorem Definition.is_cases {d : Definition} {v : Value} (h : d.is v = true) :
    (∃ e, v = .definition e ∧ e.name = d.name) ∨
      ∃ label form payload, v = .tagged d.name label form payload := by
  cases v with
  | definition e => exact .inl ⟨e, rfl, by simpa [is, Value.tags] using h⟩
  | tagged typeName label form payload =>
    have hname : typeName = d.name := by simpa [is, Value.tags] using h
    exact .inr ⟨label, form, payload, by rw [hname]⟩
  | _ => cases h

namespace Schema

open History

/-- A value with the name of a union of the schema is the union, or comes from it. -/
theorem Run.definition_or_origin {read : SchemaReader} (unique : read.Unique) {s : Schema}
    {h : History} (run : Run read s h) {u : Union} (hu : .union u ∈ s.definitions) {w : Value} (available : h.Available w)
    (is : (Definition.union u).is w = true) :
    w = .definition (.union u) ∨ h.Origin w (.union u) ∧ ∃ c ∈ u.constructors, ∃ payload,
      w = .tagged u.name c.label (.variant c.arity) payload ∧ PayloadOf c.arity payload := by
  have ht := run.tracks unique
  have hs := ht.run.sound
  have hmade := hs.available available
  obtain ⟨d, rfl, hname⟩ | ⟨label, form, payload, rfl⟩ := Definition.is_cases is
  · have hd := (ht.knows d).mp (hmade.definitions d (.refl _))
    rw [ht.eq_of_name_eq hd hu hname]
    exact .inl rfl
  · obtain ⟨d, horigin⟩ := hmade.instances _ (.refl _) rfl
    obtain ⟨hd, hshaped⟩ := hs.shaped _ d horigin
    have hdu := ht.eq_of_name_eq ((ht.knows d).mp hd) hu (hshaped.is_iff.mp is).symm
    subst hdu
    refine .inr ⟨horigin, ?_⟩
    cases hshaped with
    | @variant _ c _ own shape => exact ⟨c, own, payload, rfl, shape⟩

/-- What an accepted value holds in a field of a union. The record may be any that has such a
field. -/
theorem field_contents_match {s : Schema} {u : Union} (hu : .union u ∈ s.definitions)
    {r : Record} {field : String} {type : FieldType} (declared : r.fieldType? field = some type)
    (refers : type.element = .user (.union u)) {x v : Value} (accepted : r.of x = .ok v) :
    ∃ fields content, v = r.instanceOf fields ∧ Keyed.find? field fields = some content ∧
      (∀ element, type = .listOf element → ∃ items, content = .list items) ∧
      ∀ w ∈ type.contents content,
        ((∃ d, w = .definition d ∧ d.name = u.name ∧ u.Refuses w (.notAValue u w)) ∨
          ∃ label form payload, w = .tagged u.name label form payload ∧
            (label ∈ u.labels → u.Dispatches w label payload) ∧
            (label ∉ u.labels → u.Refuses w (.noCase u label))) ∧
        ∀ (read : SchemaReader) h, read.Unique → Run read s h → h.Available x →
          w = .definition (.union u) ∨ h.Origin w (.union u) ∧ ∃ c ∈ u.constructors, ∃ payload,
            w = .tagged u.name c.label (.variant c.arity) payload ∧
            PayloadOf c.arity payload ∧ u.Dispatches w c.label payload := by
  obtain ⟨fields, rfl, -, haccepts, rfl⟩ := Record.of_eq_ok_iff.mp accepted
  obtain ⟨content, hcontent⟩ := Keyed.find?_isSome_iff.mpr
    ((haccepts.keys field).mpr (Keyed.find?_isSome_iff.mp ⟨type, declared⟩))
  have hadmits := haccepts.admitted field type content declared hcontent
  refine ⟨fields, content, rfl, hcontent, fun element htype => ?_, fun w hw => ?_⟩
  · subst htype
    exact FieldType.exists_list_of_admits hadmits
  have his : (Definition.union u).is w = true := by
    have := FieldType.admits_contents hadmits hw
    rwa [refers] at this
  constructor
  · obtain ⟨d, rfl, hname⟩ | ⟨label, form, payload, rfl⟩ := Definition.is_cases his
    · exact .inl ⟨d, rfl, hname, Union.refuses_definition hname⟩
    · exact .inr ⟨label, form, payload, rfl, fun h => Union.dispatches_tagged h form payload,
        fun h => Union.refuses_tagged h form payload⟩
  · intro read h unique run available
    have hpart : (Value.object fields).Part w :=
      .entry (Keyed.mem_of_find? hcontent) (FieldType.part_of_contents hw)
    obtain hdefinition | ⟨horigin, c, hc, payload, hw, shape⟩ :=
      run.definition_or_origin unique hu (available.part hpart) his
    · exact .inl hdefinition
    · refine .inr ⟨horigin, c, hc, payload, hw, shape, ?_⟩
      rw [hw]
      exact Union.dispatches_tagged (Union.mem_labels.mpr ⟨c, hc, rfl⟩) _ payload

theorem exists_matcher_maybe : ∃ m, Union.maybe.matcher
    [("Just", .constant (.bool true)), ("Nothing", .constant (.bool true))] = .ok m := by
  refine (Union.define_wellFormed Union.define_maybe).exists_matcher_iff.mpr ⟨?_, ?_⟩
  · simp [Union.labels, Union.maybe]
  · simp [Branch.isAbsent, Value.isAbsent]

/-- A record accepts the definition of the union in a field of the union. -/
theorem definition_in_field :
    Run SchemaDocument.parse ⟨[.union .maybe, .record holder]⟩ holderDefined ∧
      holderDefined.Available (.object [("value", .definition (.union .maybe))]) ∧
      holder.of (.object [("value", .definition (.union .maybe))]) =
        .ok (holder.instanceOf [("value", .definition (.union .maybe))]) ∧
      ∃ m, Union.maybe.matcher
          [("Just", .constant (.bool true)), ("Nothing", .constant (.bool true))] = .ok m ∧
        ∀ host, m.apply host (.definition (.union .maybe)) =
          .error (.matching (.notAValue .maybe (.definition (.union .maybe)))) := by
  have hknown : holderDefined.Knows (.union .maybe) := by
    simp [Knows, holderDefined, maybeRefused]
  obtain ⟨m, hm⟩ := exists_matcher_maybe
  refine ⟨run_holderDefined _, ?_, of_holder_iff.mpr ⟨rfl, rfl⟩, m, hm, ?_⟩
  · simp [Available, Value.madeOf_object, Keyed.Unique, Value.madeOf_definition hknown]
  · exact Union.refuses_definition rfl _ m hm

theorem field_contents_match_nothing :
    holder.of (.object [("value", nothing)]) = .ok (holder.instanceOf [("value", nothing)]) ∧
      holderDefined.Origin nothing (.union .maybe) ∧
      Union.maybe.Dispatches nothing "Nothing" .null := by
  have accepted : holder.of (.object [("value", nothing)]) =
      .ok (holder.instanceOf [("value", nothing)]) := of_holder_iff.mpr ⟨rfl, rfl⟩
  have declared : holder.fieldType? "value" = some (.single (.user (.union .maybe))) := rfl
  obtain ⟨fields, content, hv, hcontent, -, hmatch⟩ :=
    field_contents_match (s := ⟨[.union .maybe, .record holder]⟩) List.mem_cons_self declared rfl
      accepted
  cases hv
  cases hcontent
  obtain ⟨-, horigin⟩ := hmatch nothing (List.mem_singleton_self _)
  obtain hdefinition | ⟨horigin, c, -, payload, hw, -, hdispatches⟩ :=
    horigin SchemaDocument.parse holderDefined SchemaDocument.unique_parse (run_holderDefined _)
      available_nothing
  · cases hdefinition
  · simp only [nothing, Value.tagged.injEq] at hw
    obtain ⟨-, hlabel, -, hpayload⟩ := hw
    rw [← hlabel, ← hpayload] at hdispatches
    exact ⟨accepted, horigin, hdispatches⟩

end Schema
end TaggedData
