import TaggedData.Proofs.Erasure
import TaggedData.Proofs.Loading

/-!
# Extensions of schema documents

A document that has all descriptors of another one, in any order and with others among them,
defines what the other one defines. What a name in a shape stands for does not depend on the
rest of the document: it is primitive in both, or it is a definition, and by induction on the
place of that definition both documents write it alike.
-/

namespace TaggedData

theorem Union.Gives.erase_eq {id id' : Nat} {name name' : String} {entry : Value}
    {c c' : Constructor} (h : Union.Gives id name entry c) (hname : name' = name)
    (h' : Union.Gives id' name' entry c') : c'.erase = c.erase := by
  have hlabel : c'.label = c.label := Option.some.inj (h'.label.symm.trans h.label)
  have harity : c'.arity = c.arity := Option.some.inj (h'.arity.symm.trans h.arity)
  rw [Constructor.erase, Constructor.erase, hlabel, harity, h'.typeName, h.typeName, hname]

namespace Schema

variable {s s' before before' : Schema} {id id' firstId firstId' : Nat}
  {descriptor : Descriptor} {descriptors descriptors' : List Descriptor}

/-- Every definition of a schema stands in the other schema too, up to identities. -/
def Extends (s' s : Schema) : Prop :=
  ∀ d ∈ s.definitions, ∃ e ∈ s'.definitions, e.erase = d.erase

theorem name_eq_of_erase_eq {d e : Definition} (h : e.erase = d.erase) : e.name = d.name := by
  rw [← Definition.name_erase e, h, Definition.name_erase]

/-- A name stands for the same in two parts of schemas, if the one schema has what stands in
the part of the other. -/
theorem Denotes.erase_eq (hs' : s'.Consistent) (hbefore : s'.Extends before)
    (hbefore' : before'.definitions ⊆ s'.definitions) {name : String} {t t' : ElementType}
    (h : before.Denotes name t) (h' : before'.Denotes name t') : t'.erase = t.erase := by
  cases h with
  | primitive hp =>
    cases h' with
    | primitive hp' =>
      cases hp.symm.trans hp'
      rfl
    | user hfree => cases hfree.symm.trans hp
  | @user d hfree hd =>
    cases h' with
    | primitive hp' => cases hfree.symm.trans hp'
    | @user e hfree' he =>
      obtain ⟨hd, hname⟩ := mem_of_find? hd
      obtain ⟨he, hname'⟩ := mem_of_find? he
      obtain ⟨other, hother, herase⟩ := hbefore d hd
      -- Both have the name, and the schema has it only once.
      have hsame : e = other := List.inj_on_of_nodup_map hs'.names (hbefore' he) hother (by
        rw [hname', name_eq_of_erase_eq herase, hname])
      rw [ElementType.erase, ElementType.erase, hsame, herase]

theorem Declares.erase_eq (hs' : s'.Consistent) (hbefore : s'.Extends before)
    (hbefore' : before'.definitions ⊆ s'.definitions) {entry : Json} {t t' : FieldType}
    (h : before.Declares entry t) (h' : before'.Declares entry t') : t'.erase = t.erase := by
  cases h with
  | single hdenotes =>
    cases h' with
    | single hdenotes' =>
      rw [FieldType.erase, FieldType.erase, hdenotes.erase_eq hs' hbefore hbefore' hdenotes']
  | listOf hdenotes =>
    cases h' with
    | listOf hdenotes' =>
      rw [FieldType.erase, FieldType.erase, hdenotes.erase_eq hs' hbefore hbefore' hdenotes']

theorem Describes.erase_eq (hs' : s'.Consistent) (hbefore : s'.Extends before)
    (hbefore' : before'.definitions ⊆ s'.definitions) {d e : Definition}
    (h : before.Describes id descriptor d) (h' : before'.Describes id' descriptor e) :
    e.erase = d.erase := by
  have hname : e.name = d.name :=
    Json.string.inj (Option.some.inj (h'.name_eq.symm.trans h.name_eq))
  cases h with
  | @union _ _ u _ _ listed constructors =>
    cases h' with
    | @union _ _ u' _ _ listed' constructors' =>
      cases listed.symm.trans listed'
      change u'.name = u.name at hname
      have hconstructors : u'.constructors.map Constructor.erase =
          u.constructors.map Constructor.erase := by
        refine map_eq_map_of_forall₂ ?_ constructors constructors'
        exact fun _ _ _ hc hc' => hc.erase_eq hname hc'
      rw [Definition.erase, Definition.erase, Union.erase, Union.erase, hname, hconstructors]
  | @record _ _ r _ _ shaped types =>
    cases h' with
    | @record _ _ r' _ _ shaped' types' =>
      cases shaped.symm.trans shaped'
      change r'.name = r.name at hname
      have hfields : r'.erase.fields = r.erase.fields := by
        simp only [Record.fields_erase]
        refine map_eq_map_of_forall₂ ?_ types types'
        rintro entry field field' ⟨hfield, htype⟩ ⟨hfield', htype'⟩
        exact Prod.ext (hfield'.trans hfield.symm) (htype.erase_eq hs' hbefore hbefore' htype')
      rw [Definition.erase, Definition.erase, Definition.record.injEq]
      refine Record.eq_of_fields ?_ ?_ hfields
      · simp only [Record.erase_eq, Record.id_ofTypes]
      · simp only [Record.name_erase, hname]

/-- By induction on the place of a definition: all that its descriptor names stands before it. -/
theorem Loaded.extends (hs : Loaded firstId descriptors s) (hs' : Loaded firstId' descriptors' s')
    (hsub : descriptors ⊆ descriptors') : s'.Extends s := by
  suffices h : ∀ (i : Nat) d, s.definitions[i]? = some d →
      ∃ e ∈ s'.definitions, e.erase = d.erase by
    intro d hd
    obtain ⟨i, hi⟩ := List.mem_iff_getElem?.mp hd
    exact h i d hi
  intro i
  induction i using Nat.strong_induction_on with
  | _ i ih =>
    intro d hd
    obtain ⟨descriptor, hdescriptor, hdescribes⟩ := hs.exists_descriptor hd
    obtain ⟨k, hk⟩ := List.mem_iff_getElem?.mp (hsub (List.mem_of_getElem? hdescriptor))
    obtain ⟨e, he, hdescribes'⟩ := hs'.exists_definition hk
    have hbefore : s'.Extends ⟨s.definitions.take i⟩ := by
      intro earlier hearlier
      obtain ⟨j, hj⟩ := List.mem_iff_getElem?.mp hearlier
      rw [List.getElem?_take] at hj
      split_ifs at hj with hlt
      exact ih j hlt earlier hj
    exact ⟨e, List.mem_of_getElem? he,
      hdescribes.erase_eq hs'.consistent hbefore (List.take_subset _ _) hdescribes'⟩

theorem Extends.find? (h : s'.Extends s) (hs' : s'.Consistent) {name : String} {d : Definition}
    (hd : s.find? name = some d) : ∃ e, s'.find? name = some e ∧ e.erase = d.erase := by
  obtain ⟨hmem, rfl⟩ := mem_of_find? hd
  obtain ⟨e, he, herase⟩ := h d hmem
  exact ⟨e, hs'.find?_eq_some_iff.mpr ⟨he, name_eq_of_erase_eq herase⟩, herase⟩

theorem Extends.record? (h : s'.Extends s) (hs' : s'.Consistent) {name : String} {r : Record}
    (hr : s.record? name = some r) : ∃ r', s'.record? name = some r' ∧ r'.erase = r.erase := by
  obtain ⟨e, he, herase⟩ := h.find? hs' (record?_eq_some_iff.mp hr)
  cases e with
  | union u => cases herase
  | record r' => exact ⟨r', record?_eq_some_iff.mpr he, Definition.record.inj herase⟩

/-- A document that has the types and the records of another one, wherever they stand in it,
defines the same under every name of the other one, and its records lift every document to the
same value or to an error with the same message. -/
theorem load_extends {read : SchemaReader} (unique : read.Unique) {text text' : String}
    {document document' : SchemaDocument} (hread : read text = .ok document)
    (hread' : read text' = .ok document')
    (h : load read firstId text = .ok s) (h' : load read firstId' text' = .ok s')
    (htypes : document.types ⊆ document'.types)
    (hrecords : document.records ⊆ document'.records) :
    (∀ name d, s.find? name = some d → ∃ e, s'.find? name = some e ∧ e.erase = d.erase) ∧
    ∀ name r, s.record? name = some r → ∃ r', s'.record? name = some r' ∧
      ∀ j, outcome (r'.lift j) = outcome (r.lift j) := by
  obtain ⟨_, hsame, -, hs⟩ := loaded_of_load unique h
  cases hread.symm.trans hsame
  obtain ⟨_, hsame', -, hs'⟩ := loaded_of_load unique h'
  cases hread'.symm.trans hsame'
  have hextends : s'.Extends s := by
    refine hs.extends hs' fun descriptor hdescriptor => ?_
    rcases List.mem_append.mp hdescriptor with hd | hd
    · exact List.mem_append_left _ (List.map_subset _ htypes hd)
    · exact List.mem_append_right _ (List.map_subset _ hrecords hd)
  refine ⟨fun name d => hextends.find? hs'.consistent, fun name r hr => ?_⟩
  obtain ⟨r', hr', herase⟩ := hextends.record? hs'.consistent hr
  refine ⟨r', hr', fun j => ?_⟩
  rw [← r'.outcome_lift_erase, herase, r.outcome_lift_erase]

def coinJson : Json :=
  .object [("typeName", .string "Coin"), ("constructors", .array [
    .object [("name", .string "Heads"), ("arity", .number (.integer 0 (by decide)))],
    .object [("name", .string "Tails"), ("arity", .number (.integer 0 (by decide)))]])]

def placeJson : Json :=
  .object [("recordName", .string "Place"), ("shape", .object [("name", .string "String")])]

/-- Places and coins among the persons and the teams. -/
def widerDocument : SchemaDocument :=
  ⟨[coinJson], [personJson, placeJson, teamJson]⟩

theorem plain_widerDocument : widerDocument.Plain where
  types := by
    simp [widerDocument, coinJson, Json.depthLimit, Keyed.Unique, Json.Plain.integer]
  records := by
    have hplace : Json.Plain (Json.depthLimit - 2) placeJson := by
      simp [placeJson, Json.depthLimit, Keyed.Unique]
    simp [widerDocument, plain_personJson, hplace, plain_teamJson]

theorem load_extends_team : SchemaReader.Unique SchemaDocument.parse ∧
    ∃ s', load SchemaDocument.parse 0 widerDocument.text = .ok s' ∧
      (∃ e, s'.find? "Person" = some e ∧ e.erase = (Definition.record Record.person).erase) ∧
      ∃ r', s'.record? "Team" = some r' ∧
        ∀ j, outcome (r'.lift j) = outcome (Record.team.lift j) := by
  obtain ⟨s', hload'⟩ : ∃ s', load SchemaDocument.parse 0 widerDocument.text = .ok s' := by
    have hok : (ofDocument 0 widerDocument).isOk := by decide +kernel
    rw [load_text plain_widerDocument]
    cases hdocument : ofDocument 0 widerDocument with
    | error f =>
      rw [hdocument] at hok
      cases hok
    | ok s' => exact ⟨s', rfl⟩
  have unique := SchemaDocument.unique_parse
  have hextends := load_extends unique plain_teamDocument.parse_text
    plain_widerDocument.parse_text load_team hload' (by simp [teamDocument]) (by simp [teamDocument, widerDocument])
  exact ⟨unique, s', hload', hextends.1 "Person" _ rfl, hextends.2 "Team" _ rfl⟩

end Schema
end TaggedData
