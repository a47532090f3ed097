import TaggedData.Proofs.Descriptors
import TaggedData.Proofs.Printing
import TaggedData.Proofs.Reading
import TaggedData.Proofs.Registration

/-!
# Loaded schemas

Types and records are loaded in one row, and each descriptor is read against what stands
before it. So the definitions of a loaded schema are in the order of the document, and a
record is made of primitive types and definitions before its own place.
-/

namespace TaggedData

theorem SchemaDocument.Unique.descriptors {document : SchemaDocument} (h : document.Unique) :
    ∀ descriptor ∈ document.descriptors, descriptor.json.Unique := by
  intro descriptor hdescriptor
  rcases List.mem_append.mp hdescriptor with hd | hd
  · obtain ⟨j, hj, rfl⟩ := List.mem_map.mp hd
    exact h.types j hj
  · obtain ⟨j, hj, rfl⟩ := List.mem_map.mp hd
    exact h.records j hj

namespace Schema

variable {s t : Schema} {id firstId : Nat} {before descriptors : List Descriptor}

/-- Adds what the descriptors give, with identities from `id` on. -/
def loadAll (s : Schema) (id : Nat) : List Descriptor → Except Fault Schema
  | [] => .ok s
  | descriptor :: rest => do
    let d ← s.defined id descriptor
    let s ← s.insert d
    s.loadAll (id + 1) rest

theorem loadTypes_eq (s : Schema) (id : Nat) (types : List Json) :
    s.loadTypes id types = s.loadAll id (types.map .union) := by
  induction types generalizing s id with
  | nil => rfl
  | cons j rest ih =>
    simp only [loadTypes, List.map_cons, loadAll, defineUnion, defined, ih]
    cases Union.define id (.ofJson j) with
    | error f => rfl
    | ok u =>
      simp only [bind, Except.bind, Except.map]
      cases s.insert (.union u) <;> rfl

theorem loadRecords_eq (s : Schema) (id : Nat) (records : List Json) :
    s.loadRecords id records = s.loadAll id (records.map .record) := by
  induction records generalizing s id with
  | nil => rfl
  | cons j rest ih =>
    simp only [loadRecords, List.map_cons, loadAll, defineRecord, defined, ih]
    simp only [bind, Except.bind, Except.map]
    cases s.resolveDescriptor j with
    | error f => rfl
    | ok resolved =>
      dsimp only
      cases Record.define id resolved with
      | error f => rfl
      | ok r =>
        dsimp only
        cases s.insert (.record r) <;> rfl

theorem loadAll_append (s : Schema) (id : Nat) (before after : List Descriptor) :
    s.loadAll id (before ++ after) =
      s.loadAll id before >>= fun t => t.loadAll (id + before.length) after := by
  induction before generalizing s id with
  | nil => rfl
  | cons descriptor rest ih =>
    simp only [List.cons_append, loadAll, ih, bind_assoc, List.length_cons, Nat.add_right_comm,
      Nat.add_assoc]

theorem definitions_loadAll (h : s.loadAll id descriptors = .ok t) :
    ∃ added, t.definitions = s.definitions ++ added ∧ added.length = descriptors.length := by
  induction descriptors generalizing s id with
  | nil =>
    cases h
    exact ⟨[], (List.append_nil _).symm, rfl⟩
  | cons descriptor rest ih =>
    simp only [loadAll, bind_eq_ok] at h
    obtain ⟨d, -, s', hs', h⟩ := h
    obtain ⟨-, -, rfl⟩ := insert_eq_ok_iff.mp hs'
    obtain ⟨added, hadded, hlength⟩ := ih h
    exact ⟨d :: added, by simp [hadded], by simp [hlength]⟩

theorem ofDocument_eq (firstId : Nat) (document : SchemaDocument) :
    ofDocument firstId document = Schema.empty.loadAll firstId document.descriptors := by
  rw [SchemaDocument.descriptors, loadAll_append, List.length_map, ofDocument, loadTypes_eq]
  simp only [loadRecords_eq]

/-- The definitions are what the descriptors describe, each by those before it. -/
structure Loaded (firstId : Nat) (descriptors : List Descriptor) (s : Schema) : Prop where
  consistent : s.Consistent
  length_eq : s.definitions.length = descriptors.length
  describes : ∀ i descriptor d, descriptors[i]? = some descriptor → s.definitions[i]? = some d →
    Describes ⟨s.definitions.take i⟩ (firstId + i) descriptor d

namespace Loaded

theorem empty : Loaded firstId [] .empty where
  consistent := consistent_empty
  length_eq := rfl
  describes i descriptor d h := by cases h

theorem concat (hs : Loaded firstId before s) {descriptor : Descriptor} {d : Definition}
    (hd : s.Describes (firstId + before.length) descriptor d) (h : s.insert d = .ok t) :
    Loaded firstId (before ++ [descriptor]) t := by
  have ht := hs.consistent.insert h
  obtain ⟨-, -, rfl⟩ := insert_eq_ok_iff.mp h
  refine ⟨ht, by simp [hs.length_eq], fun i other e hother he => ?_⟩
  have hi := (List.getElem?_eq_some_iff.mp hother).1
  rw [List.length_append, List.length_singleton] at hi
  rcases Nat.lt_succ_iff_lt_or_eq.mp hi with hi | rfl
  · -- What stands before an old descriptor is what stood there.
    have hi' : i < s.definitions.length := hs.length_eq ▸ hi
    rw [List.getElem?_append_left hi] at hother
    rw [List.getElem?_append_left hi'] at he
    rw [List.take_append_of_le_length hi'.le]
    exact hs.describes i other e hother he
  · rw [List.getElem?_concat_length] at hother
    rw [← hs.length_eq, List.getElem?_concat_length] at he
    cases hother
    cases he
    rw [List.take_left' hs.length_eq]
    exact hd

theorem loadAll (hs : Loaded firstId before s) (hu : ∀ d ∈ descriptors, d.json.Unique)
    (h : s.loadAll (firstId + before.length) descriptors = .ok t) :
    Loaded firstId (before ++ descriptors) t := by
  induction descriptors generalizing before s with
  | nil =>
    cases h
    rwa [List.append_nil]
  | cons descriptor rest ih =>
    obtain ⟨hdescriptor, hrest⟩ := List.forall_mem_cons.mp hu
    simp only [Schema.loadAll, bind_eq_ok] at h
    obtain ⟨d, hd, s', hs', h⟩ := h
    rw [List.append_cons]
    refine ih (hs.concat (describes_of_defined hdescriptor hd) hs') hrest ?_
    rw [List.length_append, List.length_singleton, ← Nat.add_assoc]
    exact h

end Loaded

theorem loaded_of_load {read : SchemaReader} (unique : read.Unique) {text : String}
    (h : load read firstId text = .ok s) :
    ∃ document, read text = .ok document ∧
      ofDocument firstId document = .ok s ∧ Loaded firstId document.descriptors s := by
  unfold load at h
  split at h
  · cases h
  · rename_i document hread
    have hunique := (unique text document hread).descriptors
    exact ⟨document, hread, h, Loaded.empty.loadAll hunique ((ofDocument_eq _ _).symm.trans h)⟩

/-- The type of every field is primitive or a definition that stands before the record, and
stands nowhere else. -/
def Closed (s : Schema) : Prop :=
  ∀ (i : Nat) r, s.definitions[i]? = some (.record r) → ∀ field type, (field, type) ∈ r.fields →
    (∃ p, type.element = .primitive p) ∨
      ∃ j d, j < i ∧ type.element = .user d ∧ ∀ k, s.definitions[k]? = some d ↔ k = j

theorem Consistent.eq_of_getElem? (hs : s.Consistent) {d : Definition} {j k : Nat}
    (hj : s.definitions[j]? = some d) (hk : s.definitions[k]? = some d) : j = k :=
  (List.getElem?_inj (List.getElem?_eq_some_iff.mp hj).1 (List.Nodup.of_map _ hs.names)).mp
    (hj.trans hk.symm)

namespace Loaded

theorem exists_descriptor (hs : Loaded firstId descriptors s) {i : Nat} {d : Definition}
    (hd : s.definitions[i]? = some d) : ∃ descriptor, descriptors[i]? = some descriptor ∧
      Describes ⟨s.definitions.take i⟩ (firstId + i) descriptor d := by
  have hi := (List.getElem?_eq_some_iff.mp hd).1
  rw [hs.length_eq] at hi
  exact ⟨_, List.getElem?_eq_getElem hi, hs.describes i _ d (List.getElem?_eq_getElem hi) hd⟩

theorem exists_definition (hs : Loaded firstId descriptors s) {i : Nat} {descriptor : Descriptor}
    (h : descriptors[i]? = some descriptor) : ∃ d, s.definitions[i]? = some d ∧
      Describes ⟨s.definitions.take i⟩ (firstId + i) descriptor d := by
  have hi := (List.getElem?_eq_some_iff.mp h).1
  rw [← hs.length_eq] at hi
  exact ⟨_, List.getElem?_eq_getElem hi, hs.describes i _ _ h (List.getElem?_eq_getElem hi)⟩

theorem closed (hs : Loaded firstId descriptors s) : s.Closed := by
  intro i r hr field type hfield
  obtain ⟨descriptor, -, hdescribes⟩ := hs.exists_descriptor hr
  cases htype : type.element with
  | primitive p => exact .inl ⟨p, rfl⟩
  | user d =>
    have hd : d ∈ s.definitions.take i := hdescribes.refers ⟨field, type, hfield, htype⟩
    obtain ⟨j, hj⟩ := List.mem_iff_getElem?.mp hd
    rw [List.getElem?_take] at hj
    split_ifs at hj with hlt
    refine .inr ⟨j, d, hlt, rfl, fun k => ⟨fun hk => hs.consistent.eq_of_getElem? hk hj, ?_⟩⟩
    rintro rfl
    exact hj

theorem denotes (hs : Loaded firstId descriptors s) {i : Nat} {fields shape : Keyed Json}
    (h : descriptors[i]? = some (.record (.object fields)))
    (hshape : Keyed.find? "shape" fields = some (.object shape)) {field : String} {entry : Json}
    (hentry : (field, entry) ∈ shape) {name : String} (hname : entry.Mentions name) :
    ∃ element, Denotes ⟨s.definitions.take i⟩ name element := by
  obtain ⟨d, -, hdescribes⟩ := hs.exists_definition h
  cases hdescribes with
  | @record _ shape' r _ _ shaped types =>
    cases shaped.symm.trans hshape
    obtain ⟨⟨_, type⟩, -, -, hdeclares⟩ := exists_of_forall₂_left types hentry
    cases hname with
    | single =>
      cases hdeclares with
      | single denotes => exact ⟨_, denotes⟩
    | listOf =>
      cases hdeclares with
      | listOf denotes => exact ⟨_, denotes⟩

end Loaded

/-- A document up to one of its records gives the definitions before that record. -/
theorem exists_before {document : SchemaDocument} {k : Nat} (hk : k ≤ document.records.length)
    (h : ofDocument firstId document = .ok s) :
    ∃ before, ofDocument firstId ⟨document.types, document.records.take k⟩ = .ok before ∧
      s.definitions.take (document.types.length + k) = before.definitions := by
  have hsplit : document.descriptors =
      SchemaDocument.descriptors ⟨document.types, document.records.take k⟩ ++
        (document.records.drop k).map .record := by
    rw [SchemaDocument.descriptors, SchemaDocument.descriptors, List.append_assoc,
      ← List.map_append, List.take_append_drop]
  rw [ofDocument_eq, hsplit, loadAll_append] at h
  obtain ⟨before, hbefore, hs⟩ := bind_eq_ok.mp h
  obtain ⟨added, hadded, hlength⟩ := definitions_loadAll hbefore
  obtain ⟨_, hafter, -⟩ := definitions_loadAll hs
  refine ⟨before, (ofDocument_eq _ _).trans hbefore, ?_⟩
  rw [hafter]
  refine List.take_left' ?_
  rw [hadded, List.length_append, hlength]
  simp [SchemaDocument.descriptors, Schema.empty, Nat.min_eq_left hk]

/-- A text that is accepted gives one definition for each descriptor, in their order, and
every record is made of what stands before it. A text in which a shape names anything else is
refused. -/
theorem load_closed {read : SchemaReader} (unique : read.Unique) (firstId : Nat) (text : String) :
    (∀ s, load read firstId text = .ok s → ∃ document, read text = .ok document ∧
      Loaded firstId document.descriptors s ∧ s.Closed) ∧
    ∀ document k fields shape field entry name, read text = .ok document →
      document.records[k]? = some (.object fields) →
      Keyed.find? "shape" fields = some (.object shape) → (field, entry) ∈ shape →
      entry.Mentions name → Primitive.ofName? name = none →
      (∀ before, ofDocument firstId ⟨document.types, document.records.take k⟩ = .ok before →
        before.find? name = none) →
      ∃ f, load read firstId text = .error f := by
  constructor
  · intro s h
    obtain ⟨document, hread, -, hs⟩ := loaded_of_load unique h
    exact ⟨document, hread, hs, hs.closed⟩
  · intro document k fields shape field entry name hread hrecord hshape hentry hname hprimitive
      hbefore
    cases h : load read firstId text with
    | error f => exact ⟨f, rfl⟩
    | ok s =>
      obtain ⟨document', hread', hload, hs⟩ := loaded_of_load unique h
      cases hread.symm.trans hread'
      have hk := (List.getElem?_eq_some_iff.mp hrecord).1
      obtain ⟨before, hprefix, htake⟩ := exists_before hk.le hload
      have hdescriptor : document.descriptors[document.types.length + k]? =
          some (.record (.object fields)) := by
        simp [SchemaDocument.descriptors, List.getElem?_append_right, hrecord]
      obtain ⟨element, hdenotes⟩ := hs.denotes hdescriptor hshape hentry hname
      rw [htake] at hdenotes
      cases hdenotes with
      | primitive primitive => cases hprimitive.symm.trans primitive
      | user _ found => cases (hbefore before hprefix).symm.trans found

theorem load_text {document : SchemaDocument} (h : document.Plain) (firstId : Nat) :
    load SchemaDocument.parse firstId document.text = ofDocument firstId document := by
  rw [load, h.parse_text]

def personJson : Json :=
  .object [("recordName", .string "Person"), ("shape", .object [("name", .string "String")])]

def teamJson : Json :=
  .object [("recordName", .string "Team"),
    ("shape", .object [("members", .array [.string "Person"])])]

def teamDocument : SchemaDocument :=
  ⟨[], [personJson, teamJson]⟩

/-- A team before the persons. -/
def turnedDocument : SchemaDocument :=
  ⟨[], [teamJson, personJson]⟩

theorem plain_personJson : Json.Plain (Json.depthLimit - 2) personJson := by
  simp [personJson, Json.depthLimit, Keyed.Unique]

theorem plain_teamJson : Json.Plain (Json.depthLimit - 2) teamJson := by
  simp [teamJson, Json.depthLimit, Keyed.Unique]

theorem plain_teamDocument : teamDocument.Plain where
  types := List.forall_mem_nil _
  records := by simp [teamDocument, plain_personJson, plain_teamJson]

theorem plain_turnedDocument : turnedDocument.Plain where
  types := List.forall_mem_nil _
  records := by simp [turnedDocument, plain_personJson, plain_teamJson]

theorem load_team : load SchemaDocument.parse 0 teamDocument.text =
    .ok ⟨[.record Record.person, .record Record.team]⟩ := by
  rw [load_text plain_teamDocument]
  rfl

theorem load_closed_team : SchemaReader.Unique SchemaDocument.parse ∧
    (∃ document, SchemaDocument.parse teamDocument.text = .ok document ∧
      Loaded 0 document.descriptors ⟨[.record Record.person, .record Record.team]⟩ ∧
      Closed ⟨[.record Record.person, .record Record.team]⟩) ∧
    ∃ f, load SchemaDocument.parse 0 turnedDocument.text = .error f := by
  have unique := SchemaDocument.unique_parse
  refine ⟨unique, (load_closed unique 0 teamDocument.text).1 _ load_team, ?_⟩
  refine (load_closed unique 0 turnedDocument.text).2 turnedDocument 0 _ _ "members"
    (.array [.string "Person"]) "Person" plain_turnedDocument.parse_text rfl rfl
    List.mem_cons_self (.listOf "Person") rfl ?_
  intro before hbefore
  cases hbefore
  rfl

end Schema
end TaggedData
