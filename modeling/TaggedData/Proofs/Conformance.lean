import TaggedData.Lifting
import TaggedData.Proofs.Definitions
import TaggedData.Proofs.Validation

/-!
# Conforming documents

The grammar of the documents of a record, and the value that each of them denotes. Lifting
accepts the documents of the grammar and no others, although on its way it passes on what
does not fit and leaves it to the validation of the record around it.
-/

namespace TaggedData

/-- A string names a constructor without arguments, an object with one key a constructor
with its arguments, and a single argument may stand without a list around it. -/
inductive Union.Fits (u : Union) : Json → Prop
  | label {c} (mem : c ∈ u.constructors) (arity : c.arity = 0) : Fits u (.string c.label)
  | arguments {c items} (mem : c ∈ u.constructors) (arity : c.arity = items.length) :
      Fits u (.object [(c.label, .array items)])
  | argument {c j} (mem : c ∈ u.constructors) (arity : c.arity = 1)
      (single : ∀ items, j ≠ .array items) : Fits u (.object [(c.label, j)])

mutual

/-- An object with exactly the fields of the record, each of which fits its type. -/
inductive Record.Conforms : Record → Json → Prop
  | object {r : Record} {entries}
      (names : ∀ name, name ∈ Keyed.keys entries ↔ name ∈ Keyed.keys r.fields)
      (fits : ∀ name type j, (name, type) ∈ r.fields → (name, j) ∈ entries →
        FieldType.Fits type j) : Record.Conforms r (.object entries)

inductive ElementType.Fits : ElementType → Json → Prop
  | primitive {p j} (admitted : p.admits (.ofJson j) = true) :
      ElementType.Fits (.primitive p) j
  | union {u j} (fits : u.Fits j) : ElementType.Fits (.user (.union u)) j
  | record {r j} (conforms : Record.Conforms r j) : ElementType.Fits (.user (.record r)) j

inductive FieldType.Fits : FieldType → Json → Prop
  | single {type j} (fits : ElementType.Fits type j) : FieldType.Fits (.single type) j
  | listOf {type items} (fits : ∀ j ∈ items, ElementType.Fits type j) :
      FieldType.Fits (.listOf type) (.array items)

end

/-- A constructor applied to the plain values of its arguments. It keeps nothing of no argument,
a single argument as it is, and more of them as a list. -/
def Union.denote (u : Union) : Json → Value
  | .string label => .tagged u.name label (.variant 0) .null
  | .object [(label, .array [])] => .tagged u.name label (.variant 0) .null
  | .object [(label, .array [argument])] => .tagged u.name label (.variant 1) (.ofJson argument)
  | .object [(label, .array arguments)] =>
    .tagged u.name label (.variant arguments.length) (.list (arguments.map .ofJson))
  | .object [(label, argument)] => .tagged u.name label (.variant 1) (.ofJson argument)
  | document => .ofJson document

mutual

def ElementType.denote : ElementType → Json → Value
  | .primitive _, document => .ofJson document
  | .user d, document => d.denote document

def Definition.denote : Definition → Json → Value
  | .union u, document => u.denote document
  | .record r, document => r.denote document

def Record.denote : Record → Json → Value
  | ⟨_, name, _, types, _, _⟩, .object entries =>
    .tagged name name .record (.object (entries.map fun (key, j) => (key, types.denote key j)))
  | _, document => .ofJson document

def FieldType.denote : FieldType → Json → Value
  | .single type, document => type.denote document
  | .listOf type, .array items => .list (items.map fun item => type.denote item)
  | .listOf _, document => .ofJson document

/-- The denotation by the type that is declared for a key. -/
def FieldTable.denote {keys : List String} (table : FieldTable keys) (key : String)
    (document : Json) : Value :=
  match table with
  | .nil => .ofJson document
  | .cons field type rest => if field = key then type.denote document else rest.denote key document

end

namespace FieldTable

variable {key : String} {type : FieldType}

theorem denote_eq {keys : List String} {table : FieldTable keys}
    (h : Keyed.find? key table.toList = some type) (j : Json) : table.denote key j = type.denote j := by
  match table with
  | .nil => simp [toList, Keyed.find?] at h
  | .cons field declared rest =>
    by_cases hfield : field = key
    · have : declared = type := by simpa [toList, Keyed.find?, hfield] using h
      simp [denote, hfield, this]
    · simp only [denote, hfield, ↓reduceIte]
      exact denote_eq (by simpa [toList, Keyed.find?, hfield] using h) j

theorem lift_eq {keys : List String} {table : FieldTable keys}
    (h : Keyed.find? key table.toList = some type) (j : Json) : table.lift key j = type.lift j := by
  match table with
  | .nil => simp [toList, Keyed.find?] at h
  | .cons field declared rest =>
    by_cases hfield : field = key
    · have : declared = type := by simpa [toList, Keyed.find?, hfield] using h
      simp [lift, hfield, this]
    · simp only [lift, hfield, ↓reduceIte]
      exact lift_eq (by simpa [toList, Keyed.find?, hfield] using h) j

theorem lift_none {keys : List String} {table : FieldTable keys}
    (h : Keyed.find? key table.toList = none) (j : Json) :
    table.lift key j = .ok (.ofJson j) := by
  match table with
  | .nil => rfl
  | .cons field declared rest =>
    by_cases hfield : field = key
    · simp [toList, Keyed.find?, hfield] at h
    · simp only [lift, hfield, ↓reduceIte]
      exact lift_none (by simpa [toList, Keyed.find?, hfield] using h) j

end FieldTable

theorem Record.denote_object (r : Record) (entries : List (String × Json)) :
    r.denote (.object entries) =
      r.instanceOf (entries.map fun (key, j) => (key, r.types.denote key j)) := by
  obtain ⟨id, name, keys, types, lensTable, inStep⟩ := r
  rfl

theorem Definition.is_ofJson (d : Definition) (j : Json) : d.is (.ofJson j) = false := by
  cases j <;> rfl

namespace Union

variable {u : Union} {label : String} {arguments : List Value} {j : Json} {v : Value}

theorem WellFormed.construct_eq_ok_iff (hu : u.WellFormed) :
    u.construct label arguments = .ok v ↔
      (∃ c ∈ u.constructors, c.label = label ∧ c.arity = arguments.length) ∧
        v = .tagged u.name label (.variant arguments.length) (Constructor.payload arguments) := by
  constructor
  · intro h
    unfold construct at h
    split at h
    · rename_i c hfind
      obtain ⟨hc, hlabel⟩ := mem_of_find? hfind
      unfold Constructor.call at h
      split_ifs at h with harity
      cases h
      exact ⟨⟨c, hc, hlabel, harity.symm⟩, by rw [hu.typeName_eq c hc, hlabel, harity]⟩
    · cases h
  · rintro ⟨⟨c, hc, rfl, harity⟩, rfl⟩
    simp [construct, hu.find?_label hc, Constructor.call, harity, hu.typeName_eq c hc]

theorem lift_of_mem_labels_string (h : label ∈ u.labels) :
    u.lift (.string label) = u.construct label [] :=
  if_pos (find?_isSome_iff.mpr h)

theorem lift_of_mem_labels_object (h : label ∈ u.labels) :
    u.lift (.object [(label, j)]) = u.construct label (argumentsOf j) :=
  if_pos (find?_isSome_iff.mpr h)

theorem lift_plain (hstring : ∀ label, j = .string label → label ∉ u.labels)
    (hobject : ∀ label argument, j = .object [(label, argument)] → label ∉ u.labels) :
    u.lift j = .ok (.ofJson j) := by
  unfold lift
  split
  · rename_i label
    exact if_neg fun h => hstring label rfl (find?_isSome_iff.mp h)
  · rename_i label argument
    exact if_neg fun h => hobject label argument rfl (find?_isSome_iff.mp h)
  · rfl

theorem argumentsOf_array (items : List Json) :
    argumentsOf (.array items) = items.map .ofJson :=
  Value.ofJsonItems_eq_map items

theorem argumentsOf_single (h : ∀ items, j ≠ .array items) : argumentsOf j = [.ofJson j] := by
  cases j with
  | array items => exact absurd rfl (h items)
  | _ => rfl

theorem denote_object (label : String) (j : Json) : u.denote (.object [(label, j)]) =
    .tagged u.name label (.variant (argumentsOf j).length)
      (Constructor.payload (argumentsOf j)) := by
  cases j with
  | array items =>
    rw [argumentsOf_array, List.length_map]
    rcases items with _ | ⟨first, _ | ⟨second, rest⟩⟩ <;> rfl
  | _ => rfl

theorem is_tagged (label : String) (form : Form) (payload : Value) :
    (Definition.union u).is (.tagged u.name label form payload) = true := by
  simp [Definition.is, Value.tags, Definition.name]

/-- A document is read as a value of the union exactly when it fits. -/
theorem WellFormed.lift_iff (hu : u.WellFormed) :
    (u.lift j = .ok v ∧ (Definition.union u).is v = true) ↔ u.Fits j ∧ v = u.denote j := by
  constructor
  · rintro ⟨hlift, his⟩
    by_cases hstring : ∃ label, j = .string label ∧ label ∈ u.labels
    · obtain ⟨label, rfl, hlabel⟩ := hstring
      rw [lift_of_mem_labels_string hlabel, hu.construct_eq_ok_iff] at hlift
      obtain ⟨⟨c, hc, rfl, harity⟩, rfl⟩ := hlift
      exact ⟨.label hc harity, rfl⟩
    by_cases hobject : ∃ label argument, j = .object [(label, argument)] ∧ label ∈ u.labels
    · obtain ⟨label, argument, rfl, hlabel⟩ := hobject
      rw [lift_of_mem_labels_object hlabel, hu.construct_eq_ok_iff] at hlift
      obtain ⟨⟨c, hc, rfl, harity⟩, rfl⟩ := hlift
      refine ⟨?_, (denote_object _ _).symm⟩
      by_cases harray : ∃ items, argument = .array items
      · obtain ⟨items, rfl⟩ := harray
        rw [argumentsOf_array, List.length_map] at harity
        exact .arguments hc harity
      · rw [not_exists] at harray
        rw [argumentsOf_single harray] at harity
        exact .argument hc harity harray
    · rw [lift_plain (fun label hj hl => hstring ⟨label, hj, hl⟩)
        (fun label argument hj hl => hobject ⟨label, argument, hj, hl⟩)] at hlift
      cases hlift
      rw [Definition.is_ofJson] at his
      cases his
  · rintro ⟨hfits, rfl⟩
    cases hfits with
    | @label c hc harity =>
      rw [lift_of_mem_labels_string (mem_labels.mpr ⟨c, hc, rfl⟩), hu.construct_eq_ok_iff]
      exact ⟨⟨⟨c, hc, rfl, harity⟩, rfl⟩, is_tagged _ _ _⟩
    | @arguments c items hc harity =>
      rw [lift_of_mem_labels_object (mem_labels.mpr ⟨c, hc, rfl⟩), hu.construct_eq_ok_iff,
        denote_object]
      refine ⟨⟨⟨c, hc, rfl, ?_⟩, rfl⟩, is_tagged _ _ _⟩
      rw [argumentsOf_array, List.length_map, harity]
    | @argument c j hc harity hsingle =>
      rw [lift_of_mem_labels_object (mem_labels.mpr ⟨c, hc, rfl⟩), hu.construct_eq_ok_iff,
        denote_object]
      refine ⟨⟨⟨c, hc, rfl, ?_⟩, rfl⟩, is_tagged _ _ _⟩
      rw [argumentsOf_single hsingle]
      exact harity

end Union

namespace Record

def Lifts (r : Record) (entry : String × Json) (field : String × Value) : Prop :=
  field.1 = entry.1 ∧ r.types.lift entry.1 entry.2 = .ok field.2

theorem mapM_eq_ok_iff_lifts {r : Record} {entries : List (String × Json)} {fields : Keyed Value} :
    (entries.mapM fun (key, j) => do return (key, ← r.types.lift key j)) = .ok fields ↔
      List.Forall₂ r.Lifts entries fields := by
  have hlifts : ∀ (entry : String × Json) (field : String × Value),
      (do return (entry.1, ← r.types.lift entry.1 entry.2)) = Except.ok field ↔
        r.Lifts entry field := by
    intro entry field
    obtain ⟨key, v⟩ := field
    simp only [bind_eq_ok, Lifts, pure, Except.pure, Except.ok.injEq, Prod.mk.injEq]
    constructor
    · rintro ⟨w, hw, rfl, rfl⟩
      exact ⟨rfl, hw⟩
    · rintro ⟨rfl, hv⟩
      exact ⟨v, hv, rfl, rfl⟩
  rw [mapM_eq_ok_iff]
  constructor
  · intro h
    exact h.imp fun entry field => (hlifts entry field).mp
  · intro h
    exact h.imp fun entry field => (hlifts entry field).mpr

theorem lift_object_eq_ok_iff {r : Record} {entries : List (String × Json)} {v : Value} :
    r.lift (.object entries) = .ok v ↔
      ∃ fields, List.Forall₂ r.Lifts entries fields ∧ r.of (.object fields) = .ok v := by
  obtain ⟨id, name, keys, types, lensTable, inStep⟩ := r
  simp only [lift, bind_eq_ok, ← mapM_eq_ok_iff_lifts]

/-- What is not an object is refused. -/
theorem exists_object_of_lift {r : Record} {j : Json} {v : Value} (h : r.lift j = .ok v) :
    ∃ entries, j = .object entries := by
  obtain ⟨id, name, keys, types, lensTable, inStep⟩ := r
  cases j with
  | object entries => exact ⟨entries, rfl⟩
  | _ => cases h

theorem definition_lift {r : Record} {j : Json} {v : Value} (h : r.lift j = .ok v) :
    (Definition.record r).lift j = .ok v := by
  obtain ⟨entries, rfl⟩ := exists_object_of_lift h
  exact h

theorem keys_of_lifts {r : Record} {entries : List (String × Json)} {fields : Keyed Value}
    (h : List.Forall₂ r.Lifts entries fields) : Keyed.keys fields = Keyed.keys entries :=
  Keyed.keys_eq_of_forall₂ (h.imp fun _ _ hentry => hentry.1)

theorem exists_field_of_lifts {r : Record} {entries : List (String × Json)} {fields : Keyed Value}
    (h : List.Forall₂ r.Lifts entries fields) {name : String} {j : Json}
    (hmem : (name, j) ∈ entries) :
    ∃ v, (name, v) ∈ fields ∧ r.types.lift name j = .ok v := by
  obtain ⟨⟨key, v⟩, hv, rfl, hlift⟩ := exists_of_forall₂_left h hmem
  exact ⟨v, hv, hlift⟩

theorem exists_entry_of_lifts {r : Record} {entries : List (String × Json)} {fields : Keyed Value}
    (h : List.Forall₂ r.Lifts entries fields) {name : String} {v : Value}
    (hmem : (name, v) ∈ fields) :
    ∃ j, (name, j) ∈ entries ∧ r.types.lift name j = .ok v := by
  obtain ⟨⟨key, j⟩, hj, rfl, hlift⟩ := exists_of_forall₂ h hmem
  exact ⟨j, hj, hlift⟩

end Record

/-- Lifting gives a value that the type admits exactly for the documents that fit, and this
value is what the document denotes. -/
def ElementType.Faithful (type : ElementType) : Prop :=
  ∀ j v, j.Unique → ((type.lift j = .ok v ∧ type.admits v = true) ↔
    type.Fits j ∧ v = type.denote j)

def FieldType.Faithful (type : FieldType) : Prop :=
  ∀ j v, j.Unique → ((type.lift j = .ok v ∧ type.admits v = true) ↔
    type.Fits j ∧ v = type.denote j)

theorem ElementType.faithful_primitive (p : Primitive) : (primitive p).Faithful := by
  intro j v _
  constructor
  · rintro ⟨hlift, hadmits⟩
    cases hlift
    exact ⟨.primitive hadmits, rfl⟩
  · rintro ⟨hfits, rfl⟩
    cases hfits with
    | primitive hadmitted => exact ⟨rfl, hadmitted⟩

theorem Union.WellFormed.faithful {u : Union} (hu : u.WellFormed) :
    (ElementType.user (.union u)).Faithful := by
  intro j v _
  refine (hu.lift_iff (v := v)).trans (and_congr_left fun _ => ?_)
  exact ⟨.union, fun h => by cases h; assumption⟩

theorem FieldType.faithful_single {type : ElementType} (h : type.Faithful) :
    (single type).Faithful := by
  intro j v hj
  refine (h j v hj).trans (and_congr_left fun _ => ?_)
  exact ⟨.single, fun h => by cases h; assumption⟩

theorem ElementType.Faithful.items_iff {type : ElementType} (h : type.Faithful)
    {items : List Json} (hitems : ∀ j ∈ items, j.Unique) (vs : List Value) :
    (items.mapM (fun item => type.lift item) = .ok vs ∧ ∀ v ∈ vs, type.admits v = true) ↔
      (∀ j ∈ items, type.Fits j) ∧ vs = items.map fun item => type.denote item := by
  rw [mapM_eq_ok_iff, ← forall₂_map_iff]
  induction items generalizing vs with
  | nil => cases vs <;> simp
  | cons item rest ih =>
    obtain ⟨hitem, hrest⟩ := List.forall_mem_cons.mp hitems
    simp only [List.forall₂_cons_left_iff, ← ih hrest]
    constructor
    · rintro ⟨⟨v, vs, hlift, hlifts, rfl⟩, hadmits⟩
      rw [List.forall_mem_cons] at hadmits
      exact ⟨v, vs, (h item v hitem).mp ⟨hlift, hadmits.1⟩, ⟨hlifts, hadmits.2⟩, rfl⟩
    · rintro ⟨v, vs, hfits, ⟨hlifts, hadmits⟩, rfl⟩
      obtain ⟨hlift, hv⟩ := (h item v hitem).mpr hfits
      exact ⟨⟨v, vs, hlift, hlifts, rfl⟩, List.forall_mem_cons.mpr ⟨hv, hadmits⟩⟩

theorem FieldType.faithful_listOf {type : ElementType} (h : type.Faithful) :
    (listOf type).Faithful := by
  intro j v hj
  by_cases harray : ∃ items, j = .array items
  · obtain ⟨items, rfl⟩ := harray
    have hiff := h.items_iff (Json.unique_array.mp hj)
    constructor
    · rintro ⟨hlift, hadmits⟩
      obtain ⟨vs, hvs, rfl⟩ := map_eq_ok.mp hlift
      obtain ⟨hfits, rfl⟩ := (hiff vs).mp ⟨hvs, by simpa [admits] using hadmits⟩
      exact ⟨.listOf hfits, rfl⟩
    · rintro ⟨hfits, rfl⟩
      cases hfits with
      | listOf hfits =>
        obtain ⟨hlift, hadmits⟩ := (hiff _).mpr ⟨hfits, rfl⟩
        exact ⟨map_eq_ok.mpr ⟨_, hlift, rfl⟩, by simpa [admits, denote] using hadmits⟩
  · -- What is not an array stays plain, and a plain value that is no list is not admitted.
    constructor
    · rintro ⟨hlift, hadmits⟩
      cases j with
      | array items => exact absurd ⟨items, rfl⟩ harray
      | _ =>
        cases hlift
        cases hadmits
    · rintro ⟨hfits, -⟩
      cases hfits
      exact absurd ⟨_, rfl⟩ harray

theorem FieldType.faithful_of_element {type : FieldType}
    (h : ∀ d, type.element = .user d → (ElementType.user d).Faithful) : type.Faithful := by
  have helement : type.element.Faithful := by
    cases he : type.element with
    | primitive p => exact ElementType.faithful_primitive p
    | user d => exact h d he
  cases type with
  | single element => exact faithful_single helement
  | listOf element => exact faithful_listOf helement

namespace Record

variable {r : Record} {entries : List (String × Json)} {v : Value}

theorem mem_denoted {denote : String → Json → Value} {name : String} :
    (name, v) ∈ entries.map (fun (key, j) => (key, denote key j)) ↔
      ∃ j, (name, j) ∈ entries ∧ v = denote name j := by
  simp only [List.mem_map, Prod.mk.injEq, Prod.exists]
  constructor
  · rintro ⟨key, j, hmem, rfl, rfl⟩
    exact ⟨j, hmem, rfl⟩
  · rintro ⟨j, hmem, rfl⟩
    exact ⟨name, j, hmem, rfl, rfl⟩

/-- A document of a record is an object with the fields of the record, and it denotes the value
with what its entries denote. -/
theorem exists_entries_of_fits {j : Json}
    (h : (ElementType.user (.record r)).Fits j) : ∃ entries, j = .object entries ∧
      (∀ name, name ∈ Keyed.keys entries ↔ name ∈ Keyed.keys r.fields) ∧
      (∀ name type k, (name, type) ∈ r.fields → (name, k) ∈ entries → type.Fits k) ∧
      (ElementType.user (.record r)).denote j =
        r.instanceOf (entries.map fun (key, k) => (key, r.types.denote key k)) := by
  cases h with
  | record hconforms =>
    cases hconforms with
    | @object _ entries hnames hfits =>
      exact ⟨entries, rfl, hnames, hfits, denote_object r entries⟩

theorem Distinct.conforms_of_lifts (hr : r.Distinct)
    (htypes : ∀ name type, (name, type) ∈ r.fields → type.Faithful)
    (hu : (Json.object entries).Unique) {fields : Keyed Value}
    (hlifts : List.Forall₂ r.Lifts entries fields) (haccepts : r.Accepts fields) :
    r.Conforms (.object entries) ∧
      fields = entries.map fun (key, j) => (key, r.types.denote key j) := by
  obtain ⟨hkeys, hentries⟩ := Json.unique_object.mp hu
  have hsame := keys_of_lifts hlifts
  have hunique : Keyed.Unique fields := by rwa [Keyed.Unique, hsame]
  have hfield : ∀ name type j w, (name, type) ∈ r.fields → (name, j) ∈ entries →
      (name, w) ∈ fields → r.types.lift name j = .ok w →
        type.Fits j ∧ w = type.denote j := by
    intro name type j w htype hj hw hlift
    have hfind := (Keyed.find?_eq_some_iff hr.unique).mpr htype
    rw [FieldTable.lift_eq hfind] at hlift
    exact (htypes name type htype j w (hentries _ hj)).mp ⟨hlift,
      haccepts.admitted name type w hfind ((Keyed.find?_eq_some_iff hunique).mpr hw)⟩
  have hnames : ∀ name, name ∈ Keyed.keys entries ↔ name ∈ Keyed.keys r.fields := by
    intro name
    rw [← hsame]
    exact haccepts.keys name
  constructor
  · refine .object hnames fun name type j htype hj => ?_
    obtain ⟨w, hw, hlift⟩ := exists_field_of_lifts hlifts hj
    exact (hfield name type j w htype hj hw hlift).1
  · have hdenotes : List.Forall₂ (fun entry field =>
        True ∧ field = (entry.1, r.types.denote entry.1 entry.2)) entries fields := by
      rw [List.forall₂_iff_zip] at hlifts ⊢
      refine ⟨hlifts.1, ?_⟩
      rintro ⟨name, j⟩ ⟨key, w⟩ hmem
      obtain ⟨hj, hw⟩ := List.of_mem_zip hmem
      obtain ⟨rfl, hlift⟩ := hlifts.2 hmem
      obtain ⟨type, htype⟩ := Keyed.exists_mem_of_mem_keys
        ((hnames _).mp (Keyed.mem_keys_of_mem hj))
      have hfind := (Keyed.find?_eq_some_iff hr.unique).mpr htype
      have hw' := (hfield _ type j w htype hj hw hlift).2
      exact ⟨trivial, by rw [hw', FieldTable.denote_eq hfind]⟩
    exact (forall₂_map_iff.mp hdenotes).2

theorem Distinct.lifts_of_conforms (hr : r.Distinct)
    (htypes : ∀ name type, (name, type) ∈ r.fields → type.Faithful)
    (hu : (Json.object entries).Unique) (hconforms : r.Conforms (.object entries)) :
    List.Forall₂ r.Lifts entries
        (entries.map fun (key, j) => (key, r.types.denote key j)) ∧
      r.Accepts (entries.map fun (key, j) => (key, r.types.denote key j)) := by
  obtain ⟨-, hentries⟩ := Json.unique_object.mp hu
  obtain ⟨hnames, hfits⟩ : _ ∧ _ := by
    cases hconforms with
    | object hnames hfits => exact ⟨hnames, hfits⟩
  have hfield : ∀ name type j, (name, type) ∈ r.fields → (name, j) ∈ entries →
      type.lift j = .ok (type.denote j) ∧ type.admits (type.denote j) = true := by
    intro name type j htype hj
    exact (htypes name type htype j _ (hentries _ hj)).mpr ⟨hfits name type j htype hj, rfl⟩
  constructor
  · rw [List.forall₂_map_right_iff, List.forall₂_same]
    rintro ⟨name, j⟩ hj
    obtain ⟨type, htype⟩ := Keyed.exists_mem_of_mem_keys
      ((hnames _).mp (Keyed.mem_keys_of_mem hj))
    have hfind := (Keyed.find?_eq_some_iff hr.unique).mpr htype
    have hlift : r.types.lift name j = .ok (r.types.denote name j) := by
      rw [FieldTable.lift_eq hfind, FieldTable.denote_eq hfind]
      exact (hfield name type j htype hj).1
    exact ⟨rfl, hlift⟩
  · refine ⟨fun name => ?_, fun name type v hfind hv => ?_⟩
    · rw [← hnames]
      simp [Keyed.keys, Function.comp_def]
    · obtain ⟨j, hj, rfl⟩ := mem_denoted.mp (Keyed.mem_of_find? hv)
      rw [FieldTable.denote_eq hfind]
      exact (hfield name type j ((Keyed.find?_eq_some_iff hr.unique).mp hfind) hj).2

theorem Distinct.lift_object_iff (hr : r.Distinct)
    (htypes : ∀ name type, (name, type) ∈ r.fields → type.Faithful)
    (hu : (Json.object entries).Unique) :
    r.lift (.object entries) = .ok v ↔
      r.Conforms (.object entries) ∧ v = r.denote (.object entries) := by
  rw [lift_object_eq_ok_iff, denote_object]
  constructor
  · rintro ⟨fields, hlifts, hof⟩
    obtain ⟨-, haccepts, rfl⟩ := of_object_eq_ok_iff.mp hof
    obtain ⟨hconforms, rfl⟩ := hr.conforms_of_lifts htypes hu hlifts haccepts
    exact ⟨hconforms, rfl⟩
  · rintro ⟨hconforms, rfl⟩
    obtain ⟨hlifts, haccepts⟩ := hr.lifts_of_conforms htypes hu hconforms
    have hne := ne_nil_of_keys hr.fields_ne fun name => (haccepts.keys name).mpr
    exact ⟨_, hlifts, of_object_eq_ok_iff.mpr ⟨hne, haccepts, rfl⟩⟩

theorem is_instanceOf (r : Record) (fields : Keyed Value) :
    (Definition.record r).is (r.instanceOf fields) = true := by
  simp [Definition.is, instanceOf, Value.tags, Definition.name]

theorem Distinct.faithful (hr : r.Distinct)
    (htypes : ∀ name type, (name, type) ∈ r.fields → type.Faithful) :
    (ElementType.user (.record r)).Faithful := by
  intro j v hj
  by_cases hobject : ∃ entries, j = .object entries
  · obtain ⟨entries, rfl⟩ := hobject
    have hiff := hr.lift_object_iff htypes hj (v := v)
    constructor
    · rintro ⟨hlift, -⟩
      obtain ⟨hconforms, hv⟩ := hiff.mp hlift
      exact ⟨.record hconforms, hv⟩
    · rintro ⟨hfits, rfl⟩
      cases hfits with
      | record hconforms =>
        refine ⟨hiff.mpr ⟨hconforms, rfl⟩, ?_⟩
        have hdenote := denote_object r entries
        exact (congrArg (Definition.record r).is hdenote).trans (is_instanceOf _ _)
  · -- A record takes nothing but objects, so the document stays plain and is refused.
    constructor
    · rintro ⟨hlift, his⟩
      have hplain : v = .ofJson j := by
        cases j with
        | object entries => exact absurd ⟨entries, rfl⟩ hobject
        | _ =>
          cases hlift
          rfl
      rw [hplain] at his
      exact absurd (his.symm.trans (Definition.is_ofJson _ j)) (by simp)
    · rintro ⟨hfits, -⟩
      cases hfits with
      | record hconforms =>
        cases hconforms
        exact absurd ⟨_, rfl⟩ hobject

end Record

theorem Definition.WellFormed.faithful {d : Definition} (h : d.WellFormed) :
    (ElementType.user d).Faithful := by
  induction h with
  | union proper => exact proper.faithful
  | @record r distinct inner ih =>
    refine distinct.faithful fun name type hfield => ?_
    exact FieldType.faithful_of_element fun d hd => ih d ⟨name, type, hfield, hd⟩

namespace Record

/-- Lifting accepts the documents of the grammar and no others, and gives what they
denote. -/
theorem lift_eq_ok_iff {id : Nat} {descriptor : Value} {r : Record} (unique : descriptor.Unique)
    (known : ∀ d, descriptor.Part (.definition d) → d.Accepted)
    (defined : define id descriptor = .ok r) {document : Json} (hu : document.Unique) (v : Value) :
    r.lift document = .ok v ↔ r.Conforms document ∧ v = r.denote document := by
  have distinct := define_distinct defined unique
  have htypes : ∀ name type, (name, type) ∈ r.fields → type.Faithful := by
    intro name type hfield
    refine FieldType.faithful_of_element fun d hd => ?_
    have hpart := Definition.part_of_refers defined ⟨name, type, hfield, hd⟩
    exact (known d hpart).wellFormed.faithful
  by_cases hobject : ∃ entries, document = .object entries
  · obtain ⟨entries, rfl⟩ := hobject
    exact distinct.lift_object_iff htypes hu
  · constructor
    · intro h
      exact absurd (exists_object_of_lift h) hobject
    · rintro ⟨hconforms, -⟩
      cases hconforms
      exact absurd ⟨_, rfl⟩ hobject

def person : Record :=
  .ofTypes 0 "Person" [("name", .single (.primitive .string))]

def team : Record :=
  .ofTypes 1 "Team" [("members", .listOf (.user (.record person)))]

theorem define_person : define 0 (describe "Person" [("name", .primitive .string)]) = .ok person :=
  rfl

theorem accepted_person : (Definition.record person).Accepted := by
  refine .record ?_ (fun e he => ?_) define_person
  · simp [describe, Keyed.Unique, Value.Unique, Value.FieldsUnique]
  · simp [describe] at he

def badge : Union :=
  ⟨2, "Badge", [⟨2, "Badge", "Plain", 0⟩, ⟨2, "Badge", "Lettered", 2⟩]⟩

def squad : Record :=
  .ofTypes 3 "Squad"
    [("members", .listOf (.user (.record person))), ("badge", .single (.user (.union badge)))]

theorem conforms_squad : squad.Conforms (.object
    [("badge", .object [("Lettered", .array [.string "A", .bool true])]),
      ("members", .array [.object [("name", .string "Ann")]])]) := by
  have hperson : person.Conforms (.object [("name", .string "Ann")]) := by
    refine .object (by simp [person]) fun name type j htype hj => ?_
    simp only [person, fields_ofTypes, List.mem_singleton, Prod.mk.injEq] at htype hj
    obtain ⟨-, rfl⟩ := htype
    obtain ⟨-, rfl⟩ := hj
    exact .single (.primitive rfl)
  have hbadge : badge.Fits (.object [("Lettered", .array [.string "A", .bool true])]) :=
    .arguments (c := ⟨2, "Badge", "Lettered", 2⟩) (by simp [badge]) rfl
  refine .object (by simp [squad, or_comm]) fun name type j htype hj => ?_
  simp only [squad, fields_ofTypes, List.mem_pair, Prod.mk.injEq] at htype hj
  rcases htype with ⟨rfl, rfl⟩ | ⟨rfl, rfl⟩
  · simp only [String.reduceEq, false_and, true_and, false_or] at hj
    rw [hj]
    refine .listOf fun j hj => ?_
    rw [List.mem_singleton.mp hj]
    exact .record hperson
  · simp only [String.reduceEq, false_and, true_and, or_false] at hj
    rw [hj]
    exact .single (.union hbadge)

theorem lift_eq_ok_iff_squad :
    define 3 (describe "Squad" [("members", .list [.definition (.record person)]),
      ("badge", .definition (.union badge))]) = .ok squad ∧
      squad.lift (.object [("badge", .object [("Lettered", .array [.string "A", .bool true])]),
        ("members", .array [.object [("name", .string "Ann")]])]) =
        .ok (.tagged "Squad" "Squad" .record (.object
          [("badge", .tagged "Badge" "Lettered" (.variant 2) (.list [.string "A", .bool true])),
            ("members", .list
              [.tagged "Person" "Person" .record (.object [("name", .string "Ann")])])])) := by
  have hbadge : Union.define 2 (Union.describe "Badge" [("Plain", 0), ("Lettered", 2)]) =
      .ok badge :=
    Union.define_describe (by decide) (by decide) (by decide +kernel) (by decide)
  have hsquad : define 3 (describe "Squad" [("members", .list [.definition (.record person)]),
      ("badge", .definition (.union badge))]) = .ok squad := rfl
  refine ⟨hsquad, (lift_eq_ok_iff ?_ ?_ hsquad ?_ _).mpr ⟨conforms_squad, rfl⟩⟩
  · simp [describe, Keyed.Unique, Value.Unique, Value.FieldsUnique, Value.AllUnique]
  · intro d hd
    have hd : d = .record person ∨ d = .union badge := by simpa [describe] using hd
    rcases hd with rfl | rfl
    · exact accepted_person
    · exact .union hbadge
  · simp [Json.Unique, Json.FieldsUnique, Json.AllUnique]

end Record
end TaggedData
