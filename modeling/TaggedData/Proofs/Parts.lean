import TaggedData.Proofs.Basic
import TaggedData.Value.OfJson

/-!
# Parts of values

What a value consists of, at any depth: the items of lists, the entries of keyed
structures and the payloads of typed values. A plain value, read from a document, has
neither types nor typed values among its parts.
-/

namespace TaggedData

namespace Json

theorem allUnique_iff {items : List Json} : AllUnique items ↔ ∀ item ∈ items, item.Unique := by
  induction items with
  | nil => simp [AllUnique]
  | cons item rest ih => simp [AllUnique, ih]

theorem fieldsUnique_iff {fields : Keyed Json} :
    FieldsUnique fields ↔ ∀ entry ∈ fields, entry.2.Unique := by
  induction fields with
  | nil => simp [FieldsUnique]
  | cons entry rest ih => simp [FieldsUnique, ih]

@[simp] theorem unique_array {items : List Json} :
    (array items).Unique ↔ ∀ item ∈ items, item.Unique := by
  rw [Unique, allUnique_iff]

@[simp] theorem unique_object {fields : Keyed Json} :
    (object fields).Unique ↔ Keyed.Unique fields ∧ ∀ entry ∈ fields, entry.2.Unique := by
  rw [Unique, fieldsUnique_iff]
  rfl

theorem Unique.induction {motive : (j : Json) → j.Unique → Prop}
    (null : motive .null trivial) (bool : ∀ b, motive (.bool b) trivial)
    (number : ∀ n, motive (.number n) trivial) (string : ∀ text, motive (.string text) trivial)
    (array : ∀ items (h : (Json.array items).Unique),
      (∀ item (mem : item ∈ items), motive item (unique_array.mp h item mem)) →
        motive (.array items) h)
    (object : ∀ fields (h : (Json.object fields).Unique),
      (∀ entry (mem : entry ∈ fields), motive entry.2 ((unique_object.mp h).2 entry mem)) →
        motive (.object fields) h) :
    ∀ (j : Json) (h : j.Unique), motive j h
  | .null, _ => null
  | .bool b, _ => bool b
  | .number n, _ => number n
  | .string text, _ => string text
  | .array items, h => array items h fun item _ =>
    Unique.induction null bool number string array object item _
  | .object fields, h => object fields h fun entry _ =>
    Unique.induction null bool number string array object entry.2 _
termination_by j => sizeOf j
decreasing_by
  · have hlt := List.sizeOf_lt_of_mem ‹_›
    simp only [Json.array.sizeOf_spec]
    omega
  · have hlt := Keyed.sizeOf_lt_of_mem ‹_›
    simp only [Json.object.sizeOf_spec]
    omega

end Json

namespace Value

theorem allUnique_iff {items : List Value} : AllUnique items ↔ ∀ item ∈ items, item.Unique := by
  induction items with
  | nil => simp [AllUnique]
  | cons item rest ih => simp [AllUnique, ih]

theorem fieldsUnique_iff {fields : Keyed Value} :
    FieldsUnique fields ↔ ∀ entry ∈ fields, entry.2.Unique := by
  induction fields with
  | nil => simp [FieldsUnique]
  | cons entry rest ih => simp [FieldsUnique, ih]

@[simp] theorem unique_list {items : List Value} :
    (list items).Unique ↔ ∀ item ∈ items, item.Unique := by
  rw [Unique, allUnique_iff]

@[simp] theorem unique_object {fields : Keyed Value} :
    (object fields).Unique ↔ Keyed.Unique fields ∧ ∀ entry ∈ fields, entry.2.Unique := by
  rw [Unique, fieldsUnique_iff]
  rfl

@[simp] theorem unique_tagged {typeName label : String} {form : Form} {payload : Value} :
    (tagged typeName label form payload).Unique ↔ payload.Unique :=
  Iff.rfl

/-- A value has the second as a part, or is it. -/
inductive Part : Value → Value → Prop
  | refl (v) : Part v v
  | item {items v w} (mem : v ∈ items) (part : Part v w) : Part (.list items) w
  | entry {fields key v w} (mem : (key, v) ∈ fields) (part : Part v w) : Part (.object fields) w
  | payload {typeName label form payload w} (part : Part payload w) :
      Part (.tagged typeName label form payload) w

theorem Part.trans {u v w : Value} (h : u.Part v) (h' : v.Part w) : u.Part w := by
  induction h with
  | refl v => exact h'
  | item mem _ ih => exact .item mem (ih h')
  | entry mem _ ih => exact .entry mem (ih h')
  | payload _ ih => exact .payload (ih h')

theorem Unique.part {v w : Value} (hv : v.Unique) (h : v.Part w) : w.Unique := by
  induction h with
  | refl v => exact hv
  | item mem _ ih => exact ih (unique_list.mp hv _ mem)
  | entry mem _ ih => exact ih ((unique_object.mp hv).2 _ mem)
  | payload _ ih => exact ih hv

@[simp] theorem part_list {items : List Value} {w : Value} :
    (list items).Part w ↔ w = list items ∨ ∃ v ∈ items, v.Part w := by
  constructor
  · intro h
    cases h with
    | refl => exact .inl rfl
    | item mem part => exact .inr ⟨_, mem, part⟩
  · rintro (rfl | ⟨v, mem, part⟩)
    · exact .refl _
    · exact .item mem part

@[simp] theorem part_object {fields : Keyed Value} {w : Value} :
    (object fields).Part w ↔ w = object fields ∨ ∃ entry ∈ fields, entry.2.Part w := by
  constructor
  · intro h
    cases h with
    | refl => exact .inl rfl
    | entry mem part => exact .inr ⟨_, mem, part⟩
  · rintro (rfl | ⟨⟨key, v⟩, mem, part⟩)
    · exact .refl _
    · exact .entry mem part

@[simp] theorem part_tagged {typeName label : String} {form : Form} {payload w : Value} :
    (tagged typeName label form payload).Part w ↔
      w = tagged typeName label form payload ∨ payload.Part w := by
  constructor
  · intro h
    cases h with
    | refl => exact .inl rfl
    | payload part => exact .inr part
  · rintro (rfl | part)
    · exact .refl _
    · exact .payload part

/-- A value that has no parts but itself, and is no definition and no constructor. -/
abbrev isAtom : Value → Bool
  | .nil | .null | .bool _ | .number _ | .string _ | .symbol _ | .function _ | .primitive _ => true
  | .definition _ | .constructor _ | .list _ | .object _ | .tagged .. => false

@[simp] theorem part_atom {v w : Value} (h : v.isAtom = true) : v.Part w ↔ w = v := by
  constructor
  · intro hpart
    cases hpart with
    | refl => rfl
    | _ => cases h
  · rintro rfl
    exact .refl _

@[simp] theorem part_definition {d : Definition} {w : Value} :
    (definition d).Part w ↔ w = definition d := by
  constructor
  · intro h
    cases h with
    | refl => rfl
  · rintro rfl
    exact .refl _

theorem keys_ofJson (fields : Keyed Json) :
    Keyed.keys (fields.map fun (key, j) => (key, ofJson j)) = Keyed.keys fields := by
  simp [Keyed.keys, Function.comp_def]

theorem ofJson_array (items : List Json) : ofJson (.array items) = .list (items.map ofJson) := by
  rw [ofJson, ofJsonItems_eq_map]

theorem ofJson_object (fields : Keyed Json) :
    ofJson (.object fields) = .object (fields.map fun (key, j) => (key, ofJson j)) := by
  rw [ofJson, ofJsonFields_eq_map]

/-- Every definition among the parts is known, every constructor is one of a known union, and
every typed value is there already. No keyed structure has a key twice. -/
structure MadeOf (known : Definition → Prop) (typed : Value → Prop) (v : Value) : Prop where
  unique : v.Unique
  definitions : ∀ d, v.Part (.definition d) → known d
  constructors : ∀ c, v.Part (.constructor c) → ∃ u, known (.union u) ∧ c ∈ u.constructors
  instances : ∀ w, v.Part w → w.isTagged = true → typed w

namespace MadeOf

variable {known known' : Definition → Prop} {typed typed' : Value → Prop} {v w : Value}

theorem part (h : v.MadeOf known typed) (hp : v.Part w) : w.MadeOf known typed where
  unique := h.unique.part hp
  definitions d hd := h.definitions d (hp.trans hd)
  constructors c hc := h.constructors c (hp.trans hc)
  instances w hw := h.instances w (hp.trans hw)

theorem mono (h : v.MadeOf known typed) (hk : ∀ d, known d → known' d)
    (ht : ∀ w, w.isTagged = true → typed w → typed' w) : v.MadeOf known' typed' where
  unique := h.unique
  definitions d hd := hk d (h.definitions d hd)
  constructors c hc := by
    obtain ⟨u, hu, hmem⟩ := h.constructors c hc
    exact ⟨u, hk _ hu, hmem⟩
  instances w hw htagged := ht w htagged (h.instances w hw htagged)

/-- It is enough to look at the value itself and at its proper parts. -/
theorem of_parts (unique : v.Unique) (definition : ∀ d, v = .definition d → known d)
    (constructor : ∀ c, v = .constructor c → ∃ u, known (.union u) ∧ c ∈ u.constructors)
    (tagged : v.isTagged = true → typed v)
    (parts : ∀ w, v.Part w → w = v ∨ w.MadeOf known typed) : v.MadeOf known typed where
  unique := unique
  definitions d hd := by
    rcases parts _ hd with heq | h
    · exact definition d heq.symm
    · exact h.definitions d (.refl _)
  constructors c hc := by
    rcases parts _ hc with heq | h
    · exact constructor c heq.symm
    · exact h.constructors c (.refl _)
  instances w hw htagged := by
    rcases parts _ hw with rfl | h
    · exact tagged htagged
    · exact h.instances w (.refl _) htagged

end MadeOf

variable {known : Definition → Prop} {typed : Value → Prop}

theorem madeOf_list {items : List Value} :
    (list items).MadeOf known typed ↔ ∀ item ∈ items, item.MadeOf known typed := by
  constructor
  · intro h item hitem
    exact h.part (.item hitem (.refl item))
  · intro h
    refine .of_parts (unique_list.mpr fun item hitem => (h item hitem).unique) nofun nofun nofun ?_
    intro w hw
    obtain rfl | ⟨item, hitem, hpart⟩ := part_list.mp hw
    · exact .inl rfl
    · exact .inr ((h item hitem).part hpart)

theorem madeOf_object {fields : Keyed Value} :
    (object fields).MadeOf known typed ↔
      Keyed.Unique fields ∧ ∀ entry ∈ fields, entry.2.MadeOf known typed := by
  constructor
  · intro h
    refine ⟨(unique_object.mp h.unique).1, ?_⟩
    rintro ⟨key, v⟩ hentry
    exact h.part (.entry hentry (.refl v))
  · rintro ⟨hunique, h⟩
    have hu : (object fields).Unique :=
      unique_object.mpr ⟨hunique, fun entry hentry => (h entry hentry).unique⟩
    refine .of_parts hu nofun nofun nofun ?_
    intro w hw
    obtain rfl | ⟨entry, hentry, hpart⟩ := part_object.mp hw
    · exact .inl rfl
    · exact .inr ((h entry hentry).part hpart)

theorem madeOf_tagged {typeName label : String} {form : Form} {payload : Value} :
    (tagged typeName label form payload).MadeOf known typed ↔
      typed (tagged typeName label form payload) ∧ payload.MadeOf known typed := by
  constructor
  · intro h
    exact ⟨h.instances _ (.refl _) rfl, h.part (.payload (.refl payload))⟩
  · rintro ⟨htyped, h⟩
    refine .of_parts (unique_tagged.mpr h.unique) nofun nofun (fun _ => htyped) ?_
    intro w hw
    obtain rfl | hpart := part_tagged.mp hw
    · exact .inl rfl
    · exact .inr (h.part hpart)

theorem madeOf_atom {v : Value} (h : v.isAtom = true) : v.MadeOf known typed := by
  refine .of_parts ?_ ?_ ?_ ?_ fun w hw => .inl ((part_atom h).mp hw)
  · cases v with
    | list | object | tagged => cases h
    | _ => trivial
  · rintro d rfl
    cases h
  · rintro c rfl
    cases h
  · intro htagged
    cases v with
    | tagged => cases h
    | _ => cases htagged

theorem madeOf_definition {d : Definition} (h : known d) : (definition d).MadeOf known typed := by
  refine .of_parts trivial ?_ nofun nofun fun w hw => .inl (part_definition.mp hw)
  rintro e heq
  cases heq
  exact h

theorem madeOf_put {fields : Keyed Value} (h : (object fields).MadeOf known typed) {v : Value}
    (hv : v.MadeOf known typed) {key : String} :
    (object (Keyed.put key v fields)).MadeOf known typed := by
  obtain ⟨hunique, hentries⟩ := madeOf_object.mp h
  refine madeOf_object.mpr ⟨hunique.put key v, fun entry hentry => ?_⟩
  rcases Keyed.mem_of_mem_put hentry with rfl | hentry
  · exact hv
  · exact hentries entry hentry

/-- A plain value is made of nothing but itself. -/
theorem madeOf_ofJson (j : Json) (hj : j.Unique) : (ofJson j).MadeOf known typed := by
  induction j, hj using Json.Unique.induction with
  | null | bool | number | string => exact madeOf_atom rfl
  | array items hu ih =>
    rw [ofJson_array, madeOf_list]
    intro v hv
    obtain ⟨item, hitem, rfl⟩ := List.mem_map.mp hv
    exact ih item hitem
  | object fields hu ih =>
    rw [ofJson_object, madeOf_object, Keyed.Unique, keys_ofJson]
    refine ⟨(Json.unique_object.mp hu).1, ?_⟩
    intro entry hentry
    obtain ⟨⟨key, j⟩, hj, rfl⟩ := List.mem_map.mp hentry
    exact ih _ hj

end Value
end TaggedData
