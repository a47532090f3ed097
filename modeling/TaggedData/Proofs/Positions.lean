import TaggedData.Proofs.Reordering

/-!
# Places in lifted values

A place in a value is reached through declared fields and through items of lists. Checking
a value looks no deeper than at the names of the types of its fields, but in a lifted value
every place holds what its type declares: a plain document never carries a tag, so a tag that
is found there was put by the type itself.
-/

namespace TaggedData

/-- A place in a value of a type, with the type declared for it and the value it holds. -/
inductive Position : FieldType → Value → FieldType → Value → Prop
  | here (type v) : Position type v type v
  | field {s : Record} {typeName label form fields name type v type' w}
      (declared : s.fieldType? name = some type) (given : Keyed.find? name fields = some v)
      (rest : Position type v type' w) :
      Position (.single (.user (.record s))) (.tagged typeName label form (.object fields)) type' w
  | item {element items v type' w} (mem : v ∈ items) (rest : Position (.single element) v type' w) :
      Position (.listOf element) (.list items) type' w

/-- What a place has to hold: a value that the primitive admits, one that a constructor of the
union made and every matcher of the union has a branch for, or one that the record makes again
of its payload. -/
def FieldType.SoundAt : FieldType → Value → Prop
  | .single (.primitive p), w => p.admits w = true
  | .single (.user (.union u)), w => ∃ c ∈ u.constructors, ∃ arguments : List Value,
      arguments.length = c.arity ∧ c.call arguments = .ok w ∧
        u.Dispatches w c.label (Constructor.payload arguments)
  | .single (.user (.record s)), w => ∃ payload, w = .tagged s.name s.name .record payload ∧
      s.of payload = .ok w ∧ w.equals w = true
  | .listOf _, w => ∃ items, w = .list items

theorem Union.WellFormed.exists_call_eq_denote {u : Union} (hu : u.WellFormed) {j : Json}
    (h : u.Fits j) : ∃ c ∈ u.constructors, ∃ items : List Json,
      c.call (items.map .ofJson) = .ok (u.denote j) := by
  cases h with
  | @label c hc harity =>
    refine ⟨c, hc, [], (hu.call_eq_ok_iff hc).mpr ⟨harity.symm, ?_⟩⟩
    rw [harity]
    rfl
  | @arguments c items hc harity =>
    refine ⟨c, hc, items, (hu.call_eq_ok_iff hc).mpr ⟨by simpa using harity.symm, ?_⟩⟩
    rw [denote_object, argumentsOf_array, List.length_map, harity]
  | @argument c j hc harity hsingle =>
    refine ⟨c, hc, [j], (hu.call_eq_ok_iff hc).mpr ⟨harity.symm, ?_⟩⟩
    rw [denote_object, argumentsOf_single hsingle, harity]
    rfl

/-- Some document of the type denotes the value. A definition in the type is well formed. -/
structure FieldType.Denotes (type : FieldType) (v : Value) : Prop where
  proper : ∀ d, type.element = .user d → d.WellFormed
  document : ∃ j, j.Unique ∧ type.Fits j ∧ v = type.denote j

namespace FieldType.Denotes

variable {s : Record} {v : Value}

theorem field {typeName label name : String} {form : Form} {fields : Keyed Value}
    {type : FieldType}
    (h : (FieldType.single (.user (.record s))).Denotes
      (.tagged typeName label form (.object fields)))
    (declared : s.fieldType? name = some type) (given : Keyed.find? name fields = some v) :
    type.Denotes v := by
  have htype := Keyed.mem_of_find? declared
  obtain ⟨j, hj, hfits, hj'⟩ := h.document
  cases hfits with
  | single hfits =>
    obtain ⟨entries, rfl, -, hentry, hdenote⟩ := Record.exists_entries_of_fits hfits
    cases hj'.trans hdenote
    obtain ⟨k, hk, rfl⟩ := Record.mem_denoted.mp (Keyed.mem_of_find? given)
    refine ⟨?_, k, (Json.unique_object.mp hj).2 _ hk, hentry name type k htype hk,
      FieldTable.denote_eq declared k⟩
    intro d hd
    cases h.proper _ rfl with
    | record _ inner => exact inner d ⟨name, type, htype, hd⟩

theorem item {element : ElementType} {items : List Value}
    (h : (FieldType.listOf element).Denotes (.list items)) (hv : v ∈ items) :
    (FieldType.single element).Denotes v := by
  obtain ⟨j, hj, hfits, hdenote⟩ := h.document
  cases hfits with
  | @listOf _ documents hfits =>
    rw [denote, Value.list.injEq] at hdenote
    subst hdenote
    obtain ⟨document, hdocument, rfl⟩ := List.mem_map.mp hv
    exact ⟨h.proper, document, Json.unique_array.mp hj document hdocument,
      .single (hfits document hdocument), rfl⟩

/-- A place below one that denotes denotes itself. -/
theorem position {type type' : FieldType} {w : Value} (h : type.Denotes v)
    (hposition : Position type v type' w) : type'.Denotes w := by
  induction hposition with
  | here => exact h
  | field declared given _ ih => exact ih (h.field declared given)
  | item mem _ ih => exact ih (h.item mem)

theorem soundAt_union {u : Union} (h : (FieldType.single (.user (.union u))).Denotes v) :
    (FieldType.single (.user (.union u))).SoundAt v := by
  have hu : u.WellFormed := by
    cases h.proper _ rfl with
    | union proper => exact proper
  obtain ⟨j, hj, hfits, rfl⟩ := h.document
  have hfits : u.Fits j := by
    cases hfits with
    | single hfits =>
      cases hfits with
      | union hfits => exact hfits
  obtain ⟨c, hc, items, hcall⟩ := hu.exists_call_eq_denote hfits
  obtain ⟨hlength, hdenote⟩ := (hu.call_eq_ok_iff hc).mp hcall
  refine ⟨c, hc, items.map .ofJson, hlength, hcall, ?_⟩
  have hlabel : c.label ∈ u.labels := Union.mem_labels.mpr ⟨c, hc, rfl⟩
  have hdispatches := Union.dispatches_tagged hlabel (.variant c.arity)
    (Constructor.payload (items.map .ofJson))
  rwa [← hdenote] at hdispatches

/-- The document that denotes the value is lifted to it, and the last step of that is the `of`
of the record. -/
theorem soundAt_record (h : (FieldType.single (.user (.record s))).Denotes v) :
    (FieldType.single (.user (.record s))).SoundAt v := by
  have proper := h.proper _ rfl
  obtain ⟨j, hj, hfits, rfl⟩ := h.document
  cases hfits with
  | single hfits =>
    obtain ⟨hlift, -⟩ := (proper.faithful j _ hj).mpr ⟨hfits, rfl⟩
    obtain ⟨-, hequals⟩ := proper.stable j j hj hj (.same j) hfits
    obtain ⟨entries, rfl, -⟩ := Record.exists_entries_of_fits hfits
    obtain ⟨fields, -, hof⟩ := Record.lift_object_eq_ok_iff.mp hlift
    obtain ⟨-, -, hdenote⟩ := Record.of_object_eq_ok_iff.mp hof
    exact ⟨.object fields, hdenote, hof, hequals⟩

theorem soundAt {type : FieldType} (h : type.Denotes v) : type.SoundAt v := by
  match type with
  | .single (.user (.union u)) => exact h.soundAt_union
  | .single (.user (.record s)) => exact h.soundAt_record
  | .single (.primitive p) =>
    obtain ⟨j, -, hfits, rfl⟩ := h.document
    cases hfits with
    | single hfits =>
      cases hfits with
      | primitive hadmitted => exact hadmitted
  | .listOf element =>
    obtain ⟨j, -, hfits, rfl⟩ := h.document
    cases hfits with
    | listOf => exact ⟨_, rfl⟩

end FieldType.Denotes

namespace Record

/-- Names of types may be shared by other types: a place is sound for the very definition that
is declared for it. -/
theorem lift_sound_everywhere {id : Nat} {descriptor : Value} {r : Record}
    (unique : descriptor.Unique) (known : ∀ d, descriptor.Part (.definition d) → d.Accepted)
    (defined : define id descriptor = .ok r) {document : Json} (hu : document.Unique) {v : Value}
    (hlift : r.lift document = .ok v) {type : FieldType} {w : Value}
    (hposition : Position (.single (.user (.record r))) v type w) : type.SoundAt w := by
  have proper : (Definition.record r).WellFormed :=
    (Definition.Accepted.record unique known defined).wellFormed
  have hadmits : (Definition.record r).is v = true := by
    obtain ⟨entries, rfl⟩ := exists_object_of_lift hlift
    obtain ⟨fields, -, hof⟩ := lift_object_eq_ok_iff.mp hlift
    obtain ⟨-, -, rfl⟩ := of_object_eq_ok_iff.mp hof
    exact is_instanceOf r fields
  obtain ⟨hfits, hdenote⟩ :=
    (proper.faithful document v hu).mp ⟨definition_lift hlift, hadmits⟩
  have hdenotes : (FieldType.single (.user (.record r))).Denotes v := by
    refine ⟨?_, document, hu, .single hfits, hdenote⟩
    intro d hd
    cases hd
    exact proper
  exact (hdenotes.position hposition).soundAt

end Record

def Union.dark : Union :=
  ⟨0, "Shade", [⟨0, "Shade", "Dark", 0⟩]⟩

def Union.light : Union :=
  ⟨1, "Shade", [⟨1, "Shade", "Light", 0⟩]⟩

namespace Record

def room : Record :=
  .ofTypes 2 "Room"
    [("wall", .single (.user (.union .dark))), ("doors", .listOf (.user (.union .light)))]

def roomDescriptor : Value :=
  describe "Room"
    [("wall", .definition (.union .dark)), ("doors", .list [.definition (.union .light)])]

def roomDocument : Json :=
  .object [("wall", .string "Dark"), ("doors", .array [.string "Light"])]

def wall : Value :=
  .tagged "Shade" "Dark" (.variant 0) .null

def door : Value :=
  .tagged "Shade" "Light" (.variant 0) .null

def roomValue : Value :=
  room.instanceOf [("wall", wall), ("doors", .list [door])]

theorem accepted_of_room {d : Definition} (h : roomDescriptor.Part (.definition d)) :
    d.Accepted := by
  have hd : d = .union .dark ∨ d = .union .light := by simpa [roomDescriptor, describe] using h
  rcases hd with rfl | rfl
  · have hdark : Union.define 0 (Union.describe "Shade" [("Dark", 0)]) = .ok .dark :=
      Union.define_describe (by decide) (by decide) (by decide +kernel) (by decide)
    exact .union hdark
  · have hlight : Union.define 1 (Union.describe "Shade" [("Light", 0)]) = .ok .light :=
      Union.define_describe (by decide) (by decide) (by decide +kernel) (by decide)
    exact .union hlight

theorem lift_room : room.lift roomDocument = .ok roomValue := by
  have haccepts : room.Accepts [("wall", wall), ("doors", .list [door])] := by
    refine ⟨fun name => by simp [room], ?_⟩
    intro name type v htype hv
    simp only [room, fieldType?, fields_ofTypes, Keyed.find?] at htype hv
    split_ifs at htype hv with hwall hdoors
    · cases htype
      cases hv
      rfl
    · cases htype
      cases hv
      rfl
  exact lift_object_eq_ok_iff.mpr ⟨_, .cons ⟨rfl, rfl⟩ (.cons ⟨rfl, rfl⟩ .nil),
    of_object_eq_ok_iff.mpr ⟨List.cons_ne_nil _ _, haccepts, rfl⟩⟩

theorem position_wall :
    Position (.single (.user (.record room))) roomValue (.single (.user (.union .dark))) wall := by
  have declared : room.fieldType? "wall" = some (.single (.user (.union .dark))) := rfl
  exact .field declared rfl (.here _ _)

theorem position_door :
    Position (.single (.user (.record room))) roomValue (.single (.user (.union .light))) door := by
  have declared : room.fieldType? "doors" = some (.listOf (.user (.union .light))) := rfl
  exact .field declared rfl (.item (List.mem_singleton_self _) (.here _ _))

/-- The wall and the doors are of two types with one name. -/
theorem lift_sound_everywhere_room :
    define 2 roomDescriptor = .ok room ∧ room.lift roomDocument = .ok roomValue ∧
      (FieldType.single (.user (.union .dark))).SoundAt wall ∧
      (FieldType.single (.user (.union .light))).SoundAt door := by
  have unique : roomDescriptor.Unique := by
    simp [roomDescriptor, describe, Keyed.Unique, Value.Unique, Value.FieldsUnique,
      Value.AllUnique]
  have hu : roomDocument.Unique := by
    simp [roomDocument, Json.Unique, Json.AllUnique, Keyed.Unique]
  have hroom : define 2 roomDescriptor = .ok room := rfl
  have hsound : ∀ {type w}, Position (.single (.user (.record room))) roomValue type w →
      type.SoundAt w :=
    lift_sound_everywhere unique (fun _ => accepted_of_room) hroom hu lift_room
  exact ⟨hroom, lift_room, hsound position_wall, hsound position_door⟩

end Record
end TaggedData
