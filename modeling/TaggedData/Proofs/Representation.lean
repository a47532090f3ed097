import TaggedData.Proofs.Matching
import TaggedData.Proofs.RecordShape
import TaggedData.Value.Render

/-!
# How typed values are represented

The form of a typed value tells what its payload is: nothing, the one argument or the list
of so many arguments of a variant, or the fields of a record, of which there is at least
one. Every producer of typed values keeps to that, lenses on a union of the same name
included. So the text of a value never has to make do with another payload.
-/

namespace TaggedData

namespace Value

/-- The payload of a typed value is of the form that stands beside it. -/
inductive Packaged : Value → Prop
  | variant {typeName label arity payload} (shape : PayloadOf arity payload) :
      Packaged (.tagged typeName label (.variant arity) payload)
  | record {name fields} (fields_ne : fields ≠ []) :
      Packaged (.tagged name name .record (.object fields))

mutual

/-- The text of a value, where a given one stands for a record whose payload is not keyed and
for a variant of several arguments whose payload is no list. -/
def renderOr (other : Value → String) : Value → String
  | .list items =>
    "[" ++ Names.commaSeparated (items.map fun item => renderOr other item) ++ "]"
  | .object fields => Json.objectText fields.length (fields.filterMap fun entry =>
      if entry.2.isNil then none else some (entry.1, viewOr other entry.2))
  | .tagged typeName _ .record (.object fields) =>
    Names.bracedEntries typeName (fields.map fun entry => (entry.1, renderOr other entry.2))
  | .tagged typeName label (.variant 0) _ => typeName ++ "." ++ label
  | .tagged typeName label (.variant 1) payload =>
    variantText typeName label (renderOr other payload)
  | .tagged typeName label (.variant (_ + 2)) (.list items) =>
    variantText typeName label (",".intercalate (items.map fun item => renderOr other item))
  | .tagged typeName label form payload => other (.tagged typeName label form payload)
  | atom => atomText atom
termination_by v => (sizeOf v, 0)
decreasing_by
  all_goals
    try have hlt := Keyed.sizeOf_lt_of_mem ‹_›
    decreasing_tactic

/-- The JSON view with such texts in it. -/
def viewOr (other : Value → String) : Value → Json
  | .nil | .null => .null
  | .bool b => .bool b
  | .number x => .ofBinary64 x
  | .string text => .string text
  | .list items => .array (items.map fun item => viewOr other item)
  | .object fields => .object (fields.filterMap fun entry =>
      if entry.2.isNil then none else some (entry.1, viewOr other entry.2))
  | v => .string (renderOr other v)
termination_by v => (sizeOf v, 1)
decreasing_by
  all_goals
    try have hlt := Keyed.sizeOf_lt_of_mem ‹_›
    decreasing_tactic

end

theorem renderAll_eq_map (items : List Value) : renderAll items = items.map render := by
  induction items with
  | nil => rfl
  | cons item rest ih => rw [renderAll, ih, List.map_cons]

theorem renderFields_eq_map (fields : Keyed Value) :
    renderFields fields = fields.map fun entry => (entry.1, render entry.2) := by
  induction fields with
  | nil => rfl
  | cons entry rest ih => rw [renderFields, ih, List.map_cons]

theorem viewAll_eq_map (items : List Value) : viewAll items = items.map toJson := by
  induction items with
  | nil => rfl
  | cons item rest ih => rw [viewAll, ih, List.map_cons]

theorem viewFields_eq_filterMap (fields : Keyed Value) :
    viewFields fields = fields.filterMap fun entry =>
      if entry.2.isNil then none else some (entry.1, toJson entry.2) := by
  induction fields with
  | nil => rfl
  | cons entry rest ih =>
    obtain ⟨key, v⟩ := entry
    cases v <;> simp [viewFields, isNil, ih]

def AllPackaged (v : Value) : Prop :=
  ∀ w, v.Part w → w.isTagged = true → w.Packaged

namespace AllPackaged

variable {v w : Value}

theorem part (h : v.AllPackaged) (hpart : v.Part w) : w.AllPackaged :=
  fun x hx => h x (hpart.trans hx)

theorem item {items : List Value} (h : (list items).AllPackaged) (hv : v ∈ items) :
    v.AllPackaged :=
  h.part (.item hv (.refl v))

theorem entry {fields : Keyed Value} (h : (object fields).AllPackaged) {entry : String × Value}
    (hentry : entry ∈ fields) : entry.2.AllPackaged :=
  h.part (.entry hentry (.refl entry.2))

theorem payload {typeName label : String} {form : Form} {payload : Value}
    (h : (tagged typeName label form payload).AllPackaged) : payload.AllPackaged :=
  h.part (.payload (.refl payload))

end AllPackaged

theorem view_congr {view view' : Value → Json} {fields : Keyed Value}
    (h : ∀ entry ∈ fields, view entry.2 = view' entry.2) :
    fields.filterMap (fun entry => if entry.2.isNil then none else some (entry.1, view entry.2)) =
      fields.filterMap fun entry => if entry.2.isNil then none else some (entry.1, view' entry.2) :=
  List.filterMap_congr fun entry hentry => by rw [h entry hentry]

/-- By induction along the recursion of the two functions. A packaged value excludes the case
of another payload. -/
theorem renderOr_eq (other : Value → String) :
    (∀ v : Value, v.AllPackaged → renderOr other v = v.render) ∧
      ∀ v : Value, v.AllPackaged → viewOr other v = v.toJson := by
  apply renderOr.mutual_induct
  · intro items ih h
    have hitems : items.map (fun item => renderOr other item) = items.map render :=
      List.map_congr_left fun item hitem => ih item hitem (h.item hitem)
    rw [renderOr, render, renderAll_eq_map, hitems]
  · intro fields ih h
    have hview := view_congr fun entry hentry => ih entry hentry (h.entry hentry)
    rw [renderOr, render, viewFields_eq_filterMap, hview]
  · intro typeName label fields ih h
    have hfields : fields.map (fun entry => (entry.1, renderOr other entry.2)) =
        fields.map fun entry => (entry.1, render entry.2) :=
      List.map_congr_left fun entry hentry => by rw [ih entry hentry (h.payload.entry hentry)]
    rw [renderOr, render, renderFields_eq_map, hfields]
  · intro typeName label payload _
    rw [renderOr, render]
  · intro typeName label payload ih h
    have hvariant : render (.tagged typeName label (.variant 1) payload) =
        variantText typeName label payload.render := by simp [render]
    rw [renderOr, hvariant, ih h.payload]
  · intro typeName label n items ih h
    have hitems : items.map (fun item => renderOr other item) = items.map render :=
      List.map_congr_left fun item hitem => ih item hitem (h.payload.item hitem)
    rw [renderOr, render, renderAll_eq_map, hitems]
  · intro typeName label form payload hrecord hzero hone hmore h
    cases h _ (.refl _) rfl with
    | record => exact (hrecord _ rfl rfl).elim
    | @variant _ _ arity _ shape =>
      rcases arity with _ | _ | n
      · exact (hzero rfl).elim
      · exact (hone rfl).elim
      · obtain ⟨items, hpayload, -⟩ := shape.more (by omega)
        exact (hmore n items rfl hpayload).elim
  · intro atom hlist hobject _ _ _ _ htagged _
    cases atom with
    | list items => exact (hlist items rfl).elim
    | object fields => exact (hobject fields rfl).elim
    | tagged typeName label form payload => exact (htagged typeName label form payload rfl).elim
    | _ => simp [renderOr, render]
  · intro _
    rw [viewOr, toJson]
  · intro _
    rw [viewOr, toJson]
  · intro b _
    rw [viewOr, toJson]
  · intro x _
    rw [viewOr, toJson]
  · intro text _
    rw [viewOr, toJson]
  · intro items ih h
    have hitems : items.map (fun item => viewOr other item) = items.map toJson :=
      List.map_congr_left fun item hitem => ih item hitem (h.item hitem)
    rw [viewOr, toJson, viewAll_eq_map, hitems]
  · intro fields ih h
    have hview := view_congr fun entry hentry => ih entry hentry (h.entry hentry)
    rw [viewOr, toJson, viewFields_eq_filterMap, hview]
  · intro v hnil hnull hbool hnumber hstring hlist hobject ih h
    have hview : v.toJson = .string v.render := by
      cases v with
      | nil => exact (hnil rfl).elim
      | null => exact (hnull rfl).elim
      | bool b => exact (hbool b rfl).elim
      | number x => exact (hnumber x rfl).elim
      | string text => exact (hstring text rfl).elim
      | list items => exact (hlist items rfl).elim
      | object fields => exact (hobject fields rfl).elim
      | tagged typeName label form payload => exact toJson_tagged typeName label form payload
      | _ => simp [toJson, render]
    rw [viewOr, ih h, hview] <;> assumption

end Value

namespace History

variable {h : History} {v : Value}

theorem Shaped.packaged {d : Definition} (hv : h.Shaped d v) (hd : d.WellFormed) : v.Packaged := by
  cases hv with
  | variant own shape => exact .variant shape
  | record all others values =>
    cases hd with
    | record distinct _ => exact .record (Record.ne_nil_of_keys distinct.fields_ne all)

theorem Sound.packaged (hs : h.Sound) (holds : h.Holds v) (typed : v.isTagged = true) :
    v.Packaged := by
  obtain ⟨d, horigin⟩ := hs.exists_origin holds typed
  obtain ⟨hd, hshaped⟩ := hs.shaped v d horigin
  exact hshaped.packaged (hs.wellFormed hd)

theorem Sound.allPackaged (hs : h.Sound) (hv : h.Available v) : v.AllPackaged :=
  fun w hpart htagged => hs.packaged (hv.instances w hpart htagged) htagged

/-- A variant without arguments holds null, and one of several arguments a list. -/
theorem Sound.exists_call_nil (hs : h.Sound) (holds : h.Holds v) (typed : v.isTagged = true)
    (absent : v.isTyped = false) :
    ∃ u c, h.Owns u c ∧ c.arity = 1 ∧ c.call [.nil] = .ok v := by
  obtain ⟨d, horigin⟩ := hs.exists_origin holds typed
  obtain ⟨hd, hshaped⟩ := hs.shaped v d horigin
  cases hshaped with
  | record => cases absent
  | @variant u c payload own shape =>
    have hnil : payload = .nil := by
      cases payload with
      | nil => rfl
      | _ => cases absent
    subst hnil
    have hone : c.arity = 1 := by
      by_contra hne
      obtain hzero | hmore : c.arity = 0 ∨ 2 ≤ c.arity := by omega
      · cases shape.none hzero
      · obtain ⟨items, hitems, -⟩ := shape.more hmore
        cases hitems
    have hlength : [Value.nil].length = c.arity := hone.symm
    refine ⟨u, c, ⟨hd, own⟩, hone, ?_⟩
    rw [Constructor.call_eq_ok hlength, (hs.union_wellFormed hd).typeName_eq c own]
    rfl

/-- Types may share names, and so a lens of a record may have changed a value of a union. -/
theorem representation_along_run (run : h.Run) :
    (∀ v, h.Holds v → v.isTagged = true → v.Packaged ∧
      (v.isTyped = false → ∃ u c, h.Owns u c ∧ c.arity = 1 ∧ c.call [.nil] = .ok v)) ∧
    ∀ v, h.Available v → ∀ other : Value → String,
      v.renderOr other = v.render ∧ v.viewOr other = v.toJson := by
  have hs := run.sound
  constructor
  · intro v holds typed
    exact ⟨hs.packaged holds typed, hs.exists_call_nil holds typed⟩
  · intro v available other
    obtain ⟨hrender, hview⟩ := Value.renderOr_eq other
    have hpackaged := hs.allPackaged available
    exact ⟨hrender v hpackaged, hview v hpackaged⟩

def located : Union :=
  ⟨1, "Point", [⟨1, "Point", "At", 1⟩]⟩

/-- The variant with a keyed structure as its argument. -/
def locatedAt (fields : Keyed Value) : Value :=
  .tagged "Point" "At" (.variant 1) (.object fields)

/-- A union and a record share a name, and the lens of the record changes a value of the
union. -/
def movedVariant : History :=
  [.performed (.modify ⟨"Point", "x"⟩ (locatedAt origin) fun _ => .string "a") (locatedAt moved),
    .performed (.construct located "At" [.object origin]) (locatedAt origin),
    .defined (.record point), .defined (.union located)]

theorem run_locatedAt (host : Host) {fields : Keyed Value}
    (available : Available [.defined (.record point), .defined (.union located)]
      (.object fields)) :
    Run [.performed (.construct located "At" [.object fields]) (locatedAt fields),
      .defined (.record point), .defined (.union located)] := by
  have hunion : Union.define 1 (Union.describe "Point" [("At", 1)]) = .ok located :=
    Union.define_describe (by decide) (by decide) (by decide +kernel) (by decide)
  have hrecord : Record.define 0 (Record.describe "Point" [("x", .primitive .number)]) =
      .ok point := rfl
  have hdefined : Run [.defined (.record point), .defined (.union located)] :=
    .record (.union .start (available_union ..) hunion) (available_point _) hrecord
  have hconstruct : Operation.perform host (.construct located "At" [.object fields]) =
      .ok (locatedAt fields) := rfl
  refine .operation hdefined ⟨?_, ?_⟩ hconstruct
  · exact List.mem_cons_of_mem _ List.mem_cons_self
  · intro v hv
    rw [List.mem_singleton.mp hv]
    exact available

theorem run_movedVariant : movedVariant.Run := by
  have host : Host := ⟨fun _ _ => .nil, 0⟩
  have hmade := run_locatedAt host (available_origin _)
  have hmodify : Operation.perform host (.modify ⟨"Point", "x"⟩ (locatedAt origin)
      fun _ => .string "a") = .ok (locatedAt moved) := rfl
  refine .operation hmade ⟨⟨point, ?_, by decide⟩, ?_, fun _ _ => ?_⟩ hmodify
  · exact List.mem_cons_of_mem _ List.mem_cons_self
  · exact Value.madeOf_tagged.mpr ⟨⟨_, ⟨_, List.mem_cons_self⟩, .refl _⟩, available_origin _⟩
  · exact Value.madeOf_atom rfl

theorem representation_along_run_movedVariant :
    movedVariant.Run ∧ (locatedAt moved).Packaged ∧
      ∀ other, (locatedAt moved).renderOr other = (locatedAt moved).render := by
  have holds : movedVariant.Holds (locatedAt moved) := ⟨_, ⟨_, List.mem_cons_self⟩, .refl _⟩
  have available : movedVariant.Available (locatedAt moved) := by
    refine Value.madeOf_tagged.mpr ⟨holds, ?_⟩
    simp [moved, Value.madeOf_object, Value.madeOf_atom, Keyed.Unique]
  obtain ⟨htyped, htexts⟩ := representation_along_run run_movedVariant
  refine ⟨run_movedVariant, (htyped _ holds rfl).1, ?_⟩
  intro other
  exact (htexts _ available other).1

end History

end TaggedData
