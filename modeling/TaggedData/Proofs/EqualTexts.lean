import TaggedData.Proofs.JsonView
import TaggedData.Proofs.NameOrder

/-!
# Texts of equal values

Equality does not see the order of the entries of a keyed structure or the sign of a zero. The
text of a number does not show the sign of its zero, and a record is written with its fields
sorted, so equal values have one text unless a keyed structure with several entries stands
somewhere else than in a record. The text of a value depends on the view of the values in it and
the view on their texts, so the two are compared together.
-/

namespace TaggedData

namespace Binary64

variable {x y : Binary64}

theorem asInteger?_of_isZero (h : x.isZero = true) : x.asInteger? = some 0 := by
  cases x with
  | nan | infinite => cases h
  | finite negative e f =>
    have hsignificand : significand e f = 0 := eq_of_beq h
    have hvalue : (finite negative e f).value? = some ((0 : Int) : ℚ) := by
      simp [value?, magnitude, hsignificand]
    exact asInteger?_eq_some_iff.mpr ⟨0, hvalue, by decide, by decide, by decide⟩

/-- Equal numbers are the same number or are both written as zero. -/
theorem eq_or_zero_of_equals (h : x.equals y = true) :
    x = y ∨ x.asInteger? = some 0 ∧ y.asInteger? = some 0 := by
  obtain ⟨-, heq | ⟨hx, hy⟩⟩ := equals_eq_true_iff.mp h
  · exact .inl heq
  · exact .inr ⟨asInteger?_of_isZero hx, asInteger?_of_isZero hy⟩

theorem render_of_asInteger? {n : Int} (h : x.asInteger? = some n) : x.render = toString n := by
  simp [render, h]

theorem render_eq_of_equals (h : x.equals y = true) : x.render = y.render := by
  rcases eq_or_zero_of_equals h with rfl | ⟨hx, hy⟩
  · rfl
  · rw [render_of_asInteger? hx, render_of_asInteger? hy]

theorem view_eq_of_equals (h : x.equals y = true) : Json.ofBinary64 x = Json.ofBinary64 y := by
  rcases eq_or_zero_of_equals h with rfl | ⟨hx, hy⟩
  · rfl
  · obtain ⟨_, hx⟩ := Json.ofBinary64_of_asInteger? hx
    obtain ⟨_, hy⟩ := Json.ofBinary64_of_asInteger? hy
    rw [hx, hy]

end Binary64

namespace Keyed

variable {α β : Type} {fields others : Keyed α} {f : α → β}

theorem keys_map (f : α → β) (fields : Keyed α) :
    keys (fields.map fun entry => (entry.1, f entry.2)) = keys fields := by
  simp [keys, Function.comp_def]

theorem Unique.map (hu : Unique fields) (f : α → β) :
    Unique (fields.map fun entry => (entry.1, f entry.2)) := by
  rw [Unique, keys_map]
  exact hu

theorem mem_map_of_mem_map (keys : ∀ key ∈ keys fields, key ∈ Keyed.keys others)
    (each : ∀ key v w, (key, v) ∈ fields → (key, w) ∈ others → f v = f w) {entry : String × β}
    (h : entry ∈ fields.map fun entry => (entry.1, f entry.2)) :
    entry ∈ others.map fun entry => (entry.1, f entry.2) := by
  obtain ⟨⟨key, v⟩, hv, rfl⟩ := List.mem_map.mp h
  obtain ⟨w, hw⟩ := exists_mem_of_mem_keys (keys key (mem_keys_of_mem hv))
  exact List.mem_map.mpr ⟨(key, w), hw, by rw [each key v w hv hw]⟩

/-- Entries that agree under each key become the same entries, in some order. -/
theorem map_perm_map (hu : Unique fields) (hu' : Unique others)
    (keys : ∀ key, key ∈ keys fields ↔ key ∈ Keyed.keys others)
    (each : ∀ key v w, (key, v) ∈ fields → (key, w) ∈ others → f v = f w) :
    (fields.map fun entry => (entry.1, f entry.2)).Perm
      (others.map fun entry => (entry.1, f entry.2)) := by
  apply (List.perm_ext_iff_of_nodup (hu.map f).nodup (hu'.map f).nodup).mpr
  intro entry
  constructor
  · exact mem_map_of_mem_map (fun key => (keys key).mp) each
  · apply mem_map_of_mem_map fun key => (keys key).mpr
    intro key w v hw hv
    exact (each key v w hv hw).symm

end Keyed

namespace Value

theorem isNil_eq_of_equals {v w : Value} (h : v.equals w = true) : v.isNil = w.isNil := by
  cases v <;> cases w <;> first | rfl | cases h

theorem isList_eq_of_equals {v w : Value} (h : v.equals w = true) : v.isList = w.isList := by
  cases v <;> cases w <;> first | rfl | cases h

theorem isObject_eq_of_equals {v w : Value} (h : v.equals w = true) : v.isObject = w.isObject := by
  cases v <;> cases w <;> first | rfl | cases h

theorem EqualItems.map_eq {items others : List Value} {β : Type} {f : Value → β}
    (h : EqualItems items others)
    (each : ∀ x ∈ items, ∀ y ∈ others, x.equals y = true → f x = f y) :
    items.map f = others.map f := by
  induction h with
  | nil => rfl
  | @cons x y items others hxy _ ih =>
    have hhead : f x = f y := each x List.mem_cons_self y List.mem_cons_self hxy
    have htail : items.map f = others.map f := by
      apply ih
      intro v hv w hw
      exact each v (List.mem_cons_of_mem x hv) w (List.mem_cons_of_mem y hw)
    rw [List.map_cons, List.map_cons, hhead, htail]

theorem render_list_congr {items others : List Value}
    (h : items.map render = others.map render) : (list items).render = (list others).render := by
  rw [render, render, renderAll_eq_map, renderAll_eq_map, h]

/-- The fields of a record are sorted by their names, so their order does not matter. -/
theorem render_record_congr {typeName label : String} {fields others : Keyed Value}
    (hu : Keyed.Unique fields) (hu' : Keyed.Unique others)
    (keys : ∀ key, key ∈ Keyed.keys fields ↔ key ∈ Keyed.keys others)
    (each : ∀ key v w, (key, v) ∈ fields → (key, w) ∈ others → v.render = w.render) :
    (tagged typeName label .record (.object fields)).render =
      (tagged typeName label .record (.object others)).render := by
  rw [render, render, renderFields_eq_map, renderFields_eq_map]
  apply Names.bracedEntries_eq_of_perm (hu.map render)
  exact Keyed.map_perm_map hu hu' keys each

theorem render_record_bare {typeName label : String} {payload : Value}
    (h : payload.isObject = false) :
    (tagged typeName label .record payload).render = typeName ++ " " ++ payload.render := by
  cases payload with
  | object => cases h
  | _ => simp [render]

theorem render_variant_bare {typeName label : String} {n : Nat} {payload : Value}
    (h : payload.isList = false) :
    (tagged typeName label (.variant (n + 2)) payload).render =
      variantText typeName label payload.render := by
  cases payload with
  | list => cases h
  | _ => simp [render]

theorem render_variant_congr {typeName label : String} {arity : Nat} {payload payload' : Value}
    (hlist : payload.isList = false) (hlist' : payload'.isList = false)
    (h : payload.render = payload'.render) :
    (tagged typeName label (.variant arity) payload).render =
      (tagged typeName label (.variant arity) payload').render := by
  match arity with
  | 0 => simp [render]
  | 1 => simp [render, h]
  | n + 2 => rw [render_variant_bare hlist, render_variant_bare hlist', h]

theorem render_arguments_congr {typeName label : String} {arity : Nat} {items others : List Value}
    (h : items.map render = others.map render) :
    (tagged typeName label (.variant arity) (.list items)).render =
      (tagged typeName label (.variant arity) (.list others)).render := by
  match arity with
  | 0 | 1 | n + 2 => simp only [render, renderAll_eq_map, h]

/-- Keyed structures have at most one entry, except where they are the fields of a record. -/
inductive Narrow : Value → Prop
  | list {items} (each : ∀ item ∈ items, Narrow item) : Narrow (.list items)
  | object {fields} (length_le : fields.length ≤ 1) (each : ∀ entry ∈ fields, Narrow entry.2) :
      Narrow (.object fields)
  | record {typeName label fields} (each : ∀ entry ∈ fields, Narrow entry.2) :
      Narrow (.tagged typeName label .record (.object fields))
  | payload {typeName label form payload} (narrow : Narrow payload) :
      Narrow (.tagged typeName label form payload)
  | single {v} (isList : v.isList = false) (isObject : v.isObject = false)
      (isTagged : v.isTagged = false) : Narrow v

/-- Written alike as a text, in the JSON view and under the name of a type, which shows the items
of a list and the fields of a keyed structure one by one. -/
structure Alike (v w : Value) : Prop where
  text : v.render = w.render
  view : v.toJson = w.toJson
  items : ∀ items others, v = list items → w = list others → items.map render = others.map render
  entries : ∀ fields others, v = object fields → w = object others →
    ∀ key x y, (key, x) ∈ fields → (key, y) ∈ others → x.render = y.render

theorem alike_list {items others : List Value} (h : EqualItems items others)
    (each : ∀ x ∈ items, ∀ y ∈ others, x.equals y = true → x.Alike y) :
    (list items).Alike (list others) where
  text := render_list_congr (h.map_eq fun x hx y hy hxy => (each x hx y hy hxy).text)
  view := by
    have hviews := h.map_eq fun x hx y hy hxy => (each x hx y hy hxy).view
    rw [toJson_list, toJson_list, hviews]
  items := by
    intro _ _ hitems hothers
    cases hitems
    cases hothers
    exact h.map_eq fun x hx y hy hxy => (each x hx y hy hxy).text
  entries := nofun

/-- With one entry there is no other order. -/
theorem viewFields_congr {fields others : Keyed Value} (hle : fields.length ≤ 1)
    (h : (object fields).equals (object others) = true)
    (each : ∀ key v w, (key, v) ∈ fields → (key, w) ∈ others → v.equals w = true →
      v.toJson = w.toJson) : viewFields fields = viewFields others := by
  obtain ⟨_, heq, hlength, hentries⟩ := exists_object_of_equals h
  cases heq
  match fields, others with
  | [], [] => rfl
  | [(key, v)], [(key', w)] =>
    obtain ⟨y, hy, hequals⟩ := hentries (key, v) List.mem_cons_self
    cases List.mem_singleton.mp (Keyed.mem_of_find? hy)
    have hnil : v.isNil = w.isNil := isNil_eq_of_equals hequals
    have hview : v.toJson = w.toJson := each key v w List.mem_cons_self List.mem_cons_self hequals
    simp only [viewFields_eq_filterMap, List.filterMap_cons, hnil, hview]

theorem alike_object {fields others : Keyed Value} (hle : fields.length ≤ 1)
    (ha : (object fields).Unique) (hb : (object others).Unique)
    (h : (object fields).equals (object others) = true)
    (each : ∀ key v w, (key, v) ∈ fields → (key, w) ∈ others → v.equals w = true → v.Alike w) :
    (object fields).Alike (object others) := by
  have hviews : viewFields fields = viewFields others :=
    viewFields_congr hle h fun key v w hv hw hvw => (each key v w hv hw hvw).view
  have hlength : fields.length = others.length := by
    obtain ⟨_, heq, hlength, -⟩ := exists_object_of_equals h
    cases heq
    exact hlength
  constructor
  · rw [render, render, hlength, hviews]
  · rw [toJson, toJson, hviews]
  · intro _ _ heq
    cases heq
  · intro _ _ hfields hothers key v w hv hw
    cases hfields
    cases hothers
    have hequal := (equals_object_iff (unique_object.mp ha).1 (unique_object.mp hb).1).mp h
    exact (each key v w hv hw (hequal.2 key v w hv hw)).text

theorem alike_tagged {typeName label : String} {form : Form} {payload payload' : Value}
    (h : (tagged typeName label form payload).render =
      (tagged typeName label form payload').render) :
    (tagged typeName label form payload).Alike (tagged typeName label form payload') where
  text := h
  view := by rw [toJson_tagged, toJson_tagged, h]
  items := nofun
  entries := nofun

theorem render_number (x : Binary64) : (number x).render = x.render := by
  simp only [render]
  rfl

theorem alike_single {a b : Value} (hlist : a.isList = false) (hobject : a.isObject = false)
    (htagged : a.isTagged = false) (h : a.equals b = true) : a.Alike b := by
  rcases eq_or_number_of_equals hlist hobject htagged h with rfl | ⟨x, y, rfl, rfl, hxy⟩
  · constructor
    · rfl
    · rfl
    · intro items _ heq
      rw [heq] at hlist
      cases hlist
    · intro fields _ heq
      rw [heq] at hobject
      cases hobject
  · constructor
    · rw [render_number, render_number, Binary64.render_eq_of_equals hxy]
    · simp only [toJson, Binary64.view_eq_of_equals hxy]
    · intro _ _ heq
      cases heq
    · intro _ _ heq
      cases heq

theorem render_tagged_congr {typeName label : String} {form : Form} {payload payload' : Value}
    (ha : payload.Unique) (hb : payload'.Unique) (h : payload.equals payload' = true)
    (halike : payload.Alike payload') :
    (tagged typeName label form payload).render =
      (tagged typeName label form payload').render := by
  cases form with
  | record =>
    cases hobject : payload.isObject with
    | true =>
      cases payload with
      | object fields =>
        obtain ⟨others, rfl, -⟩ := exists_object_of_equals h
        have hu : Keyed.Unique fields := (unique_object.mp ha).1
        have hu' : Keyed.Unique others := (unique_object.mp hb).1
        apply render_record_congr hu hu' ((equals_object_iff hu hu').mp h).1
        exact halike.entries fields others rfl rfl
      | _ => cases hobject
    | false =>
      have hobject' : payload'.isObject = false := by rw [← isObject_eq_of_equals h, hobject]
      rw [render_record_bare hobject, render_record_bare hobject', halike.text]
  | variant arity =>
    cases hlist : payload.isList with
    | true =>
      cases payload with
      | list items =>
        obtain ⟨others, rfl, -⟩ := exists_list_of_equals h
        exact render_arguments_congr (halike.items _ _ rfl rfl)
      | _ => cases hlist
    | false =>
      have hlist' : payload'.isList = false := by rw [← isList_eq_of_equals h, hlist]
      exact render_variant_congr hlist hlist' halike.text

/-- Narrow values that are equal are written alike, at any depth. -/
theorem alike_of_equals {a b : Value} (hnarrow : a.Narrow) (ha : a.Unique) (hb : b.Unique)
    (h : a.equals b = true) : a.Alike b := by
  induction hnarrow generalizing b with
  | list _ ih =>
    obtain ⟨others, rfl, hitems⟩ := exists_list_of_equals h
    apply alike_list hitems
    intro x hx y hy hxy
    exact ih x hx (unique_list.mp ha x hx) (unique_list.mp hb y hy) hxy
  | object length_le _ ih =>
    obtain ⟨others, rfl, -⟩ := exists_object_of_equals h
    apply alike_object length_le ha hb h
    intro key v w hv hw hvw
    exact ih _ hv ((unique_object.mp ha).2 _ hv) ((unique_object.mp hb).2 _ hw) hvw
  | record _ ih =>
    obtain ⟨payload', rfl, hpayload⟩ := exists_tagged_of_equals h
    obtain ⟨others, rfl, -⟩ := exists_object_of_equals hpayload
    obtain ⟨hu, hentries⟩ := unique_object.mp ha
    obtain ⟨hu', hentries'⟩ := unique_object.mp hb
    obtain ⟨keys, each⟩ := (equals_object_iff hu hu').mp hpayload
    apply alike_tagged
    apply render_record_congr hu hu' keys
    intro key v w hv hw
    exact (ih _ hv (hentries _ hv) (hentries' _ hw) (each key v w hv hw)).text
  | payload _ ih =>
    obtain ⟨payload', rfl, hpayload⟩ := exists_tagged_of_equals h
    apply alike_tagged
    exact render_tagged_congr ha hb hpayload (ih ha hb hpayload)
  | single isList isObject isTagged => exact alike_single isList isObject isTagged h

/-- The order of the fields of a record does not show in its text, whatever they are. -/
theorem render_record_of_perm {typeName label : String} {fields others : Keyed Value}
    (hu : Keyed.Unique fields) (hperm : fields.Perm others) :
    (tagged typeName label .record (.object fields)).render =
      (tagged typeName label .record (.object others)).render := by
  apply render_record_congr hu (hu.perm hperm)
  · intro key
    exact (Keyed.keys_perm hperm).mem_iff
  · intro key v w hv hw
    rw [hu.eq_of_mem hv (hperm.mem_iff.mpr hw)]

/-- Equal values have the same text and the same view, where no order of entries shows in them. -/
theorem texts_of_equals :
    (∀ a b : Value, a.Narrow → a.Unique → b.Unique → a.equals b = true →
      a.render = b.render ∧ a.toJson = b.toJson) ∧
    ∀ (typeName label : String) (fields others : Keyed Value), Keyed.Unique fields →
      fields.Perm others → (tagged typeName label .record (.object fields)).render =
        (tagged typeName label .record (.object others)).render := by
  constructor
  · intro a b hnarrow ha hb h
    have halike : a.Alike b := alike_of_equals hnarrow ha hb h
    exact ⟨halike.text, halike.view⟩
  · intro typeName label fields others hu hperm
    exact render_record_of_perm hu hperm

/-- A pair of a record and a keyed structure of one entry, in a list. -/
def pairing (fields : Keyed Value) (zero : Binary64) : Value :=
  .list [.tagged "Log" "Pair" (.variant 2)
    (.list [.tagged "Reading" "Reading" .record (.object fields),
      .object [("zero", .number zero)]])]

theorem texts_of_equals_pairing :
    (pairing reading (.zero true)).render = (pairing readingByMarks (.zero false)).render ∧
      (tagged "Reading" "Reading" .record (.object reading)).render =
        (tagged "Reading" "Reading" .record (.object reading.reverse)).render := by
  have hu : (pairing reading (.zero true)).Unique := by
    simp [pairing, reading, Unique, AllUnique, FieldsUnique]
  have hu' : (pairing readingByMarks (.zero false)).Unique := by
    simp [pairing, readingByMarks, Unique, AllUnique, FieldsUnique]
  have hequals : (pairing reading (.zero true)).equals (pairing readingByMarks (.zero false)) =
      true := by
    decide +kernel
  have hmark : Narrow (.tagged "Mark" "Low" (.variant 0) .null) := .payload (.single rfl rfl rfl)
  have hmarks : Narrow (.list [.tagged "Mark" "Low" (.variant 0) .null]) :=
    .list (List.forall_mem_singleton.mpr hmark)
  have hreading : Narrow (.tagged "Reading" "Reading" .record (.object reading)) :=
    .record (List.forall_mem_cons.mpr
      ⟨.single rfl rfl rfl, List.forall_mem_singleton.mpr hmarks⟩)
  have hzero : Narrow (.object [("zero", .number (.zero true))]) :=
    .object le_rfl (List.forall_mem_singleton.mpr (.single rfl rfl rfl))
  have hnarrow : (pairing reading (.zero true)).Narrow :=
    .list (List.forall_mem_singleton.mpr (.payload
      (.list (List.forall_mem_cons.mpr ⟨hreading, List.forall_mem_singleton.mpr hzero⟩))))
  obtain ⟨texts, records⟩ := texts_of_equals
  constructor
  · exact (texts _ _ hnarrow hu hu' hequals).1
  · apply records "Reading" "Reading" reading
    · simp [reading, Keyed.Unique, Keyed.keys]
    · exact (List.reverse_perm reading).symm

end Value
end TaggedData
