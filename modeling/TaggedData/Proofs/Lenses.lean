import TaggedData.Proofs.KeyOrder
import TaggedData.Proofs.Provenance

/-!
# Laws of lenses

A record accepts a structure with its own fields, and its lenses replace the content of one
of them where it stands. So every value that comes from a record by way of its lenses has the
fields of the record, and on such a value each lens obeys the laws of reading and writing:
what was written is read, writing what was read changes nothing, and the last of several
writes counts. Lenses of different fields do not get in each other's way.
-/

namespace TaggedData

namespace Keyed

variable {α : Type} {fields : Keyed α} {key other : String} {value : α}

theorem keys_put_of_mem (value : α) (h : key ∈ keys fields) :
    keys (put key value fields) = keys fields := by
  rw [keys_put, if_pos h]

theorem find?_put_self (key : String) (value : α) (fields : Keyed α) :
    find? key (put key value fields) = some value := by
  rw [find?_put, if_pos rfl]

theorem find?_put_of_ne (h : key ≠ other) (value : α) (fields : Keyed α) :
    find? other (put key value fields) = find? other fields := by
  rw [find?_put, if_neg h]

/-- The second value stands where the first one stood. -/
theorem put_put (key : String) (first second : α) (fields : Keyed α) :
    put key second (put key first fields) = put key second fields := by
  induction fields with
  | nil => simp [put]
  | cons p rest ih =>
    obtain ⟨k, v⟩ := p
    by_cases hk : k = key
    · simp [put, hk]
    · simp [put, hk, ih]

theorem put_of_find? (h : find? key fields = some value) : put key value fields = fields := by
  induction fields with
  | nil => simp [find?] at h
  | cons p rest ih =>
    obtain ⟨k, v⟩ := p
    by_cases hk : k = key
    · have hv : v = value := by simpa [find?, hk] using h
      simp [put, hk, hv]
    · have hrest : put key value rest = rest := ih (by simpa [find?, hk] using h)
      simp [put, hk, hrest]

/-- If both names were new, the first one given would stand first. -/
theorem put_comm (hne : key ≠ other) (hkey : key ∈ keys fields) (v w : α) :
    put other w (put key v fields) = put key v (put other w fields) := by
  induction fields with
  | nil => simp at hkey
  | cons p rest ih =>
    obtain ⟨k, x⟩ := p
    by_cases hk : k = key
    · subst hk
      simp [put, hne]
    · have hrest : key ∈ keys rest := by simpa [Ne.symm hk] using hkey
      by_cases ho : k = other
      · subst ho
        simp [put, hk]
      · simp [put, hk, ho, ih hrest]

end Keyed

namespace Lens

variable (l : Lens) (label : String) (form : Form) (fields : Keyed Value)

theorem view_tagged :
    l.view (.tagged l.owner label form (.object fields)) = Keyed.find? l.field fields := by
  simp [view, focus?]

theorem modify_tagged (f : Value → Value) :
    l.modify (.tagged l.owner label form (.object fields)) f =
      .ok (.tagged l.owner label form
        (.object (Keyed.put l.field (f (l.current fields)) fields))) := by
  simp [modify, focus?, current]

theorem set_tagged (v : Value) :
    l.set (.tagged l.owner label form (.object fields)) v =
      .ok (.tagged l.owner label form (.object (Keyed.put l.field v fields))) :=
  l.modify_tagged label form fields fun _ => v

variable {l fields}

theorem current_of_find? {v : Value} (h : Keyed.find? l.field fields = some v) :
    l.current fields = v := by
  rw [current, h, Option.getD_some]

end Lens

/-- The second value has the tags of the first, and the same keys in the same order. At most
one field has another content. -/
inductive Value.DiffersAt (field : String) : Value → Value → Prop
  | mk {typeName label form fields fields'} (keys : Keyed.keys fields' = Keyed.keys fields)
      (others : ∀ name, name ≠ field → Keyed.find? name fields' = Keyed.find? name fields) :
      DiffersAt field (.tagged typeName label form (.object fields))
        (.tagged typeName label form (.object fields'))

/-- A value on which a lens reads what it wrote. Every update succeeds. -/
structure Lens.LawfulAt (l : Lens) (t : Value) : Prop where
  view_set : ∀ a, ∃ t', l.set t a = .ok t' ∧ l.view t' = some a
  set_view : ∃ v, l.view t = some v ∧ l.set t v = .ok t
  set_set : ∀ a b, (l.set t a >>= fun t' => l.set t' b) = l.set t b
  modify_modify : ∀ h k, (l.modify t h >>= fun t' => l.modify t' k) = l.modify t (k ∘ h)
  set_eq_modify : ∀ a, l.set t a = l.modify t (Function.const Value a)
  view_modify : ∀ h, ∃ v t', l.view t = some v ∧ l.modify t h = .ok t' ∧
    l.view t' = some (h v) ∧ t.DiffersAt l.field t'

/-- The laws hold wherever the name is right and the field is there. -/
theorem Lens.lawfulAt {l : Lens} {label : String} {form : Form} {fields : Keyed Value}
    (hfield : l.field ∈ Keyed.keys fields) :
    l.LawfulAt (.tagged l.owner label form (.object fields)) := by
  obtain ⟨v, hv⟩ := Keyed.find?_isSome_iff.mpr hfield
  constructor
  · intro a
    refine ⟨_, l.set_tagged label form fields a, ?_⟩
    rw [view_tagged, Keyed.find?_put_self]
  · refine ⟨v, ?_, ?_⟩
    · rw [view_tagged, hv]
    · rw [set_tagged, Keyed.put_of_find? hv]
  · intro a b
    rw [set_tagged, set_tagged]
    change l.set _ b = _
    rw [set_tagged, Keyed.put_put]
  · intro h k
    rw [modify_tagged, modify_tagged]
    change l.modify _ k = _
    rw [modify_tagged, Keyed.put_put, current_of_find? (Keyed.find?_put_self ..)]
    rfl
  · intro a
    rfl
  · intro h
    refine ⟨v, _, ?_, l.modify_tagged label form fields h, ?_, ?_⟩
    · rw [view_tagged, hv]
    · rw [view_tagged, Keyed.find?_put_self, current_of_find? hv]
    · refine .mk (Keyed.keys_put_of_mem _ hfield) ?_
      intro name hname
      exact Keyed.find?_put_of_ne hname.symm _ _

namespace Record

variable {r : Record} {t : Value}

theorem lens?_eq_some_iff {field : String} {l : Lens} :
    r.lens? field = some l ↔ field ∈ Keyed.keys r.fields ∧ l = ⟨r.name, field⟩ := by
  rw [lens?, lensTable_eq, Keyed.keys]
  generalize r.fields = fields
  induction fields with
  | nil => simp [Keyed.find?]
  | cons entry rest ih =>
    by_cases hfield : entry.1 = field
    · simp [Keyed.find?, hfield, eq_comm]
    · simp [Keyed.find?, hfield, ih, Ne.symm hfield]

/-- What the record accepted, and what any of its lenses made of that. Replacing a field is a
modification by a constant function. -/
inductive Reachable (r : Record) : Value → Prop
  | of {x t} (accepted : r.of x = .ok t) : Reachable r t
  | modify {l t h t'} (reached : Reachable r t) (lens : l ∈ r.lenses)
      (modified : l.modify t h = .ok t') : Reachable r t'

theorem Reachable.exists_fields (reached : r.Reachable t) :
    ∃ fields, t = r.instanceOf fields ∧
      ∀ name, name ∈ Keyed.keys fields ↔ name ∈ Keyed.keys r.fields := by
  induction reached with
  | of accepted =>
    obtain ⟨fields, -, -, haccepts, rfl⟩ := of_eq_ok_iff.mp accepted
    exact ⟨fields, rfl, haccepts.keys⟩
  | @modify l _ h _ _ lens modified ih =>
    obtain ⟨fields, rfl, hkeys⟩ := ih
    obtain ⟨howner, hfield⟩ := mem_lenses.mp lens
    rw [instanceOf, ← howner, l.modify_tagged] at modified
    cases modified
    refine ⟨_, by rw [instanceOf, ← howner], ?_⟩
    intro name
    rw [Keyed.keys_put_of_mem _ ((hkeys l.field).mpr hfield)]
    exact hkeys name

/-- A structure that was accepted is accepted with another content of a field exactly if the
type of the field admits it. -/
theorem exists_of_put_iff {fields : Keyed Value} {field : String} {type : FieldType}
    (htype : r.fieldType? field = some type) (haccepted : ∃ v, r.of (.object fields) = .ok v)
    (a : Value) :
    (∃ v, r.of (.object (Keyed.put field a fields)) = .ok v) ↔ type.admits a = true := by
  obtain ⟨_, hof⟩ := haccepted
  obtain ⟨-, haccepts, -⟩ := of_object_eq_ok_iff.mp hof
  have hfield : field ∈ Keyed.keys fields :=
    (haccepts.keys field).mpr (Keyed.find?_isSome_iff.mp ⟨type, htype⟩)
  constructor
  · intro h
    obtain ⟨v, hv⟩ := h
    obtain ⟨-, hput, -⟩ := of_object_eq_ok_iff.mp hv
    exact hput.admitted field type a htype (Keyed.find?_put_self ..)
  · intro hadmits
    have hkeys := Keyed.keys_put_of_mem a hfield
    have hne : Keyed.put field a fields ≠ [] := by
      intro hnil
      rw [← hkeys, hnil] at hfield
      exact absurd hfield List.not_mem_nil
    refine ⟨_, of_object_eq_ok_iff.mpr ⟨hne, ⟨?_, ?_⟩, rfl⟩⟩
    · rw [hkeys]
      exact haccepts.keys
    · intro name type' v htype' hv
      by_cases hname : field = name
      · subst hname
        rw [Keyed.find?_put_self] at hv
        cases hv
        cases htype.symm.trans htype'
        exact hadmits
      · rw [Keyed.find?_put_of_ne hname] at hv
        exact haccepts.admitted name type' v htype' hv

/-- The laws of a lens on the values of its record, the independence of the other lenses, and
what validation thinks of an update. -/
theorem lens_laws (reached : r.Reachable t) {field : String} {type : FieldType}
    (declared : r.fieldType? field = some type) :
    ∃ l, r.lens? field = some l ∧ l.LawfulAt t ∧
      (∀ other m, other ≠ field → r.lens? other = some m → ∀ a b, ∃ t',
        (l.set t a >>= fun s => m.set s b) = .ok t' ∧
          (m.set t b >>= fun s => l.set s a) = .ok t') ∧
      ∀ payload, t.tags.payload = some payload → (∃ v, r.of payload = .ok v) → ∀ a, ∃ t' payload',
        l.set t a = .ok t' ∧ t'.tags.payload = some payload' ∧
          ((∃ v, r.of payload' = .ok v) ↔ type.admits a = true) := by
  obtain ⟨fields, rfl, hkeys⟩ := reached.exists_fields
  have hdeclared : field ∈ Keyed.keys r.fields := Keyed.find?_isSome_iff.mp ⟨type, declared⟩
  have hfield : field ∈ Keyed.keys fields := (hkeys field).mpr hdeclared
  have hset : ∀ fields name a, Lens.set ⟨r.name, name⟩ (r.instanceOf fields) a =
      .ok (r.instanceOf (Keyed.put name a fields)) := by
    intro fields name a
    exact Lens.set_tagged ⟨r.name, name⟩ r.name .record fields a
  refine ⟨⟨r.name, field⟩, lens?_eq_some_iff.mpr ⟨hdeclared, rfl⟩, ?_, ?_, ?_⟩
  · exact Lens.lawfulAt hfield
  · intro other m hne hlens a b
    obtain ⟨-, rfl⟩ := lens?_eq_some_iff.mp hlens
    refine ⟨r.instanceOf (Keyed.put other b (Keyed.put field a fields)), ?_, ?_⟩
    · exact bind_eq_ok.mpr ⟨_, hset fields field a, hset _ other b⟩
    · rw [Keyed.put_comm hne.symm hfield]
      exact bind_eq_ok.mpr ⟨_, hset fields other b, hset _ field a⟩
  · intro payload hpayload haccepted a
    cases hpayload
    exact ⟨_, _, hset fields field a, rfl, exists_of_put_iff declared haccepted a⟩

/-- The phone number of a contact after the name was replaced. A text in its place is read back,
and validation refuses it. -/
theorem lens_laws_contact : ∃ t, contact.Reachable t ∧
    ∃ l, contact.lens? "phone" = some l ∧ l.LawfulAt t ∧
      ∃ t' payload, l.set t (.string "none") = .ok t' ∧ t'.tags.payload = some payload ∧
        ¬ ∃ v, contact.of payload = .ok v := by
  have hann : contact.of (.object ann) = .ok (contact.instanceOf ann) :=
    of_object_eq_ok_iff.mpr ⟨List.cons_ne_nil _ _, accepts_ann, rfl⟩
  have hname : (⟨"Contact", "name"⟩ : Lens) ∈ contact.lenses := by decide
  have hreached := Reachable.modify (h := fun _ => .string "Bob") (.of hann) hname rfl
  have hphone : contact.fieldType? "phone" = some (.single (.primitive .number)) := rfl
  obtain ⟨l, hl, hlawful, -, hvalidated⟩ := lens_laws hreached hphone
  have htext : contact.fieldType? "name" = some (.single (.primitive .string)) := rfl
  have hbob : ∃ v, contact.of (.object (Keyed.put "name" (.string "Bob") ann)) = .ok v :=
    (exists_of_put_iff htext ⟨_, hann⟩ _).mpr rfl
  obtain ⟨t', payload, hset, hpayload, haccepted⟩ := hvalidated _ rfl hbob (.string "none")
  refine ⟨_, hreached, l, hl, hlawful, t', payload, hset, hpayload, ?_⟩
  intro h
  cases haccepted.mp h

end Record
end TaggedData
