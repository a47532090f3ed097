import Mathlib.Data.List.Perm.Subperm
import Mathlib.Data.List.Zip
import TaggedData.Proofs.Equality

/-!
# Laws of equality

Equality of values is symmetric and transitive, and a value equals itself unless it has NaN
somewhere in it. Keyed structures are compared by looking up the entries of the one in the
other, which goes one way only. The other way is a matter of counting: where both have as many
entries and no key twice, the keys of the one are all the keys of the other.
-/

namespace TaggedData

namespace Keyed

variable {α : Type} {fields others : Keyed α}

/-- Keys that differ and are all found in a list of the same length are all the keys of it. -/
theorem mem_keys_iff_of_length_eq (hu : Unique fields) (hlength : fields.length = others.length)
    (hsubset : ∀ key ∈ keys fields, key ∈ keys others) (key : String) :
    key ∈ keys fields ↔ key ∈ keys others := by
  have hlengths : (keys others).length ≤ (keys fields).length := by simp [keys, hlength]
  have hperm : (keys fields).Perm (keys others) :=
    (hu.subperm hsubset).perm_of_length_le hlengths
  exact hperm.mem_iff

end Keyed

namespace Binary64

variable {x y z : Binary64}

theorem equals_eq_true_iff :
    x.equals y = true ↔ x ≠ .nan ∧ (x = y ∨ x.isZero = true ∧ y.isZero = true) := by
  cases x <;> simp [equals]

theorem equals_symm (h : x.equals y = true) : y.equals x = true := by
  rw [equals_eq_true_iff] at h ⊢
  obtain ⟨hx, rfl | ⟨hzero, hzero'⟩⟩ := h
  · exact ⟨hx, .inl rfl⟩
  · refine ⟨?_, .inr ⟨hzero', hzero⟩⟩
    rintro rfl
    cases hzero'

theorem equals_trans (h : x.equals y = true) (h' : y.equals z = true) : x.equals z = true := by
  rw [equals_eq_true_iff] at h h' ⊢
  obtain ⟨hx, rfl | ⟨hzero, hzero'⟩⟩ := h
  · exact ⟨hx, h'.2⟩
  · obtain ⟨-, rfl | ⟨-, hzero''⟩⟩ := h'
    · exact ⟨hx, .inr ⟨hzero, hzero'⟩⟩
    · exact ⟨hx, .inr ⟨hzero, hzero''⟩⟩

end Binary64

namespace Value

theorem induction {motive : Value → Prop}
    (list : ∀ items : List Value, (∀ item ∈ items, motive item) → motive (.list items))
    (object : ∀ fields : Keyed Value, (∀ entry ∈ fields, motive entry.2) → motive (.object fields))
    (tagged : ∀ typeName label form payload, motive payload →
      motive (.tagged typeName label form payload))
    (single : ∀ v : Value, v.isList = false → v.isObject = false → v.isTagged = false → motive v) :
    ∀ v, motive v
  | .list items => list items fun item _ => induction list object tagged single item
  | .object fields => object fields fun entry _ => induction list object tagged single entry.2
  | .tagged typeName label form payload =>
    tagged typeName label form payload (induction list object tagged single payload)
  | .nil | .null | .bool _ | .number _ | .string _ | .symbol _ | .function _ | .primitive _
  | .definition _ | .constructor _ => single _ rfl rfl rfl
termination_by v => sizeOf v
decreasing_by
  · have hlt := List.sizeOf_lt_of_mem ‹_›
    simp only [Value.list.sizeOf_spec]
    omega
  · have hlt := Keyed.sizeOf_lt_of_mem ‹_›
    simp only [Value.object.sizeOf_spec]
    omega
  · simp only [Value.tagged.sizeOf_spec]
    omega

theorem exists_list_of_equals {items : List Value} {b : Value}
    (h : (list items).equals b = true) : ∃ others, b = list others ∧ EqualItems items others := by
  cases b with
  | list others => exact ⟨others, rfl, equals_list_iff.mp h⟩
  | _ => cases h

theorem exists_object_of_equals {fields : Keyed Value} {b : Value}
    (h : (object fields).equals b = true) : ∃ others, b = object others ∧
      fields.length = others.length ∧ ∀ entry ∈ fields, ∃ y,
        Keyed.find? entry.1 others = some y ∧ entry.2.equals y = true := by
  cases b with
  | object others =>
    rw [equals_object, Bool.and_eq_true, beq_iff_eq, includedFields_iff] at h
    exact ⟨others, rfl, h⟩
  | _ => cases h

theorem exists_tagged_of_equals {typeName label : String} {form : Form} {payload b : Value}
    (h : (tagged typeName label form payload).equals b = true) :
    ∃ payload', b = tagged typeName label form payload' ∧ payload.equals payload' = true := by
  cases b with
  | tagged =>
    obtain ⟨rfl, rfl, rfl, hpayload⟩ := equals_tagged_iff.mp h
    exact ⟨_, rfl, hpayload⟩
  | _ => cases h

/-- What holds no other values is equal to nothing but itself, numbers apart. -/
theorem eq_or_number_of_equals {a b : Value} (hlist : a.isList = false)
    (hobject : a.isObject = false) (htagged : a.isTagged = false) (h : a.equals b = true) :
    a = b ∨ ∃ x y, a = number x ∧ b = number y ∧ x.equals y = true := by
  cases a with
  | list => cases hlist
  | object => cases hobject
  | tagged => cases htagged
  | number x =>
    cases b with
    | number y => exact .inr ⟨x, y, rfl, rfl, h⟩
    | _ => cases h
  | nil | null => cases b <;> first | exact .inl rfl | cases h
  | _ => cases b <;> first | cases h | exact .inl (congrArg _ (eq_of_beq h))

theorem equals_object_iff {fields others : Keyed Value} (hu : Keyed.Unique fields)
    (hu' : Keyed.Unique others) :
    (object fields).equals (object others) = true ↔
      (∀ key, key ∈ Keyed.keys fields ↔ key ∈ Keyed.keys others) ∧
        ∀ key v w, (key, v) ∈ fields → (key, w) ∈ others → v.equals w = true := by
  constructor
  · intro h
    obtain ⟨_, heq, hlength, hentries⟩ := exists_object_of_equals h
    cases heq
    constructor
    · refine Keyed.mem_keys_iff_of_length_eq hu hlength fun key hkey => ?_
      obtain ⟨v, hv⟩ := Keyed.exists_mem_of_mem_keys hkey
      obtain ⟨y, hy, -⟩ := hentries _ hv
      exact Keyed.mem_keys_of_mem (Keyed.mem_of_find? hy)
    · intro key v w hv hw
      obtain ⟨y, hy, hequals⟩ := hentries _ hv
      rw [Keyed.find?_eq_some_iff hu'] at hy
      rwa [hu'.eq_of_mem hw hy]
  · rintro ⟨keys, each⟩
    exact equals_object_of_entries hu hu' keys each

theorem equals_symm {a b : Value} (ha : a.Unique) (hb : b.Unique) (h : a.equals b = true) :
    b.equals a = true := by
  induction a using induction generalizing b with
  | list items ih =>
    obtain ⟨others, rfl, hitems⟩ := exists_list_of_equals h
    rw [unique_list] at ha hb
    refine equals_list_iff.mpr (List.forall₂_iff_zip.mpr ⟨hitems.length_eq.symm, ?_⟩)
    intro y x hmem
    obtain ⟨hy, hx⟩ := List.of_mem_zip hmem
    refine ih x hx (ha x hx) (hb y hy) ((List.forall₂_iff_zip.mp hitems).2 ?_)
    rw [← List.zip_swap]
    exact List.mem_map_of_mem (f := Prod.swap) hmem
  | object fields ih =>
    obtain ⟨others, rfl, -⟩ := exists_object_of_equals h
    obtain ⟨hu, hentries⟩ := unique_object.mp ha
    obtain ⟨hu', hentries'⟩ := unique_object.mp hb
    obtain ⟨keys, each⟩ := (equals_object_iff hu hu').mp h
    refine (equals_object_iff hu' hu).mpr ⟨fun key => (keys key).symm, ?_⟩
    intro key w v hw hv
    exact ih (key, v) hv (hentries _ hv) (hentries' _ hw) (each key v w hv hw)
  | tagged typeName label form payload ih =>
    obtain ⟨payload', rfl, hpayload⟩ := exists_tagged_of_equals h
    exact equals_tagged_iff.mpr ⟨rfl, rfl, rfl, ih ha hb hpayload⟩
  | single v hlist hobject htagged =>
    rcases eq_or_number_of_equals hlist hobject htagged h with rfl | ⟨x, y, rfl, rfl, hxy⟩
    · exact h
    · rw [equals_number] at h ⊢
      exact Binary64.equals_symm h

/-- What an entry is equal to is looked up in the third structure under the same key. -/
theorem equals_trans {a b c : Value} (h : a.equals b = true) (h' : b.equals c = true) :
    a.equals c = true := by
  induction a using induction generalizing b c with
  | list items ih =>
    obtain ⟨others, rfl, hitems⟩ := exists_list_of_equals h
    obtain ⟨lasts, rfl, hothers⟩ := exists_list_of_equals h'
    have hboth := forall₂_comp hitems hothers
    rw [List.forall₂_iff_zip] at hboth
    refine equals_list_iff.mpr (List.forall₂_iff_zip.mpr ⟨hboth.1, ?_⟩)
    intro x z hmem
    obtain ⟨y, hxy, hyz⟩ := hboth.2 hmem
    exact ih x (List.of_mem_zip hmem).1 hxy hyz
  | object fields ih =>
    obtain ⟨others, rfl, hlength, hentries⟩ := exists_object_of_equals h
    obtain ⟨lasts, rfl, hlength', hothers⟩ := exists_object_of_equals h'
    rw [equals_object, Bool.and_eq_true, beq_iff_eq, includedFields_iff]
    refine ⟨hlength.trans hlength', ?_⟩
    intro entry hentry
    obtain ⟨y, hy, hxy⟩ := hentries entry hentry
    obtain ⟨z, hz, hyz⟩ := hothers _ (Keyed.mem_of_find? hy)
    exact ⟨z, hz, ih entry hentry hxy hyz⟩
  | tagged typeName label form payload ih =>
    obtain ⟨payload', rfl, hpayload⟩ := exists_tagged_of_equals h
    obtain ⟨payload'', rfl, hpayload'⟩ := exists_tagged_of_equals h'
    exact equals_tagged_iff.mpr ⟨rfl, rfl, rfl, ih hpayload hpayload'⟩
  | single v hlist hobject htagged =>
    rcases eq_or_number_of_equals hlist hobject htagged h with rfl | ⟨x, y, rfl, rfl, hxy⟩
    · exact h'
    · rcases eq_or_number_of_equals rfl rfl rfl h' with rfl | ⟨_, z, heq, rfl, hyz⟩
      · exact h
      · cases heq
        exact Binary64.equals_trans hxy hyz

/-- What equals itself does so in all its parts. -/
theorem equals_self_of_part {v w : Value} (hu : v.Unique) (h : v.equals v = true)
    (hpart : v.Part w) : w.equals w = true := by
  induction hpart with
  | refl v => exact h
  | item mem _ ih =>
    exact ih (unique_list.mp hu _ mem) (List.forall₂_same.mp (equals_list_iff.mp h) _ mem)
  | entry mem _ ih =>
    obtain ⟨hkeys, hentries⟩ := unique_object.mp hu
    exact ih (hentries _ mem) (((equals_object_iff hkeys hkeys).mp h).2 _ _ _ mem mem)
  | payload _ ih => exact ih hu (equals_tagged_iff.mp h).2.2.2

theorem equals_self_iff {v : Value} (hu : v.Unique) :
    v.equals v = true ↔ ¬ v.Part (number .nan) := by
  constructor
  · intro h hpart
    have hnan := equals_self_of_part hu h hpart
    cases hnan
  · intro h
    refine equals_self v hu fun w hw => ?_
    rintro rfl
    exact h hw

/-- Equality is a partial equivalence on the values without a repeated key. What it does not
relate to itself are the values with NaN in them, and it does not see the order of keys. -/
theorem equality_laws :
    (∀ a b : Value, a.Unique → b.Unique → a.equals b = true → b.equals a = true) ∧
    (∀ a b c : Value, a.equals b = true → b.equals c = true → a.equals c = true) ∧
    (∀ a : Value, a.Unique → (a.equals a = true ↔ ¬ a.Part (number .nan))) ∧
    ∀ fields others : Keyed Value, Keyed.Unique fields → Keyed.Unique others →
      ((object fields).equals (object others) = true ↔
        (∀ key, key ∈ Keyed.keys fields ↔ key ∈ Keyed.keys others) ∧
        ∀ key v w, (key, v) ∈ fields → (key, w) ∈ others → v.equals w = true) :=
  ⟨fun _ _ => equals_symm, fun _ _ _ => equals_trans, fun _ => equals_self_iff,
    fun _ _ => equals_object_iff⟩

/-- A reading with its two entries in either order, and with a sign on its zero. -/
def reading : Keyed Value :=
  [("level", .number (.zero false)), ("marks", .list [.tagged "Mark" "Low" (.variant 0) .null])]

def readingByMarks : Keyed Value :=
  [("marks", .list [.tagged "Mark" "Low" (.variant 0) .null]), ("level", .number (.zero true))]

/-- The two readings are equal both ways, and with NaN for its level a reading is not equal to
itself. -/
theorem equality_laws_reading :
    (object reading).equals (object readingByMarks) = true ∧
      (object readingByMarks).equals (object reading) = true ∧
      (object reading).equals (object reading) = true ∧
      (list [.object [("level", .number .nan)]]).equals
        (list [.object [("level", .number .nan)]]) = false := by
  obtain ⟨symm, trans, self, mapping⟩ := equality_laws
  have hu : (object reading).Unique := by
    simp [reading, Unique, AllUnique, FieldsUnique]
  have hu' : (object readingByMarks).Unique := by
    simp [readingByMarks, Unique, AllUnique, FieldsUnique]
  have hequals : (object reading).equals (object readingByMarks) = true := by
    refine (mapping _ _ (unique_object.mp hu).1 (unique_object.mp hu').1).mpr ⟨fun key => ?_, ?_⟩
    · simp [reading, readingByMarks, or_comm]
    · simp only [reading, readingByMarks, List.mem_cons, Prod.mk.injEq, List.not_mem_nil, or_false]
      rintro key v w (⟨rfl, rfl⟩ | ⟨rfl, rfl⟩) (⟨hkey, rfl⟩ | ⟨hkey, rfl⟩)
      · simp at hkey
      · rfl
      · rfl
      · simp at hkey
  have hequals' := symm _ _ hu hu' hequals
  refine ⟨hequals, hequals', trans _ _ _ hequals hequals', Bool.eq_false_iff.mpr fun h => ?_⟩
  refine (self _ ?_).mp h ?_
  · simp [Unique, AllUnique, FieldsUnique]
  · exact .item List.mem_cons_self (.entry List.mem_cons_self (.refl _))

end Value
end TaggedData
