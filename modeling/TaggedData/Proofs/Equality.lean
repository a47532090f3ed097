import TaggedData.Proofs.Parts
import TaggedData.Value.Equality

/-!
# Equal values

Lists are equal item by item, and typed values if their tags and their payloads are equal.
A keyed structure without a repeated key equals itself if its entries do. Only NaN is in the
way of that: what was read from a document always equals itself.
-/

namespace TaggedData

namespace Binary64

theorem equals_self {x : Binary64} (h : x ≠ .nan) : x.equals x = true := by
  cases x with
  | nan => exact absurd rfl h
  | _ => simp [equals]

theorem ofMagnitude_ne_nan (negative : Bool) (place : Nat) : ofMagnitude negative place ≠ .nan := by
  unfold ofMagnitude
  split <;> simp

theorem ofQuotient_ne_nan (negative : Bool) (num den : Nat) : ofQuotient negative num den ≠ .nan := by
  unfold ofQuotient
  split
  · simp [zero]
  · exact ofMagnitude_ne_nan _ _

end Binary64

theorem JsonNumber.toBinary64_ne_nan (n : JsonNumber) : n.toBinary64 ≠ .nan := by
  cases n with
  | integer n _ => exact Binary64.ofQuotient_ne_nan _ _ _
  | real x isFinite =>
    rintro rfl
    cases isFinite

namespace Value

abbrev EqualItems (xs ys : List Value) : Prop :=
  List.Forall₂ (fun x y => x.equals y = true) xs ys

theorem equals_number (x y : Binary64) : (number x).equals (number y) = x.equals y :=
  rfl

theorem equals_list (xs ys : List Value) : (list xs).equals (list ys) = equalLists xs ys :=
  rfl

theorem equals_object (xs ys : Keyed Value) :
    (object xs).equals (object ys) = (xs.length == ys.length && includedFields xs ys) :=
  rfl

theorem equals_tagged (typeName typeName' label label' : String) (form form' : Form)
    (payload payload' : Value) :
    (tagged typeName label form payload).equals (tagged typeName' label' form' payload') =
      (typeName == typeName' && label == label' && form == form' && payload.equals payload') :=
  rfl

theorem equalLists_iff {xs ys : List Value} : equalLists xs ys = true ↔ EqualItems xs ys := by
  induction xs generalizing ys with
  | nil => cases ys <;> simp [equalLists]
  | cons x xs ih => cases ys <;> simp [equalLists, ih]

theorem includedFields_iff {xs ys : Keyed Value} :
    includedFields xs ys = true ↔
      ∀ entry ∈ xs, ∃ y, Keyed.find? entry.1 ys = some y ∧ entry.2.equals y = true := by
  induction xs with
  | nil => simp [includedFields]
  | cons entry rest ih =>
    obtain ⟨key, x⟩ := entry
    rw [includedFields, Bool.and_eq_true, ih, List.forall_mem_cons]
    refine and_congr_left fun _ => ?_
    cases Keyed.find? key ys <;> simp

@[simp] theorem equals_list_iff {xs ys : List Value} :
    (list xs).equals (list ys) = true ↔ EqualItems xs ys := by
  rw [equals_list, equalLists_iff]

@[simp] theorem equals_tagged_iff {typeName typeName' label label' : String} {form form' : Form}
    {payload payload' : Value} :
    (tagged typeName label form payload).equals (tagged typeName' label' form' payload') = true ↔
      typeName = typeName' ∧ label = label' ∧ form = form' ∧ payload.equals payload' = true := by
  simp [equals_tagged, and_assoc]

theorem equals_list_self {items : List Value} (h : ∀ item ∈ items, item.equals item = true) :
    (list items).equals (list items) = true :=
  equals_list_iff.mpr (List.forall₂_same.mpr h)

theorem equals_object_of_entries {fields others : Keyed Value} (hu : Keyed.Unique fields)
    (hu' : Keyed.Unique others) (keys : ∀ key, key ∈ Keyed.keys fields ↔ key ∈ Keyed.keys others)
    (each : ∀ key v w, (key, v) ∈ fields → (key, w) ∈ others → v.equals w = true) :
    (object fields).equals (object others) = true := by
  have hlength : (Keyed.keys fields).length = (Keyed.keys others).length :=
    ((List.perm_ext_iff_of_nodup hu hu').mpr keys).length_eq
  rw [equals_object, Bool.and_eq_true, includedFields_iff]
  constructor
  · simpa [Keyed.keys] using hlength
  · intro entry hentry
    obtain ⟨w, hw⟩ := Keyed.find?_isSome_iff.mpr ((keys _).mp (Keyed.mem_keys_of_mem hentry))
    exact ⟨w, hw, each _ _ _ hentry (Keyed.mem_of_find? hw)⟩

/-- Every entry is found under its own key, wherever it stands. -/
theorem equals_object_of_perm {fields others : Keyed Value} (hu : Keyed.Unique fields)
    (hperm : fields.Perm others) (h : ∀ entry ∈ fields, entry.2.equals entry.2 = true) :
    (object fields).equals (object others) = true := by
  apply equals_object_of_entries hu (hu.perm hperm)
  · intro key
    exact (Keyed.keys_perm hperm).mem_iff
  · intro key v w hv hw
    have heq := hu.eq_of_mem hv (hperm.mem_iff.mpr hw)
    rw [← heq]
    exact h _ hv

theorem equals_object_self {fields : Keyed Value} (hu : Keyed.Unique fields)
    (h : ∀ entry ∈ fields, entry.2.equals entry.2 = true) :
    (object fields).equals (object fields) = true :=
  equals_object_of_perm hu (.refl fields) h

theorem equals_tagged_self {typeName label : String} {form : Form} {payload : Value}
    (h : payload.equals payload = true) :
    (tagged typeName label form payload).equals (tagged typeName label form payload) = true :=
  equals_tagged_iff.mpr ⟨rfl, rfl, rfl, h⟩

/-- What does not have NaN for a part. -/
theorem equals_self (v : Value) (hu : v.Unique) (hnan : ∀ w, v.Part w → w ≠ .number .nan) :
    v.equals v = true := by
  match v with
  | .number x =>
    have hx : x ≠ .nan := fun h => hnan (.number x) (.refl _) (congrArg Value.number h)
    exact Binary64.equals_self hx
  | .list items =>
    refine equals_list_self fun item hitem => ?_
    exact equals_self item (unique_list.mp hu item hitem) fun w hw => hnan w (.item hitem hw)
  | .object fields =>
    obtain ⟨hkeys, hentries⟩ := unique_object.mp hu
    refine equals_object_self hkeys fun entry hentry => ?_
    exact equals_self entry.2 (hentries entry hentry) fun w hw => hnan w (.entry hentry hw)
  | .tagged typeName label form payload =>
    exact equals_tagged_self (equals_self payload hu fun w hw => hnan w (.payload hw))
  | .nil | .null => rfl
  | .bool _ | .string _ | .symbol _ | .function _ | .primitive _ | .definition _
  | .constructor _ => exact beq_self_eq_true _
termination_by sizeOf v
decreasing_by
  · have hlt := List.sizeOf_lt_of_mem ‹_›
    simp only [list.sizeOf_spec]
    omega
  · have hlt := Keyed.sizeOf_lt_of_mem ‹_›
    simp only [object.sizeOf_spec]
    omega
  · simp only [tagged.sizeOf_spec]
    omega

/-- A document has no NaN, and no object of it has a key twice. -/
theorem equals_ofJson_self (j : Json) (hj : j.Unique) : (ofJson j).equals (ofJson j) = true := by
  induction j, hj using Json.Unique.induction with
  | null => rfl
  | bool | string => exact beq_self_eq_true _
  | number n =>
    exact Binary64.equals_self n.toBinary64_ne_nan
  | array items hu ih =>
    rw [ofJson_array]
    apply equals_list_self
    intro v hv
    obtain ⟨item, hitem, rfl⟩ := List.mem_map.mp hv
    exact ih item hitem
  | object fields hu ih =>
    rw [ofJson_object]
    apply equals_object_self
    · rw [Keyed.Unique, keys_ofJson]
      exact (Json.unique_object.mp hu).1
    · intro entry hentry
      obtain ⟨⟨key, j⟩, hj, rfl⟩ := List.mem_map.mp hentry
      exact ih _ hj

end Value
end TaggedData
