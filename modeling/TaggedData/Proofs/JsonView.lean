import TaggedData.Proofs.EqualityLaws
import TaggedData.Proofs.Representation
import TaggedData.Proofs.WholeNumbers

/-!
# The JSON view of values

The JSON view leaves out what a document cannot hold: entries without a value go, other values
than data become their texts, and numbers that are not finite become `null`. Nothing more is
lost after that. A value read back from its view has the same view, and a value that was read
from a document is equal to the one that is read from its view.
-/

namespace TaggedData

namespace Json

open Binary64

variable {x : Binary64}

theorem ofBinary64_of_asInteger? {n : Int} (h : x.asInteger? = some n) :
    ∃ inRange, ofBinary64 x = .number (.integer n inRange) := by
  have hrange := asInteger?_range h
  refine ⟨by omega, ?_⟩
  unfold ofBinary64
  split
  · rename_i m hm
    cases h.symm.trans hm
    rfl
  · rename_i hnone
    cases h.symm.trans hnone

theorem ofBinary64_of_isFinite (h : x.asInteger? = none) (isFinite : x.isFinite = true) :
    ofBinary64 x = .number (.real x isFinite) := by
  unfold ofBinary64
  split
  · rename_i n hn
    cases h.symm.trans hn
  · rw [dif_pos isFinite]

theorem ofBinary64_of_not_isFinite (h : x.isFinite = false) : ofBinary64 x = .null := by
  unfold ofBinary64
  split
  · rename_i n hn
    obtain ⟨m, hm, -⟩ := asInteger?_eq_some_iff.mp hn
    rw [isFinite_of_value? hm] at h
    cases h
  · simp [h]

/-- What a finite number is written as is read back with the same value, and is written as the
same integer if it is one. -/
theorem exists_number_of_isFinite (h : x.isFinite = true) : ∃ n : JsonNumber,
    ofBinary64 x = .number n ∧ n.toBinary64.equals x = true ∧
      ofBinary64 n.toBinary64 = .number n := by
  cases hwhole : x.asInteger? with
  | some n =>
    obtain ⟨inRange, hview⟩ := ofBinary64_of_asInteger? hwhole
    have hvalue : (ofInt n).value? = x.value? := value?_ofInt_asInteger? hwhole
    obtain ⟨m, hm, -⟩ := asInteger?_eq_some_iff.mp hwhole
    refine ⟨.integer n inRange, hview, equals_of_value? (hvalue.trans hm) hm, ?_⟩
    obtain ⟨_, hview'⟩ := ofBinary64_of_asInteger? ((asInteger?_congr hvalue).trans hwhole)
    exact hview'
  | none =>
    have hview := ofBinary64_of_isFinite hwhole h
    refine ⟨.real x h, hview, equals_self ?_, hview⟩
    rintro rfl
    cases h

end Json

theorem JsonNumber.isFinite_toBinary64 (n : JsonNumber) : n.toBinary64.isFinite = true := by
  cases n with
  | integer n inRange => exact Binary64.isFinite_ofInt (by omega)
  | real x isFinite => exact isFinite

namespace Value

theorem isNil_ofJson (j : Json) : (ofJson j).isNil = false := by
  cases j <;> rfl

theorem toJson_list (items : List Value) : (list items).toJson = .array (items.map toJson) := by
  rw [toJson, viewAll_eq_map]

/-- A plain value has no entry to leave out. -/
theorem toJson_object_ofJson (fields : Keyed Json) :
    (object (fields.map fun (key, j) => (key, ofJson j))).toJson =
      .object (fields.map fun (key, j) => (key, (ofJson j).toJson)) := by
  rw [toJson, viewFields_eq_filterMap, List.filterMap_map]
  simp [isNil_ofJson, List.filterMap_eq_map']

/-- The view of the number that a document has is read back as a number that is equal to it. -/
theorem exists_view_number (n : JsonNumber) : ∃ m : JsonNumber,
    (ofJson (.number n)).toJson = .number m ∧ m.toBinary64.equals n.toBinary64 = true := by
  obtain ⟨m, hview, hequals, -⟩ := Json.exists_number_of_isFinite n.isFinite_toBinary64
  exact ⟨m, by rw [ofJson, toJson, hview], hequals⟩

def Settled (j : Json) : Prop :=
  (ofJson j).toJson = j

theorem settled_array {items : List Json} (h : ∀ item ∈ items, Settled item) :
    Settled (.array items) := by
  have hitems : (items.map ofJson).map toJson = items := by
    rw [List.map_map]
    exact (List.map_congr_left h).trans (List.map_id items)
  rw [Settled, ofJson_array, toJson_list, hitems]

theorem settled_object {fields : Keyed Json} (h : ∀ entry ∈ fields, Settled entry.2) :
    Settled (.object fields) := by
  have hentries : fields.map (fun (key, j) => (key, (ofJson j).toJson)) = fields := by
    refine (List.map_congr_left fun entry hentry => ?_).trans (List.map_id fields)
    exact Prod.ext rfl (h entry hentry)
  rw [Settled, ofJson_object, toJson_object_ofJson, hentries]

theorem settled_number (x : Binary64) : Settled (.ofBinary64 x) := by
  by_cases hfinite : x.isFinite = true
  · obtain ⟨n, hview, -, hagain⟩ := Json.exists_number_of_isFinite hfinite
    rw [hview, Settled, ofJson, toJson, hagain]
  · rw [Json.ofBinary64_of_not_isFinite (Bool.eq_false_iff.mpr hfinite)]
    rfl

theorem settled_toJson (v : Value) : Settled v.toJson := by
  induction v using induction with
  | list items ih =>
    rw [toJson_list]
    refine settled_array fun j hj => ?_
    obtain ⟨item, hitem, rfl⟩ := List.mem_map.mp hj
    exact ih item hitem
  | object fields ih =>
    rw [toJson, viewFields_eq_filterMap]
    refine settled_object fun entry hentry => ?_
    obtain ⟨source, hsource, hview⟩ := List.mem_filterMap.mp hentry
    split_ifs at hview
    cases hview
    exact ih source hsource
  | tagged typeName label form payload _ =>
    rw [toJson_tagged]
    rfl
  | single v hlist hobject htagged =>
    cases v with
    | list => cases hlist
    | object => cases hobject
    | tagged => cases htagged
    | number x => exact settled_number x
    | _ => rfl

/-- Reading back a document from its value changes at most how numbers are written. -/
theorem equals_ofJson_toJson (j : Json) (hj : j.Unique) :
    (ofJson (ofJson j).toJson).equals (ofJson j) = true := by
  induction j, hj using Json.Unique.induction with
  | null => rfl
  | bool | string => simp [ofJson, toJson, equals]
  | number n =>
    obtain ⟨m, hview, hequals⟩ := exists_view_number n
    rw [hview, ofJson, ofJson, equals_number, hequals]
  | array items hu ih =>
    rw [ofJson_array, toJson_list, ofJson_array, equals_list_iff, List.map_map, List.map_map,
      EqualItems, List.forall₂_map_left_iff, List.forall₂_map_right_iff, List.forall₂_same]
    exact ih
  | object fields hu ih =>
    have hkeys : Keyed.Unique fields := (Json.unique_object.mp hu).1
    have hview : ofJson (ofJson (.object fields)).toJson =
        .object (fields.map fun (key, j) => (key, ofJson (ofJson j).toJson)) := by
      rw [ofJson_object, toJson_object_ofJson, ofJson_object, List.map_map]
      rfl
    rw [hview, ofJson_object]
    apply equals_object_of_entries
    · simpa [Keyed.Unique, Keyed.keys, Function.comp_def] using hkeys
    · rwa [Keyed.Unique, keys_ofJson]
    · simp [Keyed.keys, Function.comp_def]
    · intro key v w hv hw
      obtain ⟨⟨_, j⟩, hmem, heq⟩ := List.mem_map.mp hv
      obtain ⟨⟨_, k⟩, hmem', heq'⟩ := List.mem_map.mp hw
      cases heq
      cases heq'
      rw [hkeys.eq_of_mem hmem' hmem]
      exact ih _ hmem

/-- Taking the view and reading it back is settled after one round, from values and from
documents. -/
theorem view_laws :
    (∀ v : Value, (ofJson v.toJson).toJson = v.toJson) ∧
    ∀ j : Json, j.Unique → (ofJson (ofJson j).toJson).equals (ofJson j) = true :=
  ⟨settled_toJson, equals_ofJson_toJson⟩

/-- Numbers at the bounds of integers: both bounds, the largest integer of 64 bits, an integer
of more than 53 bits and the zero with a sign. -/
def boundaryNumbers : List JsonNumber :=
  [.integer (-2 ^ (63 : Nat)) (by decide), .integer (2 ^ (63 : Nat)) (by decide),
    .integer (2 ^ (64 : Nat) - 1) (by decide), .integer (2 ^ (53 : Nat) + 1) (by decide),
    .real (.zero true) rfl]

/-- The upper bound is written as the integer below it and is read back from that. -/
theorem view_laws_boundaryNumbers :
    (ofJson (.number (.integer (2 ^ (63 : Nat)) (by decide)))).toJson =
        .number (.integer (2 ^ (63 : Nat) - 1) (by decide)) ∧
      (ofJson (ofJson (.array (boundaryNumbers.map .number))).toJson).equals
        (ofJson (.array (boundaryNumbers.map .number))) = true ∧
      (ofJson (toJson (.object [("a", .nil), ("b", .list [.nil, .number .nan])]))).toJson =
        .object [("b", .array [.null, .null])] := by
  obtain ⟨values, documents⟩ := view_laws
  refine ⟨?_, documents _ ?_, ?_⟩
  · have hwhole : (JsonNumber.integer (2 ^ (63 : Nat)) (by decide)).toBinary64.asInteger? =
        some (2 ^ (63 : Nat) - 1) := by decide +kernel
    obtain ⟨_, hview⟩ := Json.ofBinary64_of_asInteger? hwhole
    rw [ofJson, toJson, hview]
  · simp [boundaryNumbers, Json.Unique, Json.AllUnique]
  · rw [values]
    rfl

end Value
end TaggedData
