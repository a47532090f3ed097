import Mathlib.Data.List.TakeDrop
import Mathlib.Data.List.TakeWhile
import TaggedData.Proofs.Basic
import TaggedData.Proofs.Definitions
import TaggedData.Proofs.Parts
import TaggedData.Schema.Loading

/-!
# The register of definitions

A definition is added under a name that is neither taken nor primitive. The descriptors of
a schema document are made of definitions that were added before.
-/

namespace TaggedData

namespace Keyed

variable {α : Type} {key : String} {fields : Keyed α}

theorem removeSwap_perm (key : String) (fields : Keyed α) :
    (removeSwap key fields).Perm (fields.eraseP fun p => p.1 = key) := by
  have hsplit :=
    List.takeWhile_append_dropWhile (p := fun p : String × α => p.1 ≠ key) (l := fields)
  have hbefore : ∀ p ∈ fields.takeWhile (fun p => p.1 ≠ key), ¬ decide (p.1 = key) := by
    intro p hp
    simpa using List.mem_takeWhile_imp hp
  have hfirst := List.head?_dropWhile_not (fun p : String × α => p.1 ≠ key) fields
  unfold removeSwap
  rw [List.span_eq_takeWhile_dropWhile]
  generalize fields.takeWhile (fun p => p.1 ≠ key) = before at *
  generalize fields.dropWhile (fun p => p.1 ≠ key) = dropped at *
  rw [← hsplit, List.eraseP_append_right _ hbefore]
  cases dropped with
  | nil => simp
  | cons entry after =>
    rw [List.eraseP_cons_of_pos (by simpa using hfirst)]
    cases hlast : after.getLast? with
    | none => simp [List.getLast?_eq_none_iff.mp hlast]
    | some last =>
      obtain ⟨init, rfl⟩ := List.getLast?_eq_some_iff.mp hlast
      simp only [hlast, List.dropLast_concat]
      exact List.Perm.append_left before (List.perm_append_singleton last init).symm

theorem Unique.removeSwap (h : Unique fields) (key : String) : Unique (removeSwap key fields) := by
  rw [Unique, keys, ((removeSwap_perm key fields).map Prod.fst).nodup_iff]
  exact h.sublist (List.eraseP_sublist.map Prod.fst)

theorem mem_of_mem_removeSwap {entry : String × α} (h : entry ∈ removeSwap key fields) :
    entry ∈ fields :=
  List.mem_of_mem_eraseP ((removeSwap_perm key fields).subset h)

theorem find?_removeSwap_of_ne (hu : Unique fields) {other : String} (h : other ≠ key) :
    find? other (removeSwap key fields) = find? other fields := by
  refine Option.ext fun value => ?_
  rw [find?_eq_some_iff (hu.removeSwap key), find?_eq_some_iff hu,
    (removeSwap_perm key fields).mem_iff, List.mem_eraseP_of_neg (by simpa using h)]

end Keyed

namespace Schema

variable {s t : Schema} {d : Definition} {name : String}

theorem mem_of_find? (h : s.find? name = some d) : d ∈ s.definitions ∧ d.name = name :=
  ⟨List.mem_of_find?_eq_some h, by simpa using List.find?_some h⟩

theorem find?_eq_none_iff : s.find? name = none ↔ name ∉ s.definitions.map Definition.name := by
  simp [find?, List.find?_eq_none]

/-- A definition is added at the end, unless its name is primitive or taken. -/
theorem insert_eq_ok_iff : s.insert d = .ok t ↔ Primitive.ofName? d.name = none ∧
    d.name ∉ s.definitions.map Definition.name ∧ t = ⟨s.definitions ++ [d]⟩ := by
  unfold insert
  rw [← find?_eq_none_iff]
  split_ifs with hprimitive hfound
  · simp [Option.isSome_iff_ne_none.mp hprimitive]
  · simp [Option.isSome_iff_ne_none.mp hfound]
  · rw [Option.not_isSome_iff_eq_none] at hprimitive hfound
    simp [hprimitive, hfound, eq_comm]

theorem insert_spec (h : s.insert d = .ok t) :
    d.name ∉ s.definitions.map Definition.name ∧ t = ⟨s.definitions ++ [d]⟩ :=
  (insert_eq_ok_iff.mp h).2

theorem names_insert (hs : (s.definitions.map Definition.name).Nodup) (h : s.insert d = .ok t) :
    (t.definitions.map Definition.name).Nodup := by
  obtain ⟨hname, rfl⟩ := insert_spec h
  rw [List.map_append, List.map_singleton, List.nodup_append_comm, List.singleton_append,
    List.nodup_cons]
  exact ⟨hname, hs⟩

theorem defineUnion_spec {id : Nat} {descriptor : Value} {u : Union}
    (h : s.defineUnion id descriptor = .ok (t, u)) :
    Union.define id descriptor = .ok u ∧ s.insert (.union u) = .ok t := by
  simp only [defineUnion, bind_eq_ok] at h
  obtain ⟨u', hu, t', ht, heq⟩ := h
  cases heq
  exact ⟨hu, ht⟩

theorem defineRecord_spec {id : Nat} {descriptor : Value} {r : Record}
    (h : s.defineRecord id descriptor = .ok (t, r)) :
    Record.define id descriptor = .ok r ∧ s.insert (.record r) = .ok t := by
  simp only [defineRecord, bind_eq_ok] at h
  obtain ⟨r', hr, t', ht, heq⟩ := h
  cases heq
  exact ⟨hr, ht⟩

variable {known : Definition → Prop} {typed : Value → Prop} {v : Value}

theorem madeOf_resolve (hknown : ∀ d ∈ s.definitions, known d) (h : s.resolve name = .ok v) :
    v.MadeOf known typed := by
  unfold resolve at h
  split at h
  · cases h
    exact Value.madeOf_atom rfl
  · split at h
    · rename_i d hfind
      cases h
      exact Value.madeOf_definition (hknown d (mem_of_find? hfind).1)
    · cases h

theorem madeOf_resolveEntry (hknown : ∀ d ∈ s.definitions, known d) {entry : Json}
    (hu : entry.Unique) (h : s.resolveEntry entry = .ok v) : v.MadeOf known typed := by
  unfold resolveEntry at h
  split at h
  · exact madeOf_resolve hknown h
  · obtain ⟨type, htype, rfl⟩ := map_eq_ok.mp h
    refine Value.madeOf_list.mpr fun item hitem => ?_
    rw [List.mem_singleton.mp hitem]
    exact madeOf_resolve hknown htype
  · cases h
    exact Value.madeOf_ofJson _ hu

/-- An entry of a shape and what it is resolved to. -/
structure Resolves (s : Schema) (entry : String × Json) (resolved : String × Value) : Prop where
  name : resolved.1 = entry.1
  value : s.resolveEntry entry.2 = .ok resolved.2

theorem resolveShape_eq_ok_iff {shape : Keyed Json} {types : Keyed Value} :
    s.resolveShape shape = .ok types ↔ List.Forall₂ s.Resolves shape types := by
  induction shape generalizing types with
  | nil => cases types <;> simp [resolveShape]
  | cons entry rest ih =>
    obtain ⟨field, entry⟩ := entry
    simp only [resolveShape, bind_eq_ok, List.forall₂_cons_left_iff]
    constructor
    · rintro ⟨type, htype, others, hothers, h⟩
      cases h
      exact ⟨(field, type), others, ⟨rfl, htype⟩, ih.mp hothers, rfl⟩
    · rintro ⟨⟨_, type⟩, others, ⟨rfl, htype⟩, hothers, rfl⟩
      exact ⟨type, htype, others, ih.mpr hothers, rfl⟩

theorem madeOf_resolveShape (hknown : ∀ d ∈ s.definitions, known d) {shape : Keyed Json}
    (hu : (Json.object shape).Unique) {types : Keyed Value}
    (h : s.resolveShape shape = .ok types) : (Value.object types).MadeOf known typed := by
  have hresolves := resolveShape_eq_ok_iff.mp h
  obtain ⟨hunique, hinner⟩ := Json.unique_object.mp hu
  refine Value.madeOf_object.mpr ⟨?_, fun entry hentry => ?_⟩
  · rw [Keyed.Unique, Keyed.keys_eq_of_forall₂ (hresolves.imp fun _ _ h => h.name)]
    exact hunique
  · obtain ⟨_, hj, hresolve⟩ := exists_of_forall₂ hresolves hentry
    exact madeOf_resolveEntry hknown (hinner _ hj) hresolve.value

/-- The names in a descriptor stand for definitions of the schema, and the rest is plain. -/
theorem madeOf_resolveDescriptor (hknown : ∀ d ∈ s.definitions, known d) {j : Json}
    (hu : j.Unique) (h : s.resolveDescriptor j = .ok v) : v.MadeOf known typed := by
  unfold resolveDescriptor at h
  split at h
  · rename_i fields
    obtain ⟨hunique, hentries⟩ := Json.unique_object.mp hu
    have hothers : (Value.ofJson (.object (Keyed.removeSwap "shape" fields))).MadeOf known typed :=
      Value.madeOf_ofJson _ (Json.unique_object.mpr ⟨hunique.removeSwap "shape", fun entry hentry =>
        hentries entry (Keyed.mem_of_mem_removeSwap hentry)⟩)
    dsimp only at h
    split at h
    · rename_i shape hfind
      obtain ⟨types, htypes, rfl⟩ := map_eq_ok.mp h
      have hshape := hentries _ (Keyed.mem_of_find? hfind)
      exact Value.madeOf_put hothers (madeOf_resolveShape hknown hshape htypes)
    · rename_i shape _ hfind
      cases h
      exact Value.madeOf_put hothers
        (Value.madeOf_ofJson shape (hentries _ (Keyed.mem_of_find? hfind)))
    · cases h
      exact hothers
  · cases h
    exact Value.madeOf_ofJson _ hu

end Schema
end TaggedData
