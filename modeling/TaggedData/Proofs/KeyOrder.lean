import TaggedData.Proofs.Definitions
import TaggedData.Proofs.Equality
import TaggedData.Proofs.Erasure
import TaggedData.Proofs.NameOrder
import TaggedData.Proofs.Validation

/-!
# Validation and the order of keys

Neither the order in which a record declares its fields nor the order in which a structure
gives them has an influence on what validation shows. All that it compares and writes goes
through sorted names, and a field is looked up by its name.
-/

namespace TaggedData
namespace Record

/-- Two records whose declarations differ in order at most, apart from their identities. -/
structure Reordered (r s : Record) : Prop where
  name : r.name = s.name
  types : ∀ field, r.fieldType? field = s.fieldType? field
  unique : Keyed.Unique r.fields
  unique' : Keyed.Unique s.fields

namespace Reordered

variable {r s : Record} (h : r.Reordered s)
include h

theorem perm : r.fields.Perm s.fields :=
  Keyed.perm_of_find?_eq h.unique h.unique' h.types

theorem signature_eq : r.signature = s.signature :=
  signature_eq_of_perm h.unique h.name h.perm

theorem sorted_keys_eq :
    Names.sorted (Keyed.keys r.fields) = Names.sorted (Keyed.keys s.fields) :=
  Names.sorted_eq_of_perm (Keyed.keys_perm h.perm)

theorem message_misfit (name : String) (type : FieldType) (v : Value) :
    (r.misfit name type v).message = (s.misfit name type v).message := by
  unfold misfit
  split
  · split <;> simp only [ShapeFault.message, ShapeFault.mismatch, h.name, h.signature_eq]
  · simp only [ShapeFault.message, ShapeFault.mismatch, h.name, h.signature_eq]

/-- One step of the check sees the same type and the same value in both. -/
theorem outcome_checkFields {fields others : Keyed Value}
    (same : ∀ key, Keyed.find? key fields = Keyed.find? key others) (names : List String) :
    outcome (r.checkFields fields names) = outcome (s.checkFields others names) := by
  induction names with
  | nil => rfl
  | cons name rest ih =>
    rw [checkFields, checkFields, h.types, same]
    split
    · split
      · exact ih
      · exact outcome_error (h.message_misfit name _ _)
    · exact ih

theorem outcome_of {fields others : Keyed Value} (hperm : fields.Perm others)
    (same : ∀ key, Keyed.find? key fields = Keyed.find? key others) :
    (outcome (r.of (.object fields))).map (fun _ => ()) =
      (outcome (s.of (.object others))).map fun _ => () := by
  by_cases hne : fields = []
  · subst hne
    rw [List.nil_perm.mp hperm]
    simp only [of, outcome, Except.mapError, Fault.message, ShapeFault.message, h.name,
      h.signature_eq]
  have hne' : others ≠ [] := fun hnil => hne (List.perm_nil.mp (hnil ▸ hperm))
  have hunexpected := Names.missingFrom_congr (Keyed.mem_keys_congr h.types)
    (Keyed.keys_perm hperm)
  have hmissing := Names.missingFrom_congr (Keyed.mem_keys_congr same) (Keyed.keys_perm h.perm)
  have hchecked := h.outcome_checkFields same (Names.sorted (Keyed.keys r.fields))
  rw [of_object_eq r hne, of_object_eq s hne', hunexpected, hmissing, ← h.sorted_keys_eq]
  split_ifs
  · simp only [outcome, Except.mapError, Fault.message, ShapeFault.message, h.name, h.signature_eq]
  · simp only [outcome, Except.mapError, Fault.message, ShapeFault.message, h.name, h.signature_eq]
  · have hmaps : ∀ {α : Type} (x : Except String Unit) (a : α),
        (x.map fun _ => a).map (fun _ => ()) = x := by
      intro α x a
      cases x <;> rfl
    rw [outcome_map, outcome_map, hmaps, hmaps, hchecked]

end Reordered

/-- Both results are values or both are faults, and all that can be seen of them agrees. -/
theorem of_reordered {id id' : Nat} {descriptor descriptor' : Value} {r s : Record}
    (unique : descriptor.Unique) (defined : define id descriptor = .ok r)
    (unique' : descriptor'.Unique) (defined' : define id' descriptor' = .ok s)
    (name : r.name = s.name) (types : ∀ field, r.fieldType? field = s.fieldType? field)
    {fields others : Keyed Value} (hu : (Value.object fields).Unique)
    (hu' : (Value.object others).Unique)
    (same : ∀ key, Keyed.find? key fields = Keyed.find? key others) :
    (∃ v w, r.of (.object fields) = .ok v ∧ s.of (.object others) = .ok w ∧
      v = .tagged r.name r.name .record (.object fields) ∧
      w = .tagged r.name r.name .record (.object others) ∧ fields.Perm others ∧
      ((∀ part, (Value.object fields).Part part → part ≠ .number .nan) → v.equals w = true)) ∨
    ∃ f g, r.of (.object fields) = .error f ∧ s.of (.object others) = .error g ∧
      f.message = g.message := by
  have h : r.Reordered s :=
    ⟨name, types, (define_distinct defined unique).unique, (define_distinct defined' unique').unique⟩
  obtain ⟨hfields, hvalues⟩ := Value.unique_object.mp hu
  have hperm : fields.Perm others :=
    Keyed.perm_of_find?_eq hfields (Value.unique_object.mp hu').1 same
  have houtcome := h.outcome_of hperm same
  cases hr : r.of (.object fields) with
  | error f =>
    cases hs : s.of (.object others) with
    | error g =>
      rw [hr, hs] at houtcome
      exact .inr ⟨f, g, rfl, rfl, Except.error.inj houtcome⟩
    | ok w =>
      rw [hr, hs] at houtcome
      cases houtcome
  | ok v =>
    cases hs : s.of (.object others) with
    | error g =>
      rw [hr, hs] at houtcome
      cases houtcome
    | ok w =>
      obtain ⟨-, -, rfl⟩ := of_object_eq_ok_iff.mp hr
      obtain ⟨-, -, rfl⟩ := of_object_eq_ok_iff.mp hs
      have htag : s.instanceOf others = .tagged r.name r.name .record (.object others) := by
        rw [instanceOf, h.name]
      refine .inl ⟨_, _, rfl, rfl, rfl, htag, hperm, fun hnan => ?_⟩
      rw [htag]
      refine Value.equals_tagged_iff.mpr ⟨rfl, rfl, rfl, ?_⟩
      refine Value.equals_object_of_perm hfields hperm fun entry hentry => ?_
      exact Value.equals_self entry.2 (hvalues entry hentry) fun part hpart =>
        hnan part (.entry hentry hpart)

/-- A contact, and the same contact declared in another order. -/
def contact : Record :=
  .ofTypes 0 "Contact"
    [("name", .single (.primitive .string)), ("phone", .single (.primitive .number))]

def contactByPhone : Record :=
  .ofTypes 1 "Contact"
    [("phone", .single (.primitive .number)), ("name", .single (.primitive .string))]

/-- The fields of a contact in both orders. -/
def ann : Keyed Value :=
  [("name", .string "Ann"), ("phone", .number (.zero false))]

def annByPhone : Keyed Value :=
  [("phone", .number (.zero false)), ("name", .string "Ann")]

theorem accepts_ann : contact.Accepts ann := by
  refine ⟨fun _ => Iff.rfl, fun name type v htype hv => ?_⟩
  simp only [contact, ann, fieldType?, fields_ofTypes, Keyed.find?] at htype hv
  split_ifs at htype hv <;> cases htype <;> cases hv <;> rfl

theorem of_reordered_contact : ∃ v w, contact.of (.object ann) = .ok v ∧
    contactByPhone.of (.object annByPhone) = .ok w ∧ v.equals w = true := by
  have hcontact : define 0 (describe "Contact" [("name", .primitive .string),
      ("phone", .primitive .number)]) = .ok contact := rfl
  have hbyPhone : define 1 (describe "Contact" [("phone", .primitive .number),
      ("name", .primitive .string)]) = .ok contactByPhone := rfl
  have htypes : ∀ field, contact.fieldType? field = contactByPhone.fieldType? field := by
    intro field
    simp only [contact, contactByPhone, fieldType?, fields_ofTypes, Keyed.find?]
    grind
  have hsame : ∀ key, Keyed.find? key ann = Keyed.find? key annByPhone := by
    intro key
    simp only [ann, annByPhone, Keyed.find?]
    grind
  rcases of_reordered (by simp [describe, Keyed.Unique, Value.Unique, Value.FieldsUnique])
    hcontact (by simp [describe, Keyed.Unique, Value.Unique, Value.FieldsUnique]) hbyPhone rfl
    htypes (by simp [ann, Value.Unique, Value.FieldsUnique])
    (by simp [annByPhone, Value.Unique, Value.FieldsUnique]) hsame with
    ⟨v, w, hv, hw, -, -, -, hequal⟩ | ⟨f, -, hf, -⟩
  · refine ⟨v, w, hv, hw, hequal fun part hpart => ?_⟩
    rintro rfl
    simp [ann, Value.part_atom, Binary64.zero] at hpart
  · have hof := of_object_eq_ok_iff.mpr ⟨List.cons_ne_nil _ _, accepts_ann, rfl⟩
    cases hof.symm.trans hf

end Record
end TaggedData
