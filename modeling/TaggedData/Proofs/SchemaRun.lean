import TaggedData.Proofs.Loading
import TaggedData.Proofs.Matching
import TaggedData.Proofs.Provenance

/-!
# Programs with one schema

If all definitions are made through one schema, the name on a typed value tells which
definition it comes from: no two definitions of a schema share a name. Matching and focusing
on such a value cannot go wrong.
-/

namespace TaggedData
namespace Schema

open History

/-- The history of a schema that was just loaded. -/
def loading (s : Schema) : History :=
  s.definitions.reverse.map .defined

/-- The histories of programs that define only through the schema, which may have been loaded
from a text. An attempt that fails, for whatever reason, leaves schema and values alone. -/
inductive Run (read : SchemaReader) : Schema → History → Prop
  | empty : Run read Schema.empty []
  | loaded {firstId text s} (loaded : load read firstId text = .ok s) : Run read s s.loading
  | union {s h id descriptor t u} (run : Run read s h) (available : h.Available descriptor)
      (defined : s.defineUnion id descriptor = .ok (t, u)) : Run read t (.defined (.union u) :: h)
  | record {s h id descriptor t r} (run : Run read s h) (available : h.Available descriptor)
      (defined : s.defineRecord id descriptor = .ok (t, r)) :
      Run read t (.defined (.record r) :: h)
  | operation {s h host operation v} (run : Run read s h) (allowed : h.Allows host operation)
      (performed : operation.perform host = .ok v) : Run read s (.performed operation v :: h)
  | refused {s h f} (run : Run read s h) : Run read s (.refused f :: h)

/-- The schema holds what the history defined, under different names. -/
structure Tracks (s : Schema) (h : History) : Prop where
  run : h.Run
  knows : ∀ d, h.Knows d ↔ d ∈ s.definitions
  names : (s.definitions.map Definition.name).Nodup

section Steps

variable {s t : Schema} {h : History}

theorem tracks_empty : Schema.empty.Tracks [] where
  run := .start
  knows := by simp [Knows, empty]
  names := List.nodup_nil

theorem Tracks.insert (ht : s.Tracks h) {d : Definition} (run : History.Run (.defined d :: h))
    (hinsert : s.insert d = .ok t) : t.Tracks (.defined d :: h) := by
  refine ⟨run, fun e => ?_, names_insert ht.names hinsert⟩
  obtain ⟨-, rfl⟩ := insert_spec hinsert
  have hknows : e ∈ s.definitions ↔ .defined e ∈ h := (ht.knows e).symm
  simp only [Knows, List.mem_cons, Event.defined.injEq, List.mem_append, List.not_mem_nil,
    or_false, hknows]
  exact or_comm

theorem Tracks.event (ht : s.Tracks h) {e : Event} (run : History.Run (e :: h))
    (he : ∀ d, e ≠ .defined d) : s.Tracks (e :: h) := by
  refine ⟨run, fun d => ?_, ht.names⟩
  rw [← ht.knows d, Knows, List.mem_cons]
  exact or_iff_right fun heq => he d heq.symm

theorem Tracks.union (ht : s.Tracks h) {id : Nat} {descriptor : Value} {u : Union}
    (available : h.Available descriptor) (defined : s.defineUnion id descriptor = .ok (t, u)) :
    t.Tracks (.defined (.union u) :: h) := by
  obtain ⟨hdefine, hinsert⟩ := defineUnion_spec defined
  exact ht.insert (.union ht.run available hdefine) hinsert

theorem Tracks.record (ht : s.Tracks h) {id : Nat} {descriptor : Value} {r : Record}
    (available : h.Available descriptor) (defined : s.defineRecord id descriptor = .ok (t, r)) :
    t.Tracks (.defined (.record r) :: h) := by
  obtain ⟨hdefine, hinsert⟩ := defineRecord_spec defined
  exact ht.insert (.record ht.run available hdefine) hinsert

/-- A descriptor of a document is put together from what the schema has. -/
theorem Tracks.run_defined (ht : s.Tracks s.loading) {descriptor : Descriptor}
    (hu : descriptor.json.Unique) {id : Nat} {d : Definition}
    (hd : s.defined id descriptor = .ok d) : History.Run (.defined d :: s.loading) := by
  cases descriptor with
  | union j =>
    obtain ⟨u, hdefine, rfl⟩ := map_eq_ok.mp hd
    exact .union ht.run (Value.madeOf_ofJson j hu) hdefine
  | record j =>
    obtain ⟨resolved, hresolve, hd⟩ := bind_eq_ok.mp hd
    obtain ⟨r, hdefine, rfl⟩ := map_eq_ok.mp hd
    have hknown : ∀ d ∈ s.definitions, s.loading.Knows d := fun d hd => (ht.knows d).mpr hd
    exact .record ht.run (madeOf_resolveDescriptor hknown hu hresolve) hdefine

theorem loading_append (s : Schema) (d : Definition) :
    loading ⟨s.definitions ++ [d]⟩ = .defined d :: s.loading := by
  simp [loading]

theorem Tracks.loadAll {descriptors : List Descriptor} {id : Nat} (ht : s.Tracks s.loading)
    (hu : ∀ descriptor ∈ descriptors, descriptor.json.Unique)
    (hload : s.loadAll id descriptors = .ok t) : t.Tracks t.loading := by
  induction descriptors generalizing s id with
  | nil =>
    cases hload
    exact ht
  | cons descriptor rest ih =>
    obtain ⟨hdescriptor, hrest⟩ := List.forall_mem_cons.mp hu
    simp only [Schema.loadAll, bind_eq_ok] at hload
    obtain ⟨d, hd, s', hinsert, hload⟩ := hload
    have hs' := ht.insert (ht.run_defined hdescriptor hd) hinsert
    obtain ⟨-, rfl⟩ := insert_spec hinsert
    rw [← loading_append] at hs'
    exact ih hs' hrest hload

theorem tracks_load {read : SchemaReader} (unique : read.Unique) {firstId : Nat} {text : String}
    (hload : load read firstId text = .ok s) : s.Tracks s.loading := by
  obtain ⟨document, hread, hdocument, -⟩ := loaded_of_load unique hload
  rw [ofDocument_eq] at hdocument
  have hempty : Schema.empty.Tracks Schema.empty.loading := tracks_empty
  exact hempty.loadAll (unique text document hread).descriptors hdocument

theorem Run.tracks {read : SchemaReader} (unique : read.Unique) (run : Run read s h) :
    s.Tracks h := by
  induction run with
  | empty => exact tracks_empty
  | loaded loaded => exact tracks_load unique loaded
  | union _ available defined ht => exact ht.union available defined
  | record _ available defined ht => exact ht.record available defined
  | operation _ allowed performed ht =>
    exact ht.event (.operation ht.run allowed performed) nofun
  | refused _ ht => exact ht.event (.refused ht.run) nofun

theorem Tracks.eq_of_name_eq (ht : s.Tracks h) {d e : Definition} (hd : d ∈ s.definitions)
    (he : e ∈ s.definitions) (hname : d.name = e.name) : d = e :=
  List.inj_on_of_nodup_map ht.names hd he hname

end Steps

section Values

variable {h : History} {v : Value}

/-- Every matcher of the union has a branch for a value that comes from it. -/
theorem apply_of_shaped {u : Union} (hv : h.Shaped (.union u) v) :
    ∃ c ∈ u.constructors, ∃ payload, v = .tagged u.name c.label (.variant c.arity) payload ∧
      PayloadOf c.arity payload ∧ u.Dispatches v c.label payload := by
  cases hv with
  | @variant _ c payload own shape =>
    have hlabel : c.label ∈ u.labels := Union.mem_labels.mpr ⟨c, own, rfl⟩
    exact ⟨c, own, payload, rfl, shape, Union.dispatches_tagged hlabel _ payload⟩

/-- Every lens of the record focuses on a value that comes from it. -/
theorem view_of_shaped {r : Record} (hv : h.Shaped (.record r) v) {l : Lens} (hl : l ∈ r.lenses) :
    (∃ w, l.view v = some w) ∧ ∀ f, ∃ w, l.modify v f = .ok w := by
  obtain ⟨howner, hfield⟩ := Record.mem_lenses.mp hl
  cases hv with
  | @record _ fields all others values =>
    have hfocus : l.focus? (r.instanceOf fields) = some fields := if_pos howner.symm
    constructor
    · rw [Lens.view, hfocus]
      exact Keyed.find?_isSome_iff.mpr (all l.field hfield)
    · intro f
      exact ⟨_, by simp only [Lens.modify, Record.instanceOf] at hfocus ⊢; rw [hfocus]⟩

end Values

/-- The name on a typed value is that of the one definition it comes from, and no other
definition of the schema has it. -/
theorem tags_tell_definition {read : SchemaReader} (unique : read.Unique) {s : Schema} {h : History}
    (run : Run read s h) {v : Value} (holds : h.Holds v) (typed : v.isTagged = true) :
    ∃ d ∈ s.definitions, h.Origin v d ∧ (∀ e, h.Origin v e → e = d) ∧
      (∀ e ∈ s.definitions, e.is v = true ↔ e = d) ∧
      (∀ u, d = .union u → ∃ c ∈ u.constructors, ∃ payload,
        v = .tagged u.name c.label (.variant c.arity) payload ∧ PayloadOf c.arity payload ∧
        ∀ branches m, u.matcher branches = .ok m →
          ∃ branch, Keyed.find? c.label branches = some branch ∧
            ∀ host, m.apply host v = branch.resolve host payload) ∧
      ∀ r, d = .record r → ∀ l ∈ r.lenses,
        (∃ w, l.view v = some w) ∧ ∀ f, ∃ w, l.modify v f = .ok w := by
  have ht := run.tracks unique
  have hs := ht.run.sound
  obtain ⟨d, horigin⟩ := hs.exists_origin holds typed
  obtain ⟨hknows, hshaped⟩ := hs.shaped v d horigin
  have hd := (ht.knows d).mp hknows
  have his : ∀ e ∈ s.definitions, e.is v = true ↔ e = d := by
    intro e he
    rw [hshaped.is_iff]
    exact ⟨ht.eq_of_name_eq he hd, fun heq => heq ▸ rfl⟩
  refine ⟨d, hd, horigin, fun e he => ?_, his, fun u hu => ?_, fun r hr l hl => ?_⟩
  · obtain ⟨heknows, heshaped⟩ := hs.shaped v e he
    exact (his e ((ht.knows e).mp heknows)).mp (heshaped.is_iff.mpr rfl)
  · subst hu
    exact apply_of_shaped hshaped
  · subst hr
    exact view_of_shaped hshaped hl

def nothing : Value :=
  .tagged "Maybe" "Nothing" (.variant 0) .null

def holder : Record :=
  .ofTypes 1 "Holder" [("value", .single (.user (.union .maybe)))]

def held : Value :=
  holder.instanceOf [("value", nothing)]

/-- A union is defined, and its name is refused to a record. -/
def maybeRefused : History :=
  [.refused (.schema (.repeatedName "Maybe")), .defined (.union .maybe)]

/-- A record gets a field of the union, and a value of the union is made. -/
def holderDefined : History :=
  .performed (.construct .maybe "Nothing" []) nothing :: .defined (.record holder) :: maybeRefused

/-- The value goes into the field. -/
def valueHeld : History :=
  .performed (.of holder (.object [("value", nothing)])) held :: holderDefined

theorem of_holder_iff {v w : Value} :
    holder.of (.object [("value", v)]) = .ok w ↔
      (Definition.union .maybe).is v = true ∧ w = holder.instanceOf [("value", v)] :=
  Record.of_single_iff

section Held

variable (read : SchemaReader)

theorem run_maybeRefused : Run read ⟨[.union .maybe]⟩ maybeRefused := by
  have hunion : Schema.empty.defineUnion 0 (Union.describe "Maybe" [("Just", 1), ("Nothing", 0)]) =
      .ok (⟨[.union .maybe]⟩, .maybe) := by
    rw [defineUnion, Union.define_maybe]
    rfl
  exact .refused (.union .empty (available_union ..) hunion)

theorem run_holderDefined : Run read ⟨[.union .maybe, .record holder]⟩ holderDefined := by
  have host : Host := ⟨fun _ _ => .nil, 0⟩
  have hknown : Knows maybeRefused (.union .maybe) := List.mem_cons_of_mem _ List.mem_cons_self
  have hholder : Available maybeRefused
      (Record.describe "Holder" [("value", .definition (.union .maybe))]) := by
    apply available_record
    simp [Available, Value.madeOf_object, Keyed.Unique, Value.madeOf_definition hknown]
  have hrecord : defineRecord ⟨[.union .maybe]⟩ 1
      (Record.describe "Holder" [("value", .definition (.union .maybe))]) =
        .ok (⟨[.union .maybe, .record holder]⟩, holder) := rfl
  have hconstruct : Operation.perform host (.construct .maybe "Nothing" []) = .ok nothing := rfl
  exact .operation (.record (run_maybeRefused read) hholder hrecord)
    ⟨List.mem_cons_of_mem _ hknown, List.forall_mem_nil _⟩ hconstruct

theorem available_nothing : holderDefined.Available (.object [("value", nothing)]) := by
  have hheld : holderDefined.Holds nothing := ⟨nothing, ⟨_, List.mem_cons_self⟩, .refl _⟩
  have hnothing : holderDefined.Available nothing :=
    Value.madeOf_tagged.mpr ⟨hheld, Value.madeOf_atom rfl⟩
  simpa [Available, Value.madeOf_object, Keyed.Unique] using hnothing

theorem run_valueHeld : Run read ⟨[.union .maybe, .record holder]⟩ valueHeld := by
  have host : Host := ⟨fun _ _ => .nil, 0⟩
  have hof : Operation.perform host (.of holder (.object [("value", nothing)])) = .ok held :=
    of_holder_iff.mpr ⟨rfl, rfl⟩
  have hknown : holderDefined.Knows (.record holder) := List.mem_cons_of_mem _ List.mem_cons_self
  exact .operation (run_holderDefined read) ⟨hknown, available_nothing⟩ hof

end Held

theorem tags_tell_definition_held :
    SchemaReader.Unique SchemaDocument.parse ∧
      defineRecord ⟨[.union .maybe]⟩ 1 (Record.describe "Maybe" [("value", .primitive .number)]) =
        .error (.schema (.repeatedName "Maybe")) ∧
      Run SchemaDocument.parse ⟨[.union .maybe, .record holder]⟩ valueHeld ∧
      (valueHeld.Origin nothing (.union .maybe) ∧ (Definition.record holder).is nothing = false ∧
        ∀ branches m, Union.maybe.matcher branches = .ok m →
          ∃ branch, Keyed.find? "Nothing" branches = some branch ∧
            ∀ host, m.apply host nothing = branch.resolve host .null) ∧
      valueHeld.Origin held (.record holder) ∧ (Definition.union .maybe).is held = false ∧
        ∀ l ∈ holder.lenses, (∃ w, l.view held = some w) ∧ ∀ f, ∃ w, l.modify held f = .ok w := by
  have unique := SchemaDocument.unique_parse
  have run := run_valueHeld SchemaDocument.parse
  refine ⟨unique, rfl, run, ?_, ?_⟩
  · obtain ⟨d, -, horigin, -, his, hmatch, -⟩ := tags_tell_definition unique run
      ⟨nothing, ⟨_, List.mem_cons_of_mem _ List.mem_cons_self⟩, .refl nothing⟩ rfl
    have hd : Definition.union .maybe = d := (his _ List.mem_cons_self).mp rfl
    subst hd
    obtain ⟨c, -, payload, hv, -, happly⟩ := hmatch .maybe rfl
    simp only [nothing, Value.tagged.injEq, Form.variant.injEq] at hv
    obtain ⟨-, hlabel, -, hpayload⟩ := hv
    rw [← hlabel, ← hpayload] at happly
    exact ⟨horigin, rfl, happly⟩
  · obtain ⟨d, -, horigin, -, his, -, hfocus⟩ := tags_tell_definition unique run
      ⟨held, ⟨_, List.mem_cons_self⟩, .refl held⟩ rfl
    have hd : Definition.record holder = d :=
      (his _ (List.mem_cons_of_mem _ List.mem_cons_self)).mp rfl
    subst hd
    exact ⟨horigin, rfl, hfocus holder rfl⟩

end Schema
end TaggedData
