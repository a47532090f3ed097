import TaggedData.Proofs.Lenses
import TaggedData.Proofs.Representation

/-!
# What lenses focus on

A lens knows the name of its record and no more, so it focuses on whatever carries that name
and has a keyed payload. Definitions may share a name: beside the values of records this lets
in the variants of a union that were given a keyed structure as their one argument. The values
of the record itself always have the field, and so do all that a lens focuses on as long as the
records of the name have it and no union has the name. Everything else is refused.
-/

namespace TaggedData

/-- A typed value with the name, and a keyed structure as its payload. -/
def Value.KeyedUnder (name : String) (t : Value) : Prop :=
  ∃ label form fields, t = .tagged name label form (.object fields)

namespace Lens

variable {l : Lens} {t : Value}

theorem exists_modify_iff {f : Value → Value} :
    (∃ t', l.modify t f = .ok t') ↔ t.KeyedUnder l.owner := by
  constructor
  · intro h
    obtain ⟨t', hmodify⟩ := h
    obtain ⟨typeName, label, form, fields, rfl, hfocus, -⟩ := History.modify_eq_ok hmodify
    simp only [focus?, Option.ite_none_right_eq_some] at hfocus
    exact ⟨label, form, fields, by rw [hfocus.1]⟩
  · intro h
    obtain ⟨label, form, fields, rfl⟩ := h
    exact ⟨_, l.modify_tagged label form fields f⟩

theorem exists_set_iff {a : Value} : (∃ t', l.set t a = .ok t') ↔ t.KeyedUnder l.owner :=
  exists_modify_iff

theorem focus?_eq_none (h : ¬ t.KeyedUnder l.owner) : l.focus? t = none := by
  unfold focus?
  split
  · rename_i typeName label form fields
    by_cases hname : typeName = l.owner
    · exact absurd ⟨label, form, fields, by rw [hname]⟩ h
    · exact if_neg hname
  · rfl

theorem modify_eq_error (h : ¬ t.KeyedUnder l.owner) (f : Value → Value) :
    l.modify t f = .error (.cannotFocus l.owner l.field t) := by
  unfold modify
  split
  · rename_i fields hfocus
    rw [focus?_eq_none h] at hfocus
    cases hfocus
  · rfl

theorem exists_view_iff : (∃ v, l.view t = some v) ↔ t.KeyedUnder l.owner ∧
    ∃ fields, t.tags.payload = some (.object fields) ∧ l.field ∈ Keyed.keys fields := by
  by_cases h : t.KeyedUnder l.owner
  · obtain ⟨label, form, fields, rfl⟩ := h
    rw [view_tagged, Keyed.find?_isSome_iff]
    simp [Value.KeyedUnder, Value.tags]
  · rw [view, focus?_eq_none h]
    simp [h]

end Lens

namespace History

variable {h : History}

/-- Whose value carries the name and has a keyed payload: it is in record form and has the
fields of a record of the name, or it is a variant of a union of the name. -/
inductive Focused (h : History) (name : String) : Value → Prop
  | record {s fields} (origin : h.Origin (s.instanceOf fields) (.record s))
      (known : h.Knows (.record s)) (shared : s.name = name)
      (all : ∀ field ∈ Keyed.keys s.fields, field ∈ Keyed.keys fields) :
      Focused h name (s.instanceOf fields)
  | variant {u c fields}
      (origin : h.Origin (.tagged u.name c.label (.variant 1) (.object fields)) (.union u))
      (owns : h.Owns u c) (shared : u.name = name) (arity : c.arity = 1) :
      Focused h name (.tagged u.name c.label (.variant 1) (.object fields))

theorem Focused.keyedUnder {name : String} {t : Value} (hfocused : h.Focused name t) :
    t.KeyedUnder name := by
  cases hfocused with
  | record origin known shared all => exact ⟨_, _, _, by rw [Record.instanceOf, shared]⟩
  | variant origin owns shared arity => exact ⟨_, _, _, by rw [shared]⟩

/-- Every value with a name comes from a definition of the name, and looks like it. -/
theorem Sound.focused (hs : h.Sound) {name : String} {t : Value} (available : h.Available t)
    (keyed : t.KeyedUnder name) : h.Focused name t := by
  obtain ⟨label, form, fields, rfl⟩ := keyed
  obtain ⟨d, horigin⟩ := hs.exists_origin (available.instances _ (.refl _) rfl) rfl
  obtain ⟨hd, hshaped⟩ := hs.shaped _ d horigin
  cases hshaped with
  | @variant u c payload own shape =>
    have harity : c.arity = 1 := by
      by_contra hne
      obtain hzero | hmore : c.arity = 0 ∨ 2 ≤ c.arity := by omega
      · cases shape.none hzero
      · obtain ⟨items, hitems, -⟩ := shape.more hmore
        cases hitems
    rw [harity] at horigin ⊢
    exact .variant horigin ⟨hd, own⟩ rfl harity
  | @record s _ all others values => exact .record horigin hd rfl all

theorem Sound.keyedUnder_iff (hs : h.Sound) {name : String} {t : Value}
    (available : h.Available t) : t.KeyedUnder name ↔ h.Focused name t :=
  ⟨hs.focused available, Focused.keyedUnder⟩

theorem Sound.exists_view (hs : h.Sound) {r : Record} {l : Lens} (lens : l ∈ r.lenses) {t : Value}
    (origin : h.Origin t (.record r)) : ∃ v, l.view t = some v := by
  obtain ⟨howner, hfield⟩ := Record.mem_lenses.mp lens
  obtain ⟨-, hshaped⟩ := hs.shaped t _ origin
  cases hshaped with
  | @record _ fields all others values =>
    rw [Lens.exists_view_iff, howner]
    exact ⟨⟨_, _, _, rfl⟩, fields, rfl, all l.field hfield⟩

/-- Without unions of the name, and with the field in all records of the name. -/
theorem Focused.record_form {name field : String} {t : Value}
    (hfocused : h.Focused name t) (unions : ∀ u, h.Knows (.union u) → u.name ≠ name)
    (records : ∀ s, h.Knows (.record s) → s.name = name → field ∈ Keyed.keys s.fields) :
    ∃ fields, t = .tagged name name .record (.object fields) ∧ field ∈ Keyed.keys fields := by
  cases hfocused with
  | @record s fields origin known shared all =>
    exact ⟨fields, by rw [Record.instanceOf, shared], all field (records s known shared)⟩
  | variant origin owns shared arity => exact absurd shared (unions _ owns.1)

/-- Reading and updating differ only where another definition of the name comes in. -/
theorem lens_focus_along_run (run : h.Run) {r : Record} {l : Lens} (lens : l ∈ r.lenses)
    {t : Value} (available : h.Available t) :
    (∀ a, (∃ t', l.set t a = .ok t') ↔ h.Focused r.name t) ∧
    (∀ f, (∃ t', l.modify t f = .ok t') ↔ h.Focused r.name t) ∧
    ((∃ v, l.view t = some v) ↔ h.Focused r.name t ∧
      ∃ fields, t.tags.payload = some (.object fields) ∧ l.field ∈ Keyed.keys fields) ∧
    (¬ h.Focused r.name t → l.view t = none ∧
      ∀ f, l.modify t f = .error (.cannotFocus r.name l.field t)) ∧
    (h.Origin t (.record r) → ∃ v, l.view t = some v) ∧
    ((∀ u, h.Knows (.union u) → u.name ≠ r.name) →
      (∀ s, h.Knows (.record s) → s.name = r.name → l.field ∈ Keyed.keys s.fields) →
      ((∃ v, l.view t = some v) ↔ h.Focused r.name t) ∧
      (h.Focused r.name t → ∃ fields, t = .tagged r.name r.name .record (.object fields))) := by
  have hs := run.sound
  have howner : l.owner = r.name := (Record.mem_lenses.mp lens).1
  have hfocused : t.KeyedUnder l.owner ↔ h.Focused r.name t := by
    rw [howner]
    exact hs.keyedUnder_iff available
  have hview := Lens.exists_view_iff (l := l) (t := t)
  rw [hfocused] at hview
  refine ⟨?_, ?_, hview, ?_, hs.exists_view lens, ?_⟩
  · intro a
    rw [Lens.exists_set_iff, hfocused]
  · intro f
    rw [Lens.exists_modify_iff, hfocused]
  · intro hnot
    rw [← hfocused] at hnot
    constructor
    · rw [Lens.view, Lens.focus?_eq_none hnot, Option.bind_none]
    · intro f
      rw [Lens.modify_eq_error hnot, howner]
  · intro unions records
    constructor
    · rw [hview, and_iff_left_iff_imp]
      intro hf
      obtain ⟨fields, rfl, hfield⟩ := hf.record_form unions records
      exact ⟨fields, rfl, hfield⟩
    · intro hf
      obtain ⟨fields, ht, -⟩ := hf.record_form unions records
      exact ⟨fields, ht⟩

/-- A union and a record share a name, and a variant of the union has no fields. -/
def emptyVariant : History :=
  [.performed (.construct located "At" [.object []]) (locatedAt []),
    .defined (.record point), .defined (.union located)]

theorem run_emptyVariant : emptyVariant.Run := by
  have host : Host := ⟨fun _ _ => .nil, 0⟩
  apply run_locatedAt host
  simp [Available, Value.madeOf_object, Keyed.Unique]

theorem available_emptyVariant : emptyVariant.Available (locatedAt []) := by
  refine Value.madeOf_tagged.mpr ⟨⟨_, ⟨_, List.mem_cons_self⟩, .refl _⟩, ?_⟩
  simp [Value.madeOf_object, Keyed.Unique]

/-- The lens of the record finds nothing in the variant, and puts the field into it. -/
theorem lens_updates_variant :
    emptyVariant.Run ∧ emptyVariant.Knows (.record point) ∧
      (⟨"Point", "x"⟩ : Lens) ∈ point.lenses ∧ emptyVariant.Available (locatedAt []) ∧
      (∀ fields, locatedAt [] ≠ point.instanceOf fields) ∧
      Lens.view ⟨"Point", "x"⟩ (locatedAt []) = none ∧
      Lens.set ⟨"Point", "x"⟩ (locatedAt []) (.string "a") = .ok (locatedAt moved) := by
  refine ⟨run_emptyVariant, ?_, by decide, available_emptyVariant, ?_, rfl, rfl⟩
  · simp [Knows, emptyVariant]
  · intro fields
    simp [locatedAt, Record.instanceOf]

theorem lens_focus_along_run_emptyVariant :
    emptyVariant.Run ∧ emptyVariant.Focused "Point" (locatedAt []) ∧
      ∀ a, ∃ t', Lens.set ⟨"Point", "x"⟩ (locatedAt []) a = .ok t' := by
  have hlens : (⟨"Point", "x"⟩ : Lens) ∈ point.lenses := by decide
  obtain ⟨hset, -⟩ := lens_focus_along_run run_emptyVariant hlens available_emptyVariant
  have hfocused := (hset (.string "a")).mp ⟨_, rfl⟩
  exact ⟨run_emptyVariant, hfocused, fun a => (hset a).mpr hfocused⟩

end History
end TaggedData
