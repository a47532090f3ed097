import Mathlib.Data.List.Nodup
import Mathlib.Tactic.Common
import TaggedData.Fault

/-!
# Results and lists

Facts about computations that may fail and about lists that are related item by item, and what
a lookup in a keyed list says about its members.
-/

namespace TaggedData

theorem bind_eq_ok {ε α β : Type} {x : Except ε α} {f : α → Except ε β} {b : β} :
    x >>= f = .ok b ↔ ∃ a, x = .ok a ∧ f a = .ok b := by
  cases x with
  | error e => simp [bind, Except.bind]
  | ok a => simp [bind, Except.bind]

theorem map_eq_ok {ε α β : Type} {x : Except ε α} {f : α → β} {b : β} :
    x.map f = .ok b ↔ ∃ a, x = .ok a ∧ f a = b := by
  cases x with
  | error e => simp [Except.map]
  | ok a => simp [Except.map]

theorem map_eq_error {ε α β : Type} {x : Except ε α} {f : α → β} {e : ε} :
    x.map f = .error e ↔ x = .error e := by
  cases x with
  | error e => simp [Except.map]
  | ok a => simp [Except.map]

theorem mapM_eq_ok_iff {ε α β : Type} {f : α → Except ε β} {items : List α} {vs : List β} :
    items.mapM f = .ok vs ↔ List.Forall₂ (fun a b => f a = .ok b) items vs := by
  induction items generalizing vs with
  | nil => cases vs <;> simp [List.mapM_nil, pure, Except.pure]
  | cons item rest ih =>
    simp only [List.mapM_cons, bind_eq_ok, ih, List.forall₂_cons_left_iff]
    constructor
    · rintro ⟨b, hb, bs, hbs, h⟩
      cases h
      exact ⟨b, bs, hb, hbs, rfl⟩
    · rintro ⟨b, bs, hb, hbs, rfl⟩
      exact ⟨b, hb, bs, hbs, rfl⟩

/-- If an item fails, then there is a first one. -/
theorem exists_first_error {ε α β : Type} {f : α → Except ε β} {items : List α}
    (h : ∃ x ∈ items, ∀ b, f x ≠ .ok b) :
    ∃ before x after e, items = before ++ x :: after ∧ (∀ y ∈ before, ∃ b, f y = .ok b) ∧
      f x = .error e := by
  induction items with
  | nil => simp at h
  | cons y rest ih =>
    cases hy : f y with
    | error e => exact ⟨[], y, rest, e, rfl, List.forall_mem_nil _, hy⟩
    | ok b =>
      obtain ⟨x, hx, hfailed⟩ := h
      rcases List.mem_cons.mp hx with rfl | hx
      · exact absurd hy (hfailed b)
      · obtain ⟨before, x, after, e, rfl, hbefore, hx⟩ := ih ⟨x, hx, hfailed⟩
        exact ⟨y :: before, x, after, e, rfl, List.forall_mem_cons.mpr ⟨⟨b, hy⟩, hbefore⟩, hx⟩

theorem exists_of_forall₂ {α β : Type} {R : α → β → Prop} {items : List α} {vs : List β}
    (h : List.Forall₂ R items vs) {b : β} (hb : b ∈ vs) : ∃ a ∈ items, R a b := by
  induction h with
  | nil => cases hb
  | cons hab _ ih =>
    rcases List.mem_cons.mp hb with rfl | hb
    · exact ⟨_, List.mem_cons_self, hab⟩
    · obtain ⟨a, ha, hR⟩ := ih hb
      exact ⟨a, List.mem_cons_of_mem _ ha, hR⟩

theorem exists_of_forall₂_left {α β : Type} {R : α → β → Prop} {items : List α} {vs : List β}
    (h : List.Forall₂ R items vs) {a : α} (ha : a ∈ items) : ∃ b ∈ vs, R a b :=
  exists_of_forall₂ (List.Forall₂.flip (R := flip R) h) ha

theorem forall₂_comp {α β γ : Type} {R : α → β → Prop} {S : β → γ → Prop} {as : List α}
    {bs : List β} {cs : List γ} (h : List.Forall₂ R as bs) (h' : List.Forall₂ S bs cs) :
    List.Forall₂ (fun a c => ∃ b, R a b ∧ S b c) as cs := by
  induction h generalizing cs with
  | nil =>
    cases h'
    exact .nil
  | cons hab _ ih =>
    cases h' with
    | cons hbc hrest => exact .cons ⟨_, hab, hbc⟩ (ih hrest)

theorem exists_forall₂_of_forall_mem {α β : Type} {R : α → β → Prop} {as : List α}
    (h : ∀ a ∈ as, ∃ b, R a b) : ∃ bs, List.Forall₂ R as bs := by
  induction as with
  | nil => exact ⟨[], .nil⟩
  | cons a rest ih =>
    obtain ⟨⟨b, hb⟩, hrest⟩ := List.forall_mem_cons.mp h
    obtain ⟨bs, hbs⟩ := ih hrest
    exact ⟨b :: bs, .cons hb hbs⟩

/-- Lists that come from one list agree where what comes from one item agrees. -/
theorem map_eq_map_of_forall₂ {α β γ δ : Type} {R : α → β → Prop} {S : α → γ → Prop} {f : β → δ}
    {g : γ → δ} (hfg : ∀ a b c, R a b → S a c → g c = f b) {as : List α} {bs : List β}
    {cs : List γ} (h : List.Forall₂ R as bs) (h' : List.Forall₂ S as cs) : cs.map g = bs.map f := by
  induction h generalizing cs with
  | nil =>
    cases h'
    rfl
  | cons hab _ ih =>
    cases h' with
    | cons hac hrest => rw [List.map_cons, List.map_cons, hfg _ _ _ hab hac, ih hrest]

theorem forall₂_map_iff {α β : Type} {P : α → Prop} {f : α → β} {items : List α} {vs : List β} :
    List.Forall₂ (fun a b => P a ∧ b = f a) items vs ↔ (∀ a ∈ items, P a) ∧ vs = items.map f := by
  induction items generalizing vs with
  | nil => cases vs <;> simp
  | cons item rest ih =>
    simp only [List.forall₂_cons_left_iff, ih, List.forall_mem_cons, List.map_cons]
    constructor
    · rintro ⟨b, bs, ⟨hitem, rfl⟩, ⟨hrest, rfl⟩, rfl⟩
      exact ⟨⟨hitem, hrest⟩, rfl⟩
    · rintro ⟨⟨hitem, hrest⟩, rfl⟩
      exact ⟨_, _, ⟨hitem, rfl⟩, ⟨hrest, rfl⟩, rfl⟩

namespace Keyed

variable {α : Type} {fields : Keyed α} {key : String} {value : α}

theorem mem_of_find? (h : find? key fields = some value) : (key, value) ∈ fields := by
  induction fields with
  | nil => simp [find?] at h
  | cons p rest ih =>
    obtain ⟨k, v⟩ := p
    by_cases hk : k = key
    · have hv : v = value := by simpa [find?, hk] using h
      simp [hk, hv]
    · exact List.mem_cons_of_mem _ (ih (by simpa [find?, hk] using h))

theorem sizeOf_lt_of_mem [SizeOf α] {entry : String × α} (h : entry ∈ fields) :
    sizeOf entry.2 < sizeOf fields := by
  have hlt := List.sizeOf_lt_of_mem h
  obtain ⟨key, v⟩ := entry
  simp only [Prod.mk.sizeOf_spec] at hlt ⊢
  omega

theorem mem_keys_of_mem (h : (key, value) ∈ fields) : key ∈ keys fields :=
  List.mem_map_of_mem (f := Prod.fst) h

theorem exists_mem_of_mem_keys (h : key ∈ keys fields) : ∃ value, (key, value) ∈ fields := by
  obtain ⟨⟨k, v⟩, hmem, rfl⟩ := List.mem_map.mp h
  exact ⟨v, hmem⟩

theorem find?_isSome_iff : (∃ value, find? key fields = some value) ↔ key ∈ keys fields := by
  rw [← Option.isSome_iff_exists, ← not_iff_not, Bool.not_eq_true, Option.isSome_eq_false_iff,
    Option.isNone_iff_eq_none, find?_eq_none_iff]

theorem find?_eq_some_iff (hu : Unique fields) :
    find? key fields = some value ↔ (key, value) ∈ fields := by
  refine ⟨mem_of_find?, fun h => ?_⟩
  induction fields with
  | nil => simp at h
  | cons p rest ih =>
    obtain ⟨k, v⟩ := p
    rw [Unique, keys_cons, List.nodup_cons] at hu
    rcases List.mem_cons.mp h with heq | hmem
    · cases heq
      simp [find?]
    · have hk : k ≠ key := fun hk => hu.1 (hk ▸ mem_keys_of_mem hmem)
      simpa [find?, hk] using ih hu.2 hmem

theorem Unique.eq_of_mem {other : α} (hu : Unique fields) (h : (key, value) ∈ fields)
    (h' : (key, other) ∈ fields) : value = other := by
  rw [← find?_eq_some_iff hu] at h h'
  exact Option.some.inj (h.symm.trans h')

theorem keys_perm {others : Keyed α} (h : fields.Perm others) : (keys fields).Perm (keys others) :=
  h.map Prod.fst

theorem Unique.perm {others : Keyed α} (hu : Unique fields) (h : fields.Perm others) :
    Unique others :=
  (keys_perm h).nodup_iff.mp hu

theorem keys_eq_of_forall₂ {β : Type} {others : Keyed β}
    (h : List.Forall₂ (fun entry other => other.1 = entry.1) fields others) :
    keys others = keys fields := by
  induction h with
  | nil => rfl
  | cons hname _ ih => rw [keys_cons, keys_cons, hname, ih]

theorem put_of_find?_eq_none (value : α) (h : find? key fields = none) :
    put key value fields = fields ++ [(key, value)] := by
  induction fields with
  | nil => rfl
  | cons p rest ih =>
    obtain ⟨k, v⟩ := p
    by_cases hk : k = key
    · simp [find?, hk] at h
    · simp only [find?, hk, ↓reduceIte] at h
      simp only [put, hk, ↓reduceIte, ih h, List.cons_append]

theorem mem_of_mem_put {entry : String × α} (h : entry ∈ put key value fields) :
    entry = (key, value) ∨ entry ∈ fields := by
  induction fields with
  | nil => simpa [put] using h
  | cons p rest ih =>
    obtain ⟨k, v⟩ := p
    by_cases hk : k = key
    · simp only [put, hk, ↓reduceIte, List.mem_cons] at h ⊢
      tauto
    · simp only [put, hk, ↓reduceIte, List.mem_cons] at h ⊢
      rcases h with h | h
      · exact .inr (.inl h)
      · exact (ih h).imp_right .inr

theorem mem_keys_put {other : String} :
    other ∈ keys (put key value fields) ↔ other = key ∨ other ∈ keys fields := by
  rw [keys_put]
  split
  · rename_i hkey
    exact ⟨.inr, fun h => h.elim (fun he => he ▸ hkey) id⟩
  · rw [List.mem_append, List.mem_singleton, or_comm]

theorem mem_keys_ofPairs {pairs : List (String × α)} :
    key ∈ keys (ofPairs pairs) ↔ key ∈ pairs.map Prod.fst := by
  suffices h : ∀ fields : Keyed α,
      key ∈ keys (pairs.foldl (fun fields (k, v) => put k v fields) fields) ↔
        key ∈ keys fields ∨ key ∈ pairs.map Prod.fst from
    (h []).trans (by simp)
  induction pairs with
  | nil => simp
  | cons p rest ih =>
    intro fields
    rw [List.foldl_cons, ih, mem_keys_put, List.map_cons, List.mem_cons]
    tauto

theorem find?_map_eq_some_iff {β : Type} {f : α → β} {b : β} :
    find? key (fields.map fun (k, v) => (k, f v)) = some b ↔
      ∃ a, find? key fields = some a ∧ f a = b := by
  induction fields with
  | nil => simp [find?]
  | cons p rest ih =>
    obtain ⟨k, v⟩ := p
    by_cases hk : k = key
    · simp [find?, hk]
    · simpa [find?, hk] using ih

end Keyed
end TaggedData
