import Mathlib.Data.List.Forall2

/-!
# Joined lists

Each item of a list comes to a list of its own, and these lists are joined in the order of the
items. What an item comes to need not be given by a function.
-/

namespace TaggedData

variable {α β γ : Type}

/-- What the items of a list come to, one behind the other. -/
inductive Joins (R : α → List β → Prop) : List α → List β → Prop
  | nil : Joins R [] []
  | cons {item items here rest} (head : R item here) (tail : Joins R items rest) :
      Joins R (item :: items) (here ++ rest)

variable {R : α → List β → Prop} {items others : List α} {joined : List β}

@[simp] theorem joins_nil : Joins R [] joined ↔ joined = [] := by
  constructor
  · rintro ⟨⟩
    rfl
  · rintro rfl
    exact .nil

theorem joins_cons {item : α} : Joins R (item :: items) joined ↔
    ∃ here, R item here ∧ ∃ rest, Joins R items rest ∧ joined = here ++ rest := by
  constructor
  · rintro ⟨⟩
    exact ⟨_, ‹_›, _, ‹_›, rfl⟩
  · rintro ⟨here, head, rest, tail, rfl⟩
    exact .cons head tail

@[simp] theorem joins_singleton {item : α} : Joins R [item] joined ↔ R item joined := by
  simp [joins_cons]

theorem joins_append : Joins R (items ++ others) joined ↔
    ∃ left right, Joins R items left ∧ Joins R others right ∧ joined = left ++ right := by
  induction items generalizing joined with
  | nil => simp
  | cons item rest ih =>
    simp only [List.cons_append, joins_cons, ih]
    constructor
    · rintro ⟨here, head, _, ⟨left, right, hleft, hright, rfl⟩, rfl⟩
      exact ⟨here ++ left, right, ⟨here, head, left, hleft, rfl⟩, hright, (List.append_assoc ..).symm⟩
    · rintro ⟨_, right, ⟨here, head, left, hleft, rfl⟩, hright, rfl⟩
      exact ⟨here, head, left ++ right, ⟨left, right, hleft, hright, rfl⟩, List.append_assoc ..⟩

/-- What joined items come to are items again. -/
theorem joins_of_forall₂ {Q : γ → α → Prop} {firsts : List γ} (h : List.Forall₂ Q firsts items)
    (hjoined : Joins R items joined) :
    Joins (fun first here => ∃ item, Q first item ∧ R item here) firsts joined := by
  induction h generalizing joined with
  | nil => exact joins_nil.mpr (joins_nil.mp hjoined)
  | cons hitem _ ih =>
    obtain ⟨here, head, rest, tail, rfl⟩ := joins_cons.mp hjoined
    exact .cons ⟨_, hitem, head⟩ (ih tail)

theorem exists_forall₂_of_joins {Q : γ → α → Prop} {firsts : List γ}
    (h : Joins (fun first here => ∃ item, Q first item ∧ R item here) firsts joined) :
    ∃ items, List.Forall₂ Q firsts items ∧ Joins R items joined := by
  induction h with
  | nil => exact ⟨[], .nil, .nil⟩
  | cons head _ ih =>
    obtain ⟨item, hitem, hhere⟩ := head
    obtain ⟨items, hitems, hjoined⟩ := ih
    exact ⟨item :: items, .cons hitem hitems, .cons hhere hjoined⟩

theorem Joins.exists_of_mem (h : Joins R items joined) {item : α} (hitem : item ∈ items) :
    ∃ here, R item here := by
  induction h with
  | nil => cases hitem
  | cons head _ ih =>
    rcases List.mem_cons.mp hitem with rfl | hitem
    · exact ⟨_, head⟩
    · exact ih hitem

theorem exists_joins (h : ∀ item ∈ items, ∃ here, R item here) : ∃ joined, Joins R items joined := by
  induction items with
  | nil => exact ⟨[], .nil⟩
  | cons item rest ih =>
    obtain ⟨⟨here, hhere⟩, hrest⟩ := List.forall_mem_cons.mp h
    obtain ⟨joined, hjoined⟩ := ih hrest
    exact ⟨here ++ joined, .cons hhere hjoined⟩

theorem Joins.map {S : α → List γ → Prop} (h : Joins R items joined) (f : β → γ)
    (hmap : ∀ item ∈ items, ∀ here, R item here → S item (here.map f)) :
    Joins S items (joined.map f) := by
  induction h with
  | nil => exact .nil
  | cons head _ ih =>
    obtain ⟨hitem, hrest⟩ := List.forall_mem_cons.mp hmap
    rw [List.map_append]
    exact .cons (hitem _ head) (ih hrest)

end TaggedData
