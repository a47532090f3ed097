/-!
# Keyed lists

A map from names that remembers the order in which names were first given, as a list
of pairs. Putting a value under a name that is present replaces the value where it
stands; under a new name it goes to the end. Everything that is built by `put` from
the empty list has each name once.
-/

namespace TaggedData

abbrev Keyed (α : Type u) := List (String × α)

namespace Keyed

variable {α β : Type u}

def find? (key : String) : Keyed α → Option α
  | [] => none
  | (k, v) :: rest => if k = key then some v else find? key rest

def put (key : String) (value : α) : Keyed α → Keyed α
  | [] => [(key, value)]
  | (k, v) :: rest => if k = key then (k, value) :: rest else (k, v) :: put key value rest

def keys (fields : Keyed α) : List String :=
  fields.map Prod.fst

/-- Pairs given one after the other; a repeated name keeps its first place and has its
last value. -/
def ofPairs (pairs : List (String × α)) : Keyed α :=
  pairs.foldl (fun fields (k, v) => put k v fields) []

def Unique (fields : Keyed α) : Prop :=
  (keys fields).Nodup

/-- Without the entry of one name, whose place the last entry takes. -/
def removeSwap (key : String) (fields : Keyed α) : Keyed α :=
  match fields.span (fun p => p.1 ≠ key) with
  | (before, _ :: after) =>
    match after.getLast? with
    | some last => before ++ last :: after.dropLast
    | none => before
  | (before, []) => before

@[simp] theorem keys_nil : keys ([] : Keyed α) = [] := rfl

@[simp] theorem keys_cons (p : String × α) (rest : Keyed α) :
    keys (p :: rest) = p.1 :: keys rest := rfl

theorem find?_eq_none_iff {key : String} {fields : Keyed α} :
    find? key fields = none ↔ key ∉ keys fields := by
  induction fields with
  | nil => simp [find?]
  | cons p rest ih =>
    obtain ⟨k, v⟩ := p
    by_cases h : k = key
    · simp [find?, h]
    · simp [find?, h, ih, Ne.symm h]

theorem find?_put (key other : String) (value : α) (fields : Keyed α) :
    find? other (put key value fields) = if key = other then some value else find? other fields := by
  induction fields with
  | nil => simp [put, find?]
  | cons p rest ih =>
    obtain ⟨k, v⟩ := p
    by_cases h : k = key
    · subst h
      by_cases ho : k = other <;> simp [put, find?, ho]
    · by_cases ho : k = other
      · subst ho
        simp [put, find?, h, Ne.symm h]
      · simp [put, find?, h, ho, ih]

theorem keys_put (key : String) (value : α) (fields : Keyed α) :
    keys (put key value fields) =
      if key ∈ keys fields then keys fields else keys fields ++ [key] := by
  induction fields with
  | nil => simp [put]
  | cons p rest ih =>
    obtain ⟨k, v⟩ := p
    by_cases h : k = key
    · simp [put, h]
    · simp only [put, h, ↓reduceIte, keys_cons, ih, List.mem_cons, Ne.symm h, false_or]
      split <;> simp

theorem Unique.put {fields : Keyed α} (h : Unique fields) (key : String) (value : α) :
    Unique (put key value fields) := by
  unfold Unique at *
  rw [keys_put]
  split
  · exact h
  · rename_i hmem
    rw [List.nodup_append]
    refine ⟨h, by simp, ?_⟩
    intro a ha b hb
    rw [List.mem_singleton] at hb
    subst hb
    intro hab
    exact hmem (hab ▸ ha)

end Keyed
end TaggedData
