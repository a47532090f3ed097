import TaggedData.Proofs.Constructors
import TaggedData.Proofs.UnionDescriptors

/-!
# The arities of constructors that are given one by one

Constructors can be given by their labels and arities. They go into a descriptor, where an
arity is a number like any other, so what is declared is the number nearest to the one that was
given. The two are the same for arities of at most 53 significant bits and for the largest one,
which is what a larger number is read as.
-/

namespace TaggedData
namespace Union

structure Builds (name : String) (given : String × Nat) (c : Constructor) : Prop where
  typeName : c.typeName = name
  label : c.label = given.1
  nearest : ∃ n : Nat, (Binary64.ofNat given.2).value? = some (n : ℚ) ∧ c.arity = min n arityBound
  /-- The arity is kept if its bits after the first 53 are zero. -/
  exact : c.arity = given.2 ↔ given.2 = arityBound ∨ 2 ^ (given.2.log2 - 52) ∣ given.2
  call : ∀ arguments, (∃ v, c.call arguments = .ok v) ↔ arguments.length = c.arity

theorem arity?_ofNat_arityBound : arity? (.number (.ofNat arityBound)) = some arityBound := by
  decide +kernel

theorem log2_lt_of_le_arityBound {n : Nat} (h : n ≤ arityBound) : n.log2 < 1024 := by
  by_cases hne : n = 0
  · subst hne
    decide
  · have hlt : n < 2 ^ (64 : Nat) := h.trans_lt (Nat.sub_lt (Nat.two_pow_pos _) one_pos)
    exact ((Nat.log2_lt hne).mpr hlt).trans (by decide)

/-- An arity is kept exactly if a number is equal to it, or if it is the largest one. -/
theorem arity?_ofNat_eq_iff {n arity : Nat} (hbound : n ≤ arityBound)
    (h : arity? (.number (.ofNat n)) = some arity) :
    arity = n ↔ n = arityBound ∨ 2 ^ (n.log2 - 52) ∣ n := by
  have hlog := log2_lt_of_le_arityBound hbound
  obtain ⟨m, hm, rfl⟩ := arity?_number_eq_some_iff.mp h
  constructor
  · intro heq
    by_cases hle : m ≤ arityBound
    · rw [Nat.min_eq_left hle] at heq
      exact .inr ((Binary64.exists_value?_iff hlog).mp ⟨_, heq ▸ hm⟩)
    · exact .inl (by omega)
  · rintro (rfl | hdvd)
    · rw [arity?_ofNat_arityBound, Option.some.injEq] at h
      exact h.symm
    · obtain ⟨x, hx⟩ := (Binary64.exists_value?_iff hlog).mpr hdvd
      rw [Binary64.value?_ofNat hx, Option.some.injEq, Nat.cast_inj] at hm
      rw [← hm, Nat.min_eq_left hbound]

theorem builds_of_gives {id : Nat} {name : String} {given : String × Nat} {c : Constructor}
    (hbound : given.2 ≤ arityBound)
    (h : Gives id name
      (.object [("name", .string given.1), ("arity", .number (.ofNat given.2))]) c) :
    Builds name given c := by
  have harity : arity? (.number (.ofNat given.2)) = some c.arity := h.arity
  obtain ⟨fields, hfields, hlabel, -⟩ := entryLabel?_eq_some_iff.mp h.label
  cases hfields
  exact ⟨h.typeName, by simpa [Keyed.find?, eq_comm] using hlabel,
    arity?_number_eq_some_iff.mp harity, arity?_ofNat_eq_iff hbound harity,
    fun _ => Constructor.exists_call_iff⟩

/-- No arity that is given is above the largest one. -/
theorem given_arities {id : Nat} {name : String} {given : List (String × Nat)} {u : Union}
    (hbound : ∀ entry ∈ given, entry.2 ≤ arityBound) (h : ofConstructors id name given = .ok u) :
    u.name = name ∧ List.Forall₂ (Builds name) given u.constructors := by
  obtain ⟨fields, entries, hfields, hname, -, hlist, -, -, hgives, -⟩ := define_eq_ok_iff.mp h
  cases hfields
  cases hname
  cases hlist
  rw [List.forall₂_map_left_iff] at hgives
  refine ⟨rfl, ((List.forall₂_and_left _ _).mpr ⟨hbound, hgives⟩).imp ?_⟩
  rintro entry c ⟨hle, hentry⟩
  exact builds_of_gives hle hentry

theorem given_arities_maybe :
    (∀ entry ∈ [("Just", 1), ("Nothing", 0)], entry.2 ≤ arityBound) ∧
      ofConstructors 0 "Maybe" [("Just", 1), ("Nothing", 0)] = .ok maybe ∧ maybe.name = "Maybe" ∧
      List.Forall₂ (Builds "Maybe") [("Just", 1), ("Nothing", 0)] maybe.constructors := by
  have hbound : ∀ entry ∈ [("Just", 1), ("Nothing", 0)], entry.2 ≤ arityBound := by decide
  exact ⟨hbound, define_maybe, given_arities hbound define_maybe⟩

/-- The first whole number of more than 53 significant bits is not kept as an arity. -/
theorem arity_not_kept : ∃ u c, ofConstructors 0 "T" [("A", 2 ^ (53 : Nat) + 1)] = .ok u ∧
    u.constructors = [c] ∧ c.arity = 2 ^ (53 : Nat) ∧ c.arity ≠ 2 ^ (53 : Nat) + 1 ∧
    ∀ arguments, arguments.length = 2 ^ (53 : Nat) + 1 → ¬ ∃ v, c.call arguments = .ok v := by
  refine ⟨⟨0, "T", [⟨0, "T", "A", 2 ^ (53 : Nat)⟩]⟩, ⟨0, "T", "A", 2 ^ (53 : Nat)⟩, ?_, rfl, rfl,
    by decide, fun arguments hlength hcall => ?_⟩
  · have harity : arity? (.number (.ofNat (2 ^ (53 : Nat) + 1))) = some (2 ^ (53 : Nat)) := by
      decide +kernel
    exact define_eq_ok_iff.mpr ⟨_, _, rfl, rfl, by decide, rfl, by simp, rfl,
      .cons ⟨rfl, harity, rfl, rfl⟩ .nil, List.nodup_singleton _⟩
  · rw [Constructor.exists_call_iff, hlength] at hcall
    simp at hcall

end Union
end TaggedData
