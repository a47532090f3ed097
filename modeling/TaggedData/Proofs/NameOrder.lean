import TaggedData.Definition.Signature
import TaggedData.Proofs.Basic

/-!
# Names in ascending order

What is written about names goes through a sorted view of them. So names that are given in
another order are written alike, and names that differ stand in strictly ascending order.
Keyed lists that answer every lookup alike have the same entries in some order.
-/

namespace TaggedData

namespace Names

theorem decide_le_trans (a b c : String) (hab : decide (a ≤ b) = true)
    (hbc : decide (b ≤ c) = true) : decide (a ≤ c) = true :=
  decide_eq_true (String.le_trans (of_decide_eq_true hab) (of_decide_eq_true hbc))

theorem decide_le_total (a b : String) : (decide (a ≤ b) || decide (b ≤ a)) = true := by
  rcases String.le_total a b with h | h <;> simp [h]

variable {names others there elsewhere : List String}

theorem pairwise_sorted (names : List String) : (sorted names).Pairwise (· ≤ ·) :=
  (List.pairwise_mergeSort decide_le_trans decide_le_total names).imp of_decide_eq_true

theorem sorted_eq_of_perm (h : names.Perm others) : sorted names = sorted others := by
  have hperm : (sorted names).Perm (sorted others) :=
    ((sorted_perm names).trans h).trans (sorted_perm others).symm
  exact hperm.eq_of_pairwise (fun _ _ _ _ => String.le_antisymm) (pairwise_sorted names)
    (pairwise_sorted others)

theorem missingFrom_congr (hthere : ∀ name, name ∈ there ↔ name ∈ elsewhere)
    (hnames : names.Perm others) : missingFrom there names = missingFrom elsewhere others := by
  have hfilter : (fun name => !there.contains name) = fun name => !elsewhere.contains name := by
    funext name
    rw [Bool.eq_iff_iff]
    simp [hthere]
  rw [missingFrom, missingFrom, hfilter]
  exact sorted_eq_of_perm (hnames.filter _)

theorem pairwise_mergeSort {α : Type} (entries : Keyed α) :
    (entries.mergeSort fun a b => decide (a.1 ≤ b.1)).Pairwise fun a b => a.1 ≤ b.1 := by
  have htrans : ∀ a b c : String × α, decide (a.1 ≤ b.1) = true → decide (b.1 ≤ c.1) = true →
      decide (a.1 ≤ c.1) = true := fun a b c => decide_le_trans a.1 b.1 c.1
  have htotal : ∀ a b : String × α, (decide (a.1 ≤ b.1) || decide (b.1 ≤ a.1)) = true :=
    fun a b => decide_le_total a.1 b.1
  exact (List.pairwise_mergeSort htrans htotal entries).imp of_decide_eq_true

/-- Entries under different names have one ascending order. -/
theorem mergeSort_eq_of_perm {α : Type} {entries entries' : Keyed α}
    (hu : Keyed.Unique entries) (h : entries.Perm entries') :
    entries.mergeSort (fun a b => decide (a.1 ≤ b.1)) =
      entries'.mergeSort fun a b => decide (a.1 ≤ b.1) := by
  have hperm : (entries.mergeSort fun a b => decide (a.1 ≤ b.1)).Perm
      (entries'.mergeSort fun a b => decide (a.1 ≤ b.1)) :=
    ((List.mergeSort_perm entries _).trans h).trans (List.mergeSort_perm entries' _).symm
  refine hperm.eq_of_pairwise ?_ (pairwise_mergeSort entries) (pairwise_mergeSort entries')
  intro a b ha hb hab hba
  have ha' : a ∈ entries := List.mem_mergeSort.mp ha
  have hb' : b ∈ entries := h.mem_iff.mpr (List.mem_mergeSort.mp hb)
  exact List.inj_on_of_nodup_map hu ha' hb' (String.le_antisymm hab hba)

theorem bracedEntries_eq_of_perm {head : String} {entries entries' : Keyed String}
    (hu : Keyed.Unique entries) (h : entries.Perm entries') :
    bracedEntries head entries = bracedEntries head entries' := by
  rw [bracedEntries, bracedEntries, mergeSort_eq_of_perm hu h]

end Names

namespace Keyed

variable {α : Type} {fields others : Keyed α}

theorem Unique.nodup (hu : Unique fields) : fields.Nodup :=
  List.Nodup.of_map Prod.fst hu

theorem mem_keys_congr (h : ∀ key, find? key fields = find? key others) (name : String) :
    name ∈ keys fields ↔ name ∈ keys others := by
  rw [← find?_isSome_iff, ← find?_isSome_iff, h]

/-- The same mapping is the same entries, in any order. -/
theorem perm_of_find?_eq (hu : Unique fields) (hu' : Unique others)
    (h : ∀ key, find? key fields = find? key others) : fields.Perm others := by
  refine (List.perm_ext_iff_of_nodup hu.nodup hu'.nodup).mpr ?_
  rintro ⟨key, value⟩
  rw [← find?_eq_some_iff hu, ← find?_eq_some_iff hu', h]

end Keyed

/-- The signature of a record does not show the order of declaration. -/
theorem Record.signature_eq_of_perm {r s : Record} (hu : Keyed.Unique r.fields)
    (name : r.name = s.name) (h : r.fields.Perm s.fields) : r.signature = s.signature := by
  rw [signature, signature, name]
  refine Names.bracedEntries_eq_of_perm ?_ (h.map _)
  rw [Keyed.Unique, Keyed.keys, List.map_map]
  exact hu

end TaggedData
