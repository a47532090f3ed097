import TaggedData.Text.Uppercase

/-!
# Upper case is reached at once

What becomes upper case starts with a character that is its own upper case, also where one
character becomes several. The runs of the table are compared as a whole for this: what one run
is taken to is out of the reach of every other run, or lies between its characters.
-/

namespace TaggedData
namespace Text

namespace CaseRun

def image (run : CaseRun) : CaseRun :=
  ⟨(run.first + run.offset).toNat, (run.last + run.offset).toNat, run.stride, 0⟩

def single (n : Nat) : CaseRun :=
  ⟨n, n, 1, 0⟩

/-- The characters are all even or all odd. -/
def alternates (run : CaseRun) : Bool :=
  run.stride == 2 || run.first == run.last

/-- No character is in both runs. -/
def apart (run other : CaseRun) : Bool :=
  Nat.blt run.last other.first || Nat.blt other.last run.first ||
    (run.alternates && other.alternates && run.first % 2 != other.first % 2)

variable {run other : CaseRun} {n : Nat}

theorem contains_iff : run.contains n = true ↔
    run.first ≤ n ∧ n ≤ run.last ∧ (n - run.first) % run.stride = 0 := by
  simp [contains, and_assoc]

theorem contains_single (n : Nat) : (single n).contains n = true := by
  simp [single, contains]

theorem contains_image (hnonneg : 0 ≤ run.first + run.offset) (h : run.contains n = true) :
    run.image.contains (n + run.offset).toNat = true := by
  obtain ⟨hle, hge, hstride⟩ := contains_iff.mp h
  have hsub : (n + run.offset).toNat - (run.first + run.offset).toNat = n - run.first := by omega
  apply contains_iff.mpr
  simp only [image, hsub]
  exact ⟨by omega, by omega, hstride⟩

theorem even_sub_first (halternates : run.alternates = true) (h : run.contains n = true) :
    (n - run.first) % 2 = 0 := by
  obtain ⟨hle, hge, hstride⟩ := contains_iff.mp h
  simp only [alternates, Bool.or_eq_true, beq_iff_eq] at halternates
  rcases halternates with htwo | hsame
  · rwa [htwo] at hstride
  · omega

theorem not_contains_of_apart (h : run.apart other = true) (hn : run.contains n = true) :
    other.contains n = false := by
  apply Bool.eq_false_iff.mpr
  intro hother
  obtain ⟨hle, hge, -⟩ := contains_iff.mp hn
  obtain ⟨hle', hge', -⟩ := contains_iff.mp hother
  simp only [apart, Bool.or_eq_true, Bool.and_eq_true, Nat.blt_eq, bne_iff_ne] at h
  rcases h with (hbelow | habove) | ⟨⟨hrun, hrun'⟩, hparity⟩
  · omega
  · omega
  · have heven := even_sub_first hrun hn
    have heven' := even_sub_first hrun' hother
    omega

end CaseRun

/-- The characters with another upper case. -/
def sources : List CaseRun :=
  caseRuns ++ caseExpansions.map fun entry => .single entry.1

/-- What the upper cases of these start with. -/
def results : List CaseRun :=
  caseRuns.map .image ++ caseExpansions.filterMap fun entry => entry.2.head?.map .single

theorem results_apart : ∀ run ∈ results, ∀ other ∈ sources, run.apart other = true := by
  have hall : (results.all fun run => sources.all fun other => run.apart other) = true := by
    decide +kernel
  simpa only [List.all_eq_true] using hall

theorem image_nonneg : ∀ run ∈ caseRuns, 0 ≤ run.first + run.offset := by
  decide +kernel

theorem expansion_ne_nil : ∀ entry ∈ caseExpansions, entry.2 ≠ [] := by
  decide +kernel

def Fixed (n : Nat) : Prop :=
  ∀ run ∈ sources, run.contains n = false

theorem fixed_of_result {run : CaseRun} {n : Nat} (hrun : run ∈ results)
    (h : run.contains n = true) : Fixed n :=
  fun other hother => CaseRun.not_contains_of_apart (results_apart run hrun other hother) h

theorem fixed_of_run {run : CaseRun} {n : Nat} (hrun : run ∈ caseRuns)
    (h : run.contains n = true) : Fixed (n + run.offset).toNat :=
  fixed_of_result (List.mem_append_left _ (List.mem_map_of_mem hrun))
    (CaseRun.contains_image (image_nonneg run hrun) h)

theorem fixed_of_expansion {n first : Nat} {more : List Nat}
    (h : (n, first :: more) ∈ caseExpansions) : Fixed first := by
  have hresult : CaseRun.single first ∈ results :=
    List.mem_append_right _ (List.mem_filterMap.mpr ⟨_, h, rfl⟩)
  exact fixed_of_result hresult (CaseRun.contains_single first)

theorem upper_of_fixed {c : Char} (h : Fixed c.toNat) : upper c = [c] := by
  have hfind : caseRuns.find? (·.contains c.toNat) = none := by
    apply List.find?_eq_none.mpr
    intro run hrun
    rw [h run (List.mem_append_left _ hrun)]
    exact Bool.false_ne_true
  have hlookup : caseExpansions.lookup c.toNat = none := by
    apply List.lookup_eq_none_iff.mpr
    intro entry hentry
    apply bne_iff_ne.mpr
    intro heq
    have hsingle := h _ (List.mem_append_right _ (List.mem_map_of_mem hentry))
    rw [heq, CaseRun.contains_single] at hsingle
    cases hsingle
  rw [upper, hfind, hlookup]

theorem toNat_ofNat_of_isValidChar {n : Nat} (h : n.isValidChar) : (Char.ofNat n).toNat = n := by
  rw [Char.ofNat, dif_pos h]
  rfl

/-- A number that is not a character stands for the first one, which is fixed too. -/
theorem upper_ofNat {n : Nat} (h : Fixed n) : upper (Char.ofNat n) = [Char.ofNat n] := by
  apply upper_of_fixed
  by_cases hvalid : n.isValidChar
  · rw [toNat_ofNat_of_isValidChar hvalid]
    exact h
  · rw [Char.ofNat, dif_neg hvalid]
    unfold Fixed
    decide +kernel

theorem upper_spec (c : Char) : ∃ first more, upper c = first :: more ∧ upper first = [first] := by
  cases hrun : caseRuns.find? (·.contains c.toNat) with
  | some run =>
    have hcontains := List.find?_some hrun
    have hfixed := fixed_of_run (List.mem_of_find?_eq_some hrun) hcontains
    exact ⟨_, [], by rw [upper, hrun], upper_ofNat hfixed⟩
  | none =>
    cases hexpansion : caseExpansions.lookup c.toNat with
    | some codes =>
      have hmem : (c.toNat, codes) ∈ caseExpansions := by
        obtain ⟨before, after, hentries, -⟩ := List.lookup_eq_some_iff.mp hexpansion
        rw [hentries]
        exact List.mem_append_right before List.mem_cons_self
      obtain ⟨first, more, rfl⟩ := List.exists_cons_of_ne_nil (expansion_ne_nil _ hmem)
      refine ⟨Char.ofNat first, more.map Char.ofNat, ?_, upper_ofNat (fixed_of_expansion hmem)⟩
      rw [upper, hrun, hexpansion]
      rfl
    | none =>
      have hupper : upper c = [c] := by rw [upper, hrun, hexpansion]
      exact ⟨c, [], hupper, hupper⟩

theorem capitalize_cons {first : Char} {rest : List Char} {text : String}
    (h : text.toList = first :: rest) : capitalize text = String.ofList (upper first ++ rest) := by
  rw [capitalize, h]

theorem capitalize_ne_empty {text : String} (h : text ≠ "") : capitalize text ≠ "" := by
  have hne : text.toList ≠ [] := mt String.toList_eq_nil_iff.mp h
  obtain ⟨c, rest, htext⟩ := List.exists_cons_of_ne_nil hne
  obtain ⟨first, more, hupper, -⟩ := upper_spec c
  rw [capitalize_cons htext, hupper]
  simp

/-- A text in upper case stays as it is. -/
theorem capitalize_capitalize (text : String) :
    capitalize (capitalize text) = capitalize text := by
  cases htext : text.toList with
  | nil =>
    have hempty : capitalize text = "" := by rw [capitalize, htext]
    rw [hempty]
    rfl
  | cons c rest =>
    obtain ⟨first, more, hupper, hfirst⟩ := upper_spec c
    have hcapital : capitalize text = String.ofList (first :: (more ++ rest)) := by
      rw [capitalize_cons htext, hupper, List.cons_append]
    rw [hcapital, capitalize_cons String.toList_ofList, hfirst, List.singleton_append]

end Text
end TaggedData
