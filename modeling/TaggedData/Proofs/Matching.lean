import TaggedData.Proofs.Definitions
import TaggedData.Union.Matcher

/-!
# Exhaustive matching

A matcher is built exactly when its branches are one for every constructor and none of
them is absent. Applied to what a constructor made, it gives what the branch of that
constructor gives for the payload, and nothing else of the table or of the union counts.
-/

namespace TaggedData

theorem Branch.isAbsent_ofValue (v : Value) : (Branch.ofValue v).isAbsent = v.isAbsent := by
  cases v <;> rfl

/-- Branches as they are given: one case after the other, or as the entries of a keyed
structure. -/
inductive BranchTable where
  | cases (given : List (String × Branch))
  | value (fields : Keyed Value)

namespace BranchTable

def matcher (u : Union) : BranchTable → Except Fault Matcher
  | .cases given => u.matcher (Keyed.ofPairs given)
  | .value fields => u.matcherOfValue (.object fields)

def names : BranchTable → List String
  | .cases given => given.map Prod.fst
  | .value fields => Keyed.keys fields

/-- Some case is a constant that is absent. Of repeated cases the last one counts. -/
def HasAbsent : BranchTable → Prop
  | .cases given => ∃ label v, (label, .constant v) ∈ Keyed.ofPairs given ∧ v.isAbsent = true
  | .value fields => ∃ label v, (label, v) ∈ fields ∧ v.isAbsent = true

/-- What a table gives for a label and a payload. -/
inductive Gives (host : Host) (payload : Value) (label : String) :
    BranchTable → Except Fault Value → Prop
  | constant {given v} (found : Keyed.find? label (Keyed.ofPairs given) = some (.constant v)) :
      Gives host payload label (.cases given) (.ok v)
  | thunk {given run} (found : Keyed.find? label (Keyed.ofPairs given) = some (.thunk run)) :
      Gives host payload label (.cases given) (run payload)
  | callee {given c} (found : Keyed.find? label (Keyed.ofPairs given) = some (.callee c)) :
      Gives host payload label (.cases given) (c.call host [payload])
  | function {fields f} (found : Keyed.find? label fields = some (.function f)) :
      Gives host payload label (.value fields) (.ok (host.run f [payload]))
  | constructor {fields c} (found : Keyed.find? label fields = some (.constructor c)) :
      Gives host payload label (.value fields) (c.call [payload])
  | primitive {fields p} (found : Keyed.find? label fields = some (.primitive p)) :
      Gives host payload label (.value fields) (p.call host.nextSymbol [payload])
  | other {fields v} (found : Keyed.find? label fields = some v) (plain : v.isCallable = false) :
      Gives host payload label (.value fields) (.ok v)

def branches : BranchTable → Keyed Branch
  | .cases given => Keyed.ofPairs given
  | .value fields => fields.map fun (label, v) => (label, .ofValue v)

theorem matcher_eq (t : BranchTable) (u : Union) : t.matcher u = u.matcher t.branches := by
  cases t with
  | cases given => rfl
  | value fields => rfl

theorem mem_keys_branches {t : BranchTable} {label : String} :
    label ∈ Keyed.keys t.branches ↔ label ∈ t.names := by
  cases t with
  | cases given => exact Keyed.mem_keys_ofPairs
  | value fields => simp [branches, names, Keyed.keys, Function.comp_def]

theorem hasAbsent_iff {t : BranchTable} :
    t.HasAbsent ↔ ∃ entry ∈ t.branches, entry.2.isAbsent = true := by
  cases t with
  | cases given =>
    constructor
    · rintro ⟨label, v, hmem, hv⟩
      exact ⟨_, hmem, hv⟩
    · rintro ⟨⟨label, branch⟩, hmem, hb⟩
      cases branch with
      | thunk run => cases hb
      | callee c => cases hb
      | constant v => exact ⟨label, v, hmem, hb⟩
  | value fields =>
    constructor
    · rintro ⟨label, v, hmem, hv⟩
      exact ⟨_, List.mem_map_of_mem hmem, (Branch.isAbsent_ofValue v).trans hv⟩
    · rintro ⟨entry, hmem, hb⟩
      obtain ⟨⟨label, v⟩, hv, rfl⟩ := List.mem_map.mp hmem
      exact ⟨label, v, hv, (Branch.isAbsent_ofValue v).symm.trans hb⟩

theorem gives_resolve {t : BranchTable} {label : String} {branch : Branch}
    (h : Keyed.find? label t.branches = some branch) (host : Host) (payload : Value) :
    t.Gives host payload label (branch.resolve host payload) := by
  cases t with
  | cases given =>
    cases branch with
    | thunk run => exact .thunk h
    | callee c => exact .callee h
    | constant v => exact .constant h
  | value fields =>
    obtain ⟨v, hv, rfl⟩ := Keyed.find?_map_eq_some_iff.mp h
    cases v with
    | function f => exact .function hv
    | constructor c => exact .constructor hv
    | primitive p => exact .primitive hv
    | _ => exact .other hv rfl

end BranchTable

namespace Union

theorem matcher_eq_ok_iff {u : Union} {branches : Keyed Branch} {m : Matcher} :
    u.matcher branches = .ok m ↔ branches ≠ [] ∧
      (∀ label, label ∈ Keyed.keys branches → label ∈ u.labels) ∧
      (∀ label, label ∈ u.labels → label ∈ Keyed.keys branches) ∧
      (¬ ∃ entry ∈ branches, entry.2.isAbsent = true) ∧ m = ⟨u, branches⟩ := by
  unfold matcher
  simp only [List.isEmpty_iff, Bool.not_eq_true', List.isEmpty_eq_false_iff, ne_eq,
    Names.missingFrom_eq_nil_iff]
  split_ifs with hempty hunknown hmissing
  · simp [hempty]
  · split
    · rename_i label branch hfind
      have hmem := List.mem_of_find?_eq_some hfind
      have habsent := List.find?_some hfind
      simp only [reduceCtorEq, false_iff]
      rintro ⟨-, -, -, hnone, -⟩
      exact hnone ⟨_, hmem, habsent⟩
    · rename_i hfind
      rw [List.find?_eq_none] at hfind
      constructor
      · rintro h
        cases h
        exact ⟨hempty, hunknown, hmissing, fun ⟨entry, hmem, ha⟩ => hfind entry hmem ha, rfl⟩
      · rintro ⟨-, -, -, -, rfl⟩
        rfl
  · simp only [false_iff]
    rintro ⟨-, -, hsup, -⟩
    exact hmissing hsup
  · simp only [false_iff]
    rintro ⟨-, hsub, -⟩
    exact hunknown hsub

/-- A matcher has a branch for every constructor of its union, and only for these. -/
theorem WellFormed.exists_matcher_iff {u : Union} (hu : u.WellFormed) {branches : Keyed Branch} :
    (∃ m, u.matcher branches = .ok m) ↔
      (∀ label, label ∈ Keyed.keys branches ↔ label ∈ u.labels) ∧
        ¬ ∃ entry ∈ branches, entry.2.isAbsent = true := by
  simp only [matcher_eq_ok_iff, exists_and_left, exists_eq, and_true]
  constructor
  · rintro ⟨-, hsub, hsup, hnone⟩
    exact ⟨fun label => ⟨hsub label, hsup label⟩, hnone⟩
  · rintro ⟨hsame, hnone⟩
    refine ⟨?_, fun label => (hsame label).mp, fun label => (hsame label).mpr, hnone⟩
    rintro rfl
    exact hu.labels_ne (List.eq_nil_iff_forall_not_mem.mpr fun label hl => by
      simpa using (hsame label).mpr hl)

end Union

theorem Matcher.apply_tagged {m : Matcher} {label : String} {branch : Branch}
    (h : Keyed.find? label m.branches = some branch) (host : Host) (form : Form)
    (payload : Value) :
    m.apply host (.tagged m.union.name label form payload) = branch.resolve host payload := by
  simp [apply, Value.tags, h]

namespace Union

/-- Every matcher of the union resolves its branch for the label with the payload. -/
def Dispatches (u : Union) (v : Value) (label : String) (payload : Value) : Prop :=
  ∀ branches m, u.matcher branches = .ok m →
    ∃ branch, Keyed.find? label branches = some branch ∧
      ∀ host, m.apply host v = branch.resolve host payload

/-- Every matcher of the union fails in the same way. -/
def Refuses (u : Union) (v : Value) (f : MatchFault) : Prop :=
  ∀ branches m, u.matcher branches = .ok m → ∀ host, m.apply host v = .error (.matching f)

variable {u : Union}

theorem refuses_definition {d : Definition} (h : d.name = u.name) :
    u.Refuses (.definition d) (.notAValue u (.definition d)) := by
  intro branches m hm host
  obtain ⟨-, -, -, -, rfl⟩ := matcher_eq_ok_iff.mp hm
  simp [Matcher.apply, Value.tags, h]

theorem dispatches_tagged {label : String} (h : label ∈ u.labels) (form : Form)
    (payload : Value) : u.Dispatches (.tagged u.name label form payload) label payload := by
  intro branches m hm
  obtain ⟨-, -, hlabels, -, rfl⟩ := matcher_eq_ok_iff.mp hm
  obtain ⟨branch, hbranch⟩ := Keyed.find?_isSome_iff.mpr (hlabels label h)
  exact ⟨branch, hbranch, fun host => Matcher.apply_tagged hbranch host form payload⟩

theorem refuses_tagged {label : String} (h : label ∉ u.labels) (form : Form) (payload : Value) :
    u.Refuses (.tagged u.name label form payload) (.noCase u label) := by
  intro branches m hm host
  obtain ⟨-, hlabels, -, -, rfl⟩ := matcher_eq_ok_iff.mp hm
  have hnone := Keyed.find?_eq_none_iff.mpr fun hkey => h (hlabels label hkey)
  simp [Matcher.apply, Value.tags, hnone]

end Union

theorem Constructor.call_eq_ok {c : Constructor} {arguments : List Value}
    (h : arguments.length = c.arity) :
    c.call arguments = .ok (.tagged c.typeName c.label (.variant c.arity) (payload arguments)) :=
  if_pos h

/-- Nothing, the argument itself, or the list of arguments. -/
theorem Constructor.payload_cases (arguments : List Value) :
    (arguments.length = 0 → payload arguments = .null) ∧
      (arguments.length = 1 → arguments = [payload arguments]) ∧
      (2 ≤ arguments.length → payload arguments = .list arguments) := by
  match arguments with
  | [] => simp [payload]
  | [v] => simp [payload]
  | v :: w :: rest => simp [payload]

theorem exhaustive_matching {id : Nat} {descriptor : Value} {u : Union}
    (hu : Union.define id descriptor = .ok u) (t : BranchTable) :
    ((∃ m, t.matcher u = .ok m) ↔
      (∀ label, label ∈ t.names ↔ label ∈ u.labels) ∧ ¬ t.HasAbsent) ∧
    ∀ m, t.matcher u = .ok m → ∀ c ∈ u.constructors, ∀ arguments : List Value,
      arguments.length = c.arity → ∃ v payload, c.call arguments = .ok v ∧
        (c.arity = 0 → payload = .null) ∧ (c.arity = 1 → arguments = [payload]) ∧
        (2 ≤ c.arity → payload = .list arguments) ∧
        (∀ host, t.Gives host payload c.label (m.apply host v)) ∧
        ∀ (u' : Union) (t' : BranchTable) (m' : Matcher), u'.name = u.name →
          t'.matcher u' = .ok m' →
          Keyed.find? c.label t'.branches = Keyed.find? c.label t.branches →
          ∀ host, m'.apply host v = m.apply host v := by
  have proper := Union.define_wellFormed hu
  refine ⟨?_, fun m hm c hc arguments hlength => ?_⟩
  · rw [BranchTable.matcher_eq, proper.exists_matcher_iff, BranchTable.hasAbsent_iff]
    simp only [BranchTable.mem_keys_branches]
  · rw [BranchTable.matcher_eq, Union.matcher_eq_ok_iff] at hm
    obtain ⟨-, -, hlabels, -, rfl⟩ := hm
    have hkey := hlabels c.label (Union.mem_labels.mpr ⟨c, hc, rfl⟩)
    obtain ⟨branch, hbranch⟩ := Keyed.find?_isSome_iff.mpr hkey
    obtain ⟨hzero, hone, hmore⟩ := Constructor.payload_cases arguments
    rw [hlength] at hzero hone hmore
    refine ⟨_, Constructor.payload arguments, Constructor.call_eq_ok hlength, hzero, hone, hmore,
      fun host => ?_, fun u' t' m' hname hm' hsame host => ?_⟩
    · rw [proper.typeName_eq c hc, Matcher.apply_tagged hbranch]
      exact BranchTable.gives_resolve hbranch host _
    · rw [BranchTable.matcher_eq, Union.matcher_eq_ok_iff] at hm'
      obtain ⟨-, -, -, -, rfl⟩ := hm'
      rw [proper.typeName_eq c hc, Matcher.apply_tagged hbranch, ← hname]
      exact Matcher.apply_tagged (hsame.trans hbranch) host _ _

def Union.maybe : Union :=
  ⟨0, "Maybe", [⟨0, "Maybe", "Just", 1⟩, ⟨0, "Maybe", "Nothing", 0⟩]⟩

theorem Union.define_maybe :
    define 0 (describe "Maybe" [("Just", 1), ("Nothing", 0)]) = .ok maybe :=
  define_describe (by decide) (by decide) (by decide +kernel) (by decide)

theorem exhaustive_matching_maybe :
    Union.define 0 (Union.describe "Maybe" [("Just", 1), ("Nothing", 0)]) = .ok Union.maybe ∧
      ∃ m v payload, BranchTable.matcher Union.maybe
          (.value [("Nothing", .bool false), ("Just", .primitive .string)]) = .ok m ∧
        Constructor.call ⟨0, "Maybe", "Just", 1⟩ [.null] = .ok v ∧
        ∀ host, BranchTable.Gives host payload "Just"
          (.value [("Nothing", .bool false), ("Just", .primitive .string)]) (m.apply host v) := by
  obtain ⟨hbuilt, hgives⟩ := exhaustive_matching Union.define_maybe
    (.value [("Nothing", .bool false), ("Just", .primitive .string)])
  have habsent : ¬ BranchTable.HasAbsent
      (.value [("Nothing", .bool false), ("Just", .primitive .string)]) := by
    rintro ⟨label, v, hmem, hv⟩
    simp only [List.mem_cons, Prod.mk.injEq, List.not_mem_nil, or_false] at hmem
    rcases hmem with ⟨-, rfl⟩ | ⟨-, rfl⟩ <;> cases hv
  obtain ⟨m, hm⟩ := hbuilt.mpr
    ⟨by simp [BranchTable.names, Union.labels, Union.maybe, or_comm], habsent⟩
  obtain ⟨v, payload, hcall, -, -, -, happly, -⟩ :=
    hgives m hm ⟨0, "Maybe", "Just", 1⟩ (by decide) [.null] rfl
  exact ⟨Union.define_maybe, m, v, payload, hm, hcall, happly⟩

end TaggedData
