import TaggedData.Proofs.Matching
import TaggedData.Proofs.ExactValues

/-!
# The descriptors of unions

A union is described by its name and by a list of labels with whole numbers, and a descriptor
of this form gives just that union. The list is read from its front. What is reported is its
first entry that is wrong, by its label before its arity, and a label that an earlier entry has
comes last.
-/

namespace TaggedData
namespace Union

/-- What an entry declares: a label, and a whole number for the arity. -/
inductive Declares : Value → String × Nat → Prop
  | keyed {fields label x} {n : Nat} (named : Keyed.find? "name" fields = some (.string label))
      (label_ne : label ≠ "") (given : Keyed.find? "arity" fields = some (.number x))
      (whole : x.value? = some (n : ℚ)) : Declares (.object fields) (label, n)

/-- What a descriptor specifies: a name, and what the entries of its list declare. -/
inductive Specifies : Value → String → List (String × Nat) → Prop
  | keyed {fields name entries given}
      (named : Keyed.find? "typeName" fields = some (.string name)) (name_ne : name ≠ "")
      (listed : Keyed.find? "constructors" fields = some (.list entries)) (nonempty : entries ≠ [])
      (declares : List.Forall₂ Declares entries given) (distinct : (given.map Prod.fst).Nodup) :
      Specifies (.object fields) name given

def declared (id : Nat) (name : String) (given : String × Nat) : Constructor :=
  ⟨id, name, given.1, min given.2 arityBound⟩

theorem entryLabel?_eq_some_iff {entry : Value} {label : String} :
    entryLabel? entry = some label ↔ ∃ fields, entry = .object fields ∧
      Keyed.find? "name" fields = some (.string label) ∧ label ≠ "" := by
  cases entry with
  | object fields =>
    simp only [entryLabel?]
    split
    · rename_i text hfind
      split_ifs <;> grind
    · rename_i hother
      simp only [reduceCtorEq, Value.object.injEq, exists_eq_left', false_iff]
      rintro ⟨hfind, -⟩
      exact hother label hfind
  | _ => simp [entryLabel?]

theorem arity?_number_eq_some_iff {x : Binary64} {arity : Nat} : arity? (.number x) = some arity ↔
    ∃ n : Nat, x.value? = some (n : ℚ) ∧ arity = min n arityBound := by
  have hvalue : ∀ n : Nat, x.value? = some (n : ℚ) ↔ x.toInt? = some (n : Int) := by
    intro n
    rw [Binary64.toInt?_eq_some_iff, Int.cast_natCast]
  simp only [arity?, hvalue]
  cases hint : x.toInt? with
  | none => simp
  | some k =>
    dsimp only
    split_ifs with hk
    · lift k to Nat using hk
      simp [eq_comm]
    · simp only [Option.some.injEq, false_iff]
      rintro ⟨n, rfl, -⟩
      exact hk (Int.natCast_nonneg n)

theorem arity?_eq_some_iff {v : Value} {arity : Nat} : arity? v = some arity ↔
    ∃ x, v = .number x ∧ ∃ n : Nat, x.value? = some (n : ℚ) ∧ arity = min n arityBound := by
  cases v with
  | number x => simp [arity?_number_eq_some_iff]
  | _ => simp [arity?]

theorem entryArity_eq_number_iff {fields : Keyed Value} {x : Binary64} :
    entryArity (.object fields) = .number x ↔
      Keyed.find? "arity" fields = some (.number x) := by
  rw [entryArity]
  cases Keyed.find? "arity" fields <;> simp

theorem gives_iff {id : Nat} {name : String} {entry : Value} {c : Constructor} :
    Gives id name entry c ↔ ∃ given, Declares entry given ∧ c = declared id name given := by
  constructor
  · intro h
    obtain ⟨fields, rfl, hname, hne⟩ := entryLabel?_eq_some_iff.mp h.label
    obtain ⟨x, hx, n, hn, harity⟩ := arity?_eq_some_iff.mp h.arity
    refine ⟨(c.label, n), .keyed hname hne (entryArity_eq_number_iff.mp hx) hn, ?_⟩
    rw [declared, ← harity, ← h.typeId, ← h.typeName]
  · rintro ⟨given, ⟨named, label_ne, found, whole⟩, rfl⟩
    exact ⟨entryLabel?_eq_some_iff.mpr ⟨_, rfl, named, label_ne⟩,
      arity?_eq_some_iff.mpr ⟨_, entryArity_eq_number_iff.mpr found, _, whole, rfl⟩, rfl, rfl⟩

theorem forall₂_gives_iff {id : Nat} {name : String} {entries : List Value}
    {constructors : List Constructor} : List.Forall₂ (Gives id name) entries constructors ↔
      ∃ given, List.Forall₂ Declares entries given ∧
        constructors = given.map (declared id name) := by
  induction entries generalizing constructors with
  | nil => simp
  | cons entry rest ih =>
    simp only [List.forall₂_cons_left_iff, gives_iff, ih]
    constructor
    · rintro ⟨_, _, ⟨given, hentry, rfl⟩, ⟨others, hrest, rfl⟩, rfl⟩
      exact ⟨given :: others, ⟨given, others, hentry, hrest, rfl⟩, rfl⟩
    · rintro ⟨_, ⟨given, others, hentry, hrest, rfl⟩, rfl⟩
      exact ⟨_, _, ⟨given, hentry, rfl⟩, ⟨others, hrest, rfl⟩, rfl⟩

theorem labels_declared (id : Nat) (name : String) (given : List (String × Nat)) :
    (⟨id, name, given.map (declared id name)⟩ : Union).labels = given.map Prod.fst := by
  simp [labels, declared, Function.comp_def]

/-- A descriptor gives the union that it specifies, and nothing else gives one. -/
theorem define_iff_specifies {id : Nat} {d : Value} {u : Union} : define id d = .ok u ↔
    ∃ given, Specifies d u.name given ∧ u = ⟨id, u.name, given.map (declared id u.name)⟩ := by
  rw [define_eq_ok_iff]
  constructor
  · rintro ⟨fields, entries, rfl, hname, hne, hlist, hentries, hid, hgives, hnodup⟩
    obtain ⟨given, hdeclares, hconstructors⟩ := forall₂_gives_iff.mp hgives
    have hu : u = ⟨id, u.name, given.map (declared id u.name)⟩ := by
      rw [← hconstructors, ← hid]
    rw [hu, labels_declared] at hnodup
    exact ⟨given, .keyed hname hne hlist hentries hdeclares hnodup, hu⟩
  · rintro ⟨given, ⟨named, name_ne, listed, nonempty, declares, distinct⟩, hu⟩
    rw [hu, labels_declared]
    exact ⟨_, _, rfl, named, name_ne, listed, nonempty, rfl,
      forall₂_gives_iff.mpr ⟨given, declares, rfl⟩, distinct⟩

/-- What is wrong with an entry after entries that declare `earlier`, and how it is written. -/
inductive Rejects (name : String) (earlier : List (String × Nat)) :
    Value → UnionFault → String → Prop
  /-- There is no label, whatever else is wrong. -/
  | unnamed {entry} (nameless : ∀ fields label, entry = .object fields →
        Keyed.find? "name" fields = some (.string label) → label = "") :
      Rejects name earlier entry (.constructorUnnamed name earlier.length entry)
        ("Type " ++ name ++ ": constructor #" ++ toString earlier.length ++ " (" ++ entry.render ++
          ") must have a non-empty name")
  /-- There is a label, and the arity is not a whole number. -/
  | arity {fields label} (named : Keyed.find? "name" fields = some (.string label))
      (label_ne : label ≠ "") (notWhole : ∀ x, Keyed.find? "arity" fields = some (.number x) →
        ∀ n : Nat, x.value? ≠ some (n : ℚ)) :
      Rejects name earlier (.object fields)
        (.constructorArity name label ((Keyed.find? "arity" fields).getD .nil))
        ("Type " ++ name ++ ": constructor " ++ label ++
          " must have a non-negative integer arity, got " ++
          ((Keyed.find? "arity" fields).getD .nil).render)
  /-- Only the label is taken. -/
  | repeated {entry label n} (declares : Declares entry (label, n))
      (taken : label ∈ earlier.map Prod.fst) :
      Rejects name earlier entry (.constructorRepeated name label)
        ("Type " ++ name ++ ": constructor " ++ label ++ " is declared twice")

/-- A list that is not in order, for its first entry that is wrong: the entries before it are in
order together. -/
inductive FirstRejected (name : String) : List Value → UnionFault → String → Prop
  | entry {before entry after earlier fault text} (declares : List.Forall₂ Declares before earlier)
      (distinct : (earlier.map Prod.fst).Nodup) (rejects : Rejects name earlier entry fault text) :
      FirstRejected name (before ++ entry :: after) fault text

theorem rejects_of_entryLabel? {name : String} {earlier : List (String × Nat)} {entry : Value}
    (h : entryLabel? entry = none) :
    Rejects name earlier entry (.constructorUnnamed name earlier.length entry)
      (UnionFault.constructorUnnamed name earlier.length entry).message := by
  refine .unnamed fun fields label hentry hfind => ?_
  by_contra hne
  have hlabel := entryLabel?_eq_some_iff.mpr ⟨fields, hentry, hfind, hne⟩
  rw [h] at hlabel
  cases hlabel

theorem rejects_of_arity? {name : String} {earlier : List (String × Nat)} {entry : Value}
    {label : String} (hlabel : entryLabel? entry = some label)
    (h : arity? (entryArity entry) = none) :
    Rejects name earlier entry (.constructorArity name label (entryArity entry))
      (UnionFault.constructorArity name label (entryArity entry)).message := by
  obtain ⟨fields, rfl, hname, hne⟩ := entryLabel?_eq_some_iff.mp hlabel
  refine .arity hname hne fun x hx n hn => ?_
  have harity := arity?_eq_some_iff.mpr ⟨x, entryArity_eq_number_iff.mpr hx, n, hn, rfl⟩
  rw [h] at harity
  cases harity

theorem firstRejected_of_defineConstructors {id : Nat} {name : String} {done rest : List Value}
    {given : List (String × Nat)} {f : Fault} (hdone : List.Forall₂ Declares done given)
    (hdistinct : (given.map Prod.fst).Nodup)
    (h : defineConstructors id name given.length (given.map Prod.fst).reverse rest = .error f) :
    ∃ fault, f = .union fault ∧ FirstRejected name (done ++ rest) fault f.message := by
  induction rest generalizing done given with
  | nil => cases h
  | cons entry rest ih =>
    unfold defineConstructors at h
    split at h
    · rename_i hlabel
      cases h
      exact ⟨_, rfl, .entry hdone hdistinct (rejects_of_entryLabel? hlabel)⟩
    · rename_i label hlabel
      split at h
      · rename_i harity
        cases h
        exact ⟨_, rfl, .entry hdone hdistinct (rejects_of_arity? hlabel harity)⟩
      · rename_i arity harity
        obtain ⟨⟨_, n⟩, hentry, hc⟩ :=
          (gives_iff (c := ⟨id, name, label, arity⟩)).mp ⟨hlabel, harity, rfl, rfl⟩
        obtain rfl : label = _ := congrArg Constructor.label hc
        simp only [List.mem_reverse] at h
        split_ifs at h with hseen
        · cases h
          exact ⟨_, rfl, .entry hdone hdistinct (.repeated hentry hseen)⟩
        · split at h
          · rename_i g hrest
            cases h
            have hsplit : done ++ entry :: rest = (done ++ [entry]) ++ rest := by simp
            have hdone : List.Forall₂ Declares (done ++ [entry]) (given ++ [(label, n)]) :=
              List.rel_append hdone (.cons hentry .nil)
            have hdistinct : ((given ++ [(label, n)]).map Prod.fst).Nodup := by
              rw [List.map_append, List.nodup_append_comm]
              exact List.nodup_cons.mpr ⟨hseen, hdistinct⟩
            rw [hsplit]
            exact ih hdone hdistinct (by simpa using hrest)
          · cases h

theorem constructors_of_define {id : Nat} {d : Value} {u : Union} (h : define id d = .ok u) :
    ∃ given, Specifies d u.name given ∧ u.constructors = given.map (declared id u.name) := by
  obtain ⟨given, hspecifies, hu⟩ := define_iff_specifies.mp h
  exact ⟨given, hspecifies, congrArg Union.constructors hu⟩

/-- Labels differ, so a label finds the constructor of its own entry and no other one. -/
theorem WellFormed.find?_eq_some_iff {u : Union} (h : u.WellFormed) {label : String}
    {c : Constructor} : u.find? label = some c ↔ c ∈ u.constructors ∧ c.label = label := by
  refine ⟨mem_of_find?, ?_⟩
  rintro ⟨hc, rfl⟩
  exact h.find?_label hc

/-- Behind a name and a list that is not empty, only the entries can be wrong. -/
theorem define_eq_map {id : Nat} {fields : Keyed Value} {name : String} {entries : List Value}
    (hname : Keyed.find? "typeName" fields = some (.string name)) (hne : name ≠ "")
    (hlist : Keyed.find? "constructors" fields = some (.list entries)) (hentries : entries ≠ []) :
    define id (.object fields) =
      (defineConstructors id name 0 [] entries).map fun constructors => ⟨id, name, constructors⟩ := by
  have hnamed : descriptorName fields = .ok name := descriptorName_eq_ok_iff.mpr ⟨hname, hne⟩
  have hlisted : constructorEntries name fields = .ok entries :=
    constructorEntries_eq_ok_iff.mpr ⟨hlist, hentries⟩
  simp only [define, hnamed, hlisted, bind, Except.bind]
  cases defineConstructors id name 0 [] entries <;> rfl

/-- The descriptors that are accepted, what they give, and what is reported of a list that is
not in order. -/
theorem descriptor_law (id : Nat) (d : Value) :
    ((∃ u, define id d = .ok u) ↔ ∃ name given, Specifies d name given) ∧
    (∀ u, define id d = .ok u → ∃ given, Specifies d u.name given ∧
      u.constructors = given.map (declared id u.name) ∧
      ∀ label c, u.find? label = some c ↔
        ∃ n, (label, n) ∈ given ∧ c = declared id u.name (label, n)) ∧
    ∀ fields name entries f, d = .object fields →
      Keyed.find? "typeName" fields = some (.string name) → name ≠ "" →
      Keyed.find? "constructors" fields = some (.list entries) → entries ≠ [] →
      define id d = .error f →
      ∃ fault, f = .union fault ∧ FirstRejected name entries fault f.message := by
  refine ⟨⟨?_, ?_⟩, ?_, ?_⟩
  · rintro ⟨u, hu⟩
    obtain ⟨given, hspecifies, -⟩ := constructors_of_define hu
    exact ⟨u.name, given, hspecifies⟩
  · rintro ⟨name, given, hspecifies⟩
    exact ⟨⟨id, name, given.map (declared id name)⟩,
      define_iff_specifies.mpr ⟨given, hspecifies, rfl⟩⟩
  · intro u hu
    obtain ⟨given, hspecifies, hconstructors⟩ := constructors_of_define hu
    refine ⟨given, hspecifies, hconstructors, fun label c => ?_⟩
    rw [(define_wellFormed hu).find?_eq_some_iff, hconstructors, List.mem_map]
    constructor
    · rintro ⟨⟨⟨label, n⟩, hmem, rfl⟩, rfl⟩
      exact ⟨n, hmem, rfl⟩
    · rintro ⟨n, hmem, rfl⟩
      exact ⟨⟨_, hmem, rfl⟩, rfl⟩
  · rintro fields name entries f rfl hname hne hlist hentries hrefused
    rw [define_eq_map hname hne hlist hentries, map_eq_error] at hrefused
    exact firstRejected_of_defineConstructors .nil List.nodup_nil hrefused

theorem descriptor_law_maybe :
    (∃ given, Specifies (describe "Maybe" [("Just", 1), ("Nothing", 0)]) "Maybe" given ∧
      maybe.constructors = given.map (declared 0 "Maybe")) ∧
    define 0 (describe "Maybe" [("Just", 1), ("Just", 0)]) =
      .error (.union (.constructorRepeated "Maybe" "Just")) ∧
    FirstRejected "Maybe"
      [.object [("name", .string "Just"), ("arity", .number (.ofNat 1))],
        .object [("name", .string "Just"), ("arity", .number (.ofNat 0))]]
      (.constructorRepeated "Maybe" "Just") "Type Maybe: constructor Just is declared twice" := by
  have hrefused : define 0 (describe "Maybe" [("Just", 1), ("Just", 0)]) =
      .error (.union (.constructorRepeated "Maybe" "Just")) := by
    have hone : arity? (.number (.ofNat 1)) = some 1 := by decide +kernel
    have hzero : arity? (.number (.ofNat 0)) = some 0 := by decide +kernel
    rw [describe, define_eq_map rfl (by decide) rfl (by simp)]
    simp [defineConstructors, entryLabel?, entryArity, Keyed.find?, hone, hzero, Except.map]
  obtain ⟨-, hgiven, -⟩ := descriptor_law 0 (describe "Maybe" [("Just", 1), ("Nothing", 0)])
  obtain ⟨-, -, hblame⟩ := descriptor_law 0 (describe "Maybe" [("Just", 1), ("Just", 0)])
  obtain ⟨given, hspecifies, hconstructors, -⟩ := hgiven maybe define_maybe
  obtain ⟨fault, hfault, hrejected⟩ :=
    hblame _ "Maybe" _ _ rfl rfl (by decide) rfl (List.cons_ne_nil _ _) hrefused
  cases hfault
  exact ⟨⟨given, hspecifies, hconstructors⟩, hrefused, hrejected⟩

end Union
end TaggedData
