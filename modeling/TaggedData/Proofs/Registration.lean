import TaggedData.Proofs.Conformance
import TaggedData.Proofs.Registry

/-!
# Registering definitions

A schema grows by operations that may fail. They are given here a second time as they work on a
table with keys that is changed in place, where a failure keeps what was done before it. Both
ways come to the same, so the keys of the table are the names of the definitions and an
operation that fails has changed nothing.
-/

namespace TaggedData

inductive Registration where
  | insert (d : Definition)
  | union (id : Nat) (descriptor : Value)
  | record (id : Nat) (descriptor : Value)

namespace Registration

def definition : Registration → Except Fault Definition
  | .insert d => .ok d
  | .union id descriptor => (Union.define id descriptor).map .union
  | .record id descriptor => (Record.define id descriptor).map .record

/-- The schema with what the operation adds, and what that is. -/
def perform (s : Schema) : Registration → Except Fault (Schema × Definition)
  | .insert d => (s.insert d).map fun t => (t, d)
  | .union id descriptor => (s.defineUnion id descriptor).map fun (t, u) => (t, .union u)
  | .record id descriptor => (s.defineRecord id descriptor).map fun (t, r) => (t, .record r)

theorem perform_eq (s : Schema) (op : Registration) :
    op.perform s = op.definition >>= fun d => (s.insert d).map fun t => (t, d) := by
  cases op with
  | insert d => rfl
  | union id descriptor =>
    simp only [perform, definition, Schema.defineUnion]
    cases Union.define id descriptor with
    | error f => rfl
    | ok u =>
      simp only [bind, Except.bind, Except.map]
      cases s.insert (.union u) <;> rfl
  | record id descriptor =>
    simp only [perform, definition, Schema.defineRecord]
    cases Record.define id descriptor with
    | error f => rfl
    | ok r =>
      simp only [bind, Except.bind, Except.map]
      cases s.insert (.record r) <;> rfl

end Registration

abbrev Register := Keyed Definition

/-- A computation on a register that is changed in place. What was done before a failure stays
done. -/
abbrev Registering := ExceptT Fault (StateM Register)

namespace Registering

def insert (d : Definition) : Registering Unit := do
  if (Primitive.ofName? d.name).isSome then
    throw (.schema (.primitiveName d.name))
  if (Keyed.find? d.name (← get)).isSome then
    throw (.schema (.repeatedName d.name))
  modify (Keyed.put d.name d)

def perform (op : Registration) : Registering Definition := do
  let d ← ExceptT.mk (pure op.definition)
  insert d
  return d

/-- What operations come to, one after the other, and the register that they leave. -/
def performAll : List Registration → Register → List (Except Fault Definition) × Register
  | [], register => ([], register)
  | op :: rest, register =>
    let (outcome, after) := (perform op).run.run register
    let (outcomes, last) := performAll rest after
    (outcome :: outcomes, last)

theorem run_insert (d : Definition) (register : Register) : (insert d).run.run register =
    if (Primitive.ofName? d.name).isSome then
      (.error (.schema (.primitiveName d.name)), register)
    else if (Keyed.find? d.name register).isSome then
      (.error (.schema (.repeatedName d.name)), register)
    else (.ok (), Keyed.put d.name d register) := by
  unfold insert
  split
  · rfl
  · -- What is left reads the register and then branches on what it read.
    change (if _ then _ else _ : Registering Unit).run.run register = _
    split <;> rfl

theorem run_perform (op : Registration) (register : Register) : (perform op).run.run register =
    match op.definition with
    | .error f => (.error f, register)
    | .ok d =>
      match (insert d).run.run register with
      | (.error f, after) => (.error f, after)
      | (.ok (), after) => (.ok d, after) := by
  unfold perform
  cases op.definition with
  | error f => rfl
  | ok d =>
    change (insert d >>= fun _ => pure d : Registering Definition).run.run register = _
    simp only [ExceptT.run_bind, StateT.run_bind]
    obtain ⟨outcome, after⟩ := (insert d).run.run register
    cases outcome <;> rfl

end Registering

namespace Schema

variable {s t : Schema} {d : Definition} {name : String}

/-- The definitions of a schema under their names. -/
def register (s : Schema) : Register :=
  s.definitions.map fun d => (d.name, d)

theorem find?_register (s : Schema) (name : String) :
    Keyed.find? name s.register = s.find? name := by
  obtain ⟨definitions⟩ := s
  induction definitions with
  | nil => rfl
  | cons d rest ih =>
    simp only [register, find?] at ih
    by_cases h : d.name = name
    · simp [register, find?, Keyed.find?, h]
    · simp [register, find?, Keyed.find?, h, ih]

theorem run_insert_register (s : Schema) (d : Definition) :
    (Registering.insert d).run.run s.register =
      match s.insert d with
      | .ok t => (.ok (), t.register)
      | .error f => (.error f, s.register) := by
  rw [Registering.run_insert, find?_register, insert]
  split_ifs with hprimitive hfound
  · rfl
  · rfl
  · rw [Option.not_isSome_iff_eq_none, ← find?_register] at hfound
    rw [Keyed.put_of_find?_eq_none d hfound]
    simp [register]

theorem run_perform_register (s : Schema) (op : Registration) :
    (Registering.perform op).run.run s.register =
      match op.perform s with
      | .ok (t, d) => (.ok d, t.register)
      | .error f => (.error f, s.register) := by
  rw [Registering.run_perform, Registration.perform_eq]
  cases op.definition with
  | error f => rfl
  | ok d =>
    simp only [run_insert_register, bind, Except.bind]
    cases s.insert d <;> rfl

/-- What an operation comes to, and the schema after it. -/
def attempt (s : Schema) (op : Registration) : Except Fault Definition × Schema :=
  match op.perform s with
  | .ok (t, d) => (.ok d, t)
  | .error f => (.error f, s)

def attemptAll (s : Schema) : List Registration → List (Except Fault Definition) × Schema
  | [] => ([], s)
  | op :: rest =>
    let (outcome, t) := s.attempt op
    let (outcomes, last) := t.attemptAll rest
    (outcome :: outcomes, last)

theorem run_attempt (s : Schema) (op : Registration) :
    (Registering.perform op).run.run s.register =
      ((s.attempt op).1, (s.attempt op).2.register) := by
  rw [run_perform_register, attempt]
  cases op.perform s <;> rfl

theorem performAll_register (s : Schema) (ops : List Registration) :
    Registering.performAll ops s.register =
      ((s.attemptAll ops).1, (s.attemptAll ops).2.register) := by
  induction ops generalizing s with
  | nil => rfl
  | cons op rest ih =>
    rw [Registering.performAll, run_attempt, attemptAll]
    simp only [ih]

theorem perform_eq_ok_iff {op : Registration} :
    op.perform s = .ok (t, d) ↔ op.definition = .ok d ∧ Primitive.ofName? d.name = none ∧
      d.name ∉ s.definitions.map Definition.name ∧ t = ⟨s.definitions ++ [d]⟩ := by
  simp only [Registration.perform_eq, bind_eq_ok, map_eq_ok, Prod.mk.injEq, ← insert_eq_ok_iff]
  constructor
  · rintro ⟨e, hdefinition, t', hinsert, rfl, rfl⟩
    exact ⟨hdefinition, hinsert⟩
  · rintro ⟨hdefinition, hinsert⟩
    exact ⟨d, hdefinition, t, hinsert, rfl, rfl⟩

/-- No name stands for two things. -/
structure Consistent (s : Schema) : Prop where
  names : (s.definitions.map Definition.name).Nodup
  notPrimitive : ∀ d ∈ s.definitions, Primitive.ofName? d.name = none

theorem consistent_empty : Schema.empty.Consistent where
  names := List.nodup_nil
  notPrimitive := List.forall_mem_nil _

theorem Consistent.insert (hs : s.Consistent) (h : s.insert d = .ok t) : t.Consistent := by
  refine ⟨names_insert hs.names h, fun e he => ?_⟩
  obtain ⟨hprimitive, -, rfl⟩ := insert_eq_ok_iff.mp h
  rcases List.mem_append.mp he with he | he
  · exact hs.notPrimitive e he
  · rw [List.mem_singleton.mp he]
    exact hprimitive

theorem Consistent.find?_eq_some_iff (hs : s.Consistent) :
    s.find? name = some d ↔ d ∈ s.definitions ∧ d.name = name := by
  refine ⟨mem_of_find?, ?_⟩
  rintro ⟨hd, rfl⟩
  cases hfind : s.find? d.name with
  | none => exact absurd (List.mem_map_of_mem hd) (find?_eq_none_iff.mp hfind)
  | some e =>
    obtain ⟨he, hname⟩ := mem_of_find? hfind
    rw [List.inj_on_of_nodup_map hs.names he hd hname]

theorem Consistent.attempt (hs : s.Consistent) (op : Registration) :
    (s.attempt op).2.Consistent := by
  unfold Schema.attempt
  split
  · rename_i t d hperform
    rw [perform_eq_ok_iff, ← insert_eq_ok_iff] at hperform
    exact hs.insert hperform.2
  · exact hs

/-- An attempt adds what it comes to. -/
theorem definitions_attempt (s : Schema) (op : Registration) :
    (s.attempt op).2.definitions = s.definitions ++ (s.attempt op).1.toOption.toList := by
  unfold attempt
  split
  · rename_i t d hperform
    obtain ⟨-, -, -, rfl⟩ := perform_eq_ok_iff.mp hperform
    rfl
  · simp [Except.toOption]

theorem Consistent.attemptAll (hs : s.Consistent) (ops : List Registration) :
    (s.attemptAll ops).2.Consistent := by
  induction ops generalizing s with
  | nil => exact hs
  | cons op rest ih => exact ih (hs.attempt op)

theorem definitions_attemptAll (s : Schema) (ops : List Registration) :
    (s.attemptAll ops).2.definitions =
      s.definitions ++ (s.attemptAll ops).1.filterMap Except.toOption := by
  induction ops generalizing s with
  | nil => simp [attemptAll]
  | cons op rest ih =>
    simp only [attemptAll, ih, definitions_attempt, List.append_assoc]
    cases h : (s.attempt op).1.toOption with
    | none => simp [h]
    | some d => simp [h]

theorem exists_error_perform_iff {op : Registration} :
    (∃ f, op.perform s = .error f) ↔ (∃ f, op.definition = .error f) ∨
      ∃ d, op.definition = .ok d ∧
        (Primitive.ofName? d.name ≠ none ∨ d.name ∈ s.definitions.map Definition.name) := by
  cases hdefinition : op.definition with
  | error f => simp [Registration.perform_eq, hdefinition, bind, Except.bind]
  | ok d =>
    cases hperform : op.perform s with
    | error f =>
      simp only [Except.error.injEq, exists_eq', reduceCtorEq, exists_false, Except.ok.injEq,
        exists_eq_left', false_or, true_iff]
      by_contra hfree
      rw [not_or, not_not] at hfree
      have hok := perform_eq_ok_iff.mpr ⟨hdefinition, hfree.1, hfree.2, rfl⟩
      rw [hperform] at hok
      cases hok
    | ok result =>
      obtain ⟨t, e⟩ := result
      obtain ⟨he, hprimitive, hname, -⟩ := perform_eq_ok_iff.mp hperform
      cases hdefinition.symm.trans he
      simpa [hprimitive] using hname

theorem union?_eq_some_iff {u : Union} :
    s.union? name = some u ↔ s.find? name = some (.union u) := by
  unfold union?
  split <;> simp_all

theorem record?_eq_some_iff {r : Record} :
    s.record? name = some r ↔ s.find? name = some (.record r) := by
  unfold record?
  split <;> simp_all

/-- What the lookups by name say of each other. -/
structure LookupsAgree (s : Schema) : Prop where
  exclusive : ∀ name, ¬ ((s.union? name).isSome ∧ (s.record? name).isSome)
  present : ∀ name, (s.union? name).isSome ∨ (s.record? name).isSome ↔ (s.find? name).isSome
  primitive : ∀ name p, Primitive.ofName? name = some p → s.resolve name = .ok (.primitive p)
  defined : ∀ name d, Primitive.ofName? name = none → s.find? name = some d →
    s.resolve name = .ok (.definition d)
  unknown : ∀ name, (∃ f, s.resolve name = .error f) ↔
    Primitive.ofName? name = none ∧ s.find? name = none

theorem lookupsAgree (s : Schema) : s.LookupsAgree where
  exclusive name := by
    rintro ⟨hunion, hrecord⟩
    obtain ⟨u, hu⟩ := Option.isSome_iff_exists.mp hunion
    obtain ⟨r, hr⟩ := Option.isSome_iff_exists.mp hrecord
    rw [union?_eq_some_iff] at hu
    rw [record?_eq_some_iff, hu] at hr
    cases hr
  present name := by
    simp only [Option.isSome_iff_exists, union?_eq_some_iff, record?_eq_some_iff]
    constructor
    · rintro (⟨u, hu⟩ | ⟨r, hr⟩)
      · exact ⟨_, hu⟩
      · exact ⟨_, hr⟩
    · rintro ⟨d, hd⟩
      cases d with
      | union u => exact .inl ⟨u, hd⟩
      | record r => exact .inr ⟨r, hd⟩
  primitive name p hp := by simp [resolve, hp]
  defined name d hname hd := by simp [resolve, hname, hd]
  unknown name := by
    unfold resolve
    cases Primitive.ofName? name with
    | some p => simp
    | none => cases s.find? name <;> simp

/-- After any operations, refused ones among them, the schema holds what the others added, as
does a register that they change in place. -/
theorem register_after (ops : List Registration) :
    ∃ outcomes s, Schema.empty.attemptAll ops = (outcomes, s) ∧
      Registering.performAll ops [] = (outcomes, s.register) ∧
      s.definitions = outcomes.filterMap Except.toOption ∧
      (s.definitions.map Definition.name).Nodup ∧
      (∀ d ∈ s.definitions, Primitive.ofName? d.name = none) ∧
      (∀ name d, s.find? name = some d ↔ d ∈ s.definitions ∧ d.name = name) ∧
      (∀ op : Registration, (∃ f, op.perform s = .error f) ↔ (∃ f, op.definition = .error f) ∨
        ∃ d, op.definition = .ok d ∧
          (Primitive.ofName? d.name ≠ none ∨ d.name ∈ s.definitions.map Definition.name)) ∧
      (∀ (op : Registration) f, op.perform s = .error f →
        (Registering.perform op).run.run s.register = (.error f, s.register)) ∧
      s.LookupsAgree := by
  have hs := consistent_empty.attemptAll ops
  refine ⟨_, _, rfl, performAll_register empty ops, definitions_attemptAll empty ops, hs.names,
    hs.notPrimitive, fun name d => hs.find?_eq_some_iff, fun op => exists_error_perform_iff, ?_,
    lookupsAgree _⟩
  intro op f hperform
  rw [run_perform_register, hperform]

/-- A person and a team are defined, between them a person again, something without a
descriptor and a union with the name of a primitive type. -/
def teamAttempts : List Registration :=
  [.record 0 (Record.describe "Person" [("name", .primitive .string)]),
    .record 2 (Record.describe "Person" [("name", .primitive .string)]),
    .union 3 .nil,
    .insert (.union ⟨4, "Number", [⟨4, "Number", "Zero", 0⟩]⟩),
    .record 1 (Record.describe "Team" [("members", .list [.definition (.record Record.person)])])]

theorem attemptAll_team : Schema.empty.attemptAll teamAttempts =
    ([.ok (.record Record.person), .error (.schema (.repeatedName "Person")),
      .error (.union .absent), .error (.schema (.primitiveName "Number")),
      .ok (.record Record.team)], ⟨[.record Record.person, .record Record.team]⟩) :=
  rfl

theorem register_after_team :
    (Registering.performAll teamAttempts []).2 =
        [("Person", .record Record.person), ("Team", .record Record.team)] ∧
      Schema.resolve ⟨[.record Record.person, .record Record.team]⟩ "Team" =
        .ok (.definition (.record Record.team)) ∧
      Schema.find? ⟨[.record Record.person, .record Record.team]⟩ "Number" = none := by
  obtain ⟨outcomes, s, hall, hregister, -, -, hprimitive, hfind, -, -, hlookups⟩ :=
    register_after teamAttempts
  rw [attemptAll_team] at hall
  cases hall
  refine ⟨congrArg Prod.snd hregister, ?_, ?_⟩
  · exact hlookups.defined "Team" _ rfl ((hfind "Team" _).mpr ⟨by simp, rfl⟩)
  · refine Option.eq_none_iff_forall_ne_some.mpr fun d hd => ?_
    obtain ⟨hd, hname⟩ := (hfind "Number" d).mp hd
    have hnone := hprimitive d hd
    rw [hname] at hnone
    cases hnone

end Schema
end TaggedData
