import TaggedData.Lifting
import TaggedData.Proofs.Basic

/-!
# Definitions without their identities

Two definitions are written alike if they are equal once the identities are taken out of them
and of everything that they hold. Lifting goes by names and tags, so a record lifts a document
as its erasure does: to the same value, or to an error with the same message.
-/

namespace TaggedData

def Constructor.erase (c : Constructor) : Constructor :=
  { c with typeId := 0 }

def Union.erase (u : Union) : Union :=
  ⟨0, u.name, u.constructors.map Constructor.erase⟩

mutual

def ElementType.erase : ElementType → ElementType
  | .primitive p => .primitive p
  | .user d => .user d.erase

def Definition.erase : Definition → Definition
  | .union u => .union u.erase
  | .record r => .record r.erase

def Record.erase : Record → Record
  | ⟨_, name, keys, types, lensTable, inStep⟩ => ⟨0, name, keys, types.erase, lensTable, inStep⟩

def FieldType.erase : FieldType → FieldType
  | .single element => .single element.erase
  | .listOf element => .listOf element.erase

def FieldTable.erase : {keys : List String} → FieldTable keys → FieldTable keys
  | _, .nil => .nil
  | _, .cons key type rest => .cons key type.erase rest.erase

end

theorem FieldTable.toList_erase {keys : List String} (table : FieldTable keys) :
    table.erase.toList = table.toList.map fun (name, type) => (name, type.erase) := by
  match table with
  | .nil => rfl
  | .cons key type rest => simp only [erase, toList, rest.toList_erase, List.map_cons]

theorem Record.erase_eq (r : Record) :
    r.erase = .ofTypes 0 r.name (r.fields.map fun (name, type) => (name, type.erase)) := by
  obtain ⟨id, name, keys, types, lensTable, inStep⟩ := r
  refine eq_of_fields rfl rfl ?_
  rw [fields_ofTypes]
  exact types.toList_erase

theorem Record.fields_erase (r : Record) :
    r.erase.fields = r.fields.map fun (name, type) => (name, type.erase) := by
  rw [erase_eq, fields_ofTypes]

@[simp] theorem Union.name_erase (u : Union) : u.erase.name = u.name := rfl

@[simp] theorem Record.name_erase (r : Record) : r.erase.name = r.name := by
  rw [erase_eq, name_ofTypes]

@[simp] theorem Definition.name_erase (d : Definition) : d.erase.name = d.name := by
  cases d with
  | union u => rfl
  | record r => exact Record.name_erase r

@[simp] theorem ElementType.name_erase (type : ElementType) : type.erase.name = type.name := by
  cases type with
  | primitive p => rfl
  | user d => exact Definition.name_erase d

@[simp] theorem FieldType.name_erase (type : FieldType) : type.erase.name = type.name := by
  cases type with
  | single element => exact ElementType.name_erase element
  | listOf element => simp only [erase, name, ElementType.name_erase]

@[simp] theorem ElementType.admits_erase (type : ElementType) (v : Value) :
    type.erase.admits v = type.admits v := by
  cases type with
  | primitive p => rfl
  | user d => simp only [erase, admits, Definition.is, Definition.name_erase]

@[simp] theorem FieldType.admits_erase (type : FieldType) (v : Value) :
    type.erase.admits v = type.admits v := by
  cases type with
  | single element => exact ElementType.admits_erase element v
  | listOf element => simp only [erase, admits, ElementType.admits_erase]

@[simp] theorem Union.labels_erase (u : Union) : u.erase.labels = u.labels := by
  simp [labels, erase, Constructor.erase]

@[simp] theorem Union.signature_erase (u : Union) : u.erase.signature = u.signature := by
  rw [signature, signature, sortedLabels, sortedLabels, labels_erase, name_erase]

theorem Union.find?_erase (u : Union) (label : String) :
    u.erase.find? label = (u.find? label).map Constructor.erase := by
  simp [find?, erase, List.find?_map, Function.comp_def, Constructor.erase]

@[simp] theorem Record.keys_erase (r : Record) :
    Keyed.keys r.erase.fields = Keyed.keys r.fields := by
  simp [fields_erase, Keyed.keys]

@[simp] theorem Record.signature_erase (r : Record) : r.erase.signature = r.signature := by
  simp [signature, fields_erase, Function.comp_def]

theorem Record.fieldType?_erase (r : Record) (field : String) :
    r.erase.fieldType? field = (r.fieldType? field).map FieldType.erase := by
  refine Option.ext fun type => ?_
  rw [fieldType?, fieldType?, fields_erase, Option.map_eq_some_iff]
  exact Keyed.find?_map_eq_some_iff

/-- What there is to see of a result: a value, or the message of a fault. -/
def outcome {α : Type} (result : Except Fault α) : Except String α :=
  result.mapError Fault.message

theorem outcome_bind {α β : Type} (x : Except Fault α) (f : α → Except Fault β) :
    outcome (x >>= f) = outcome x >>= fun a => outcome (f a) := by
  cases x <;> rfl

theorem outcome_map {α β : Type} (x : Except Fault α) (f : α → β) :
    outcome (x.map f) = (outcome x).map f := by
  cases x <;> rfl

theorem outcome_mapM {α β : Type} (f : α → Except Fault β) (items : List α) :
    outcome (items.mapM f) = items.mapM fun a => outcome (f a) := by
  induction items with
  | nil => rfl
  | cons a rest ih =>
    simp only [List.mapM_cons, outcome_bind, ih]
    rfl

/-- Faults with the same message show the same. -/
theorem outcome_error {α : Type} {f g : Fault} (h : f.message = g.message) :
    outcome (.error f : Except Fault α) = outcome (.error g) :=
  congrArg Except.error h

theorem Constructor.outcome_call_erase (c : Constructor) (arguments : List Value) :
    outcome (c.erase.call arguments) = outcome (c.call arguments) := by
  by_cases h : arguments.length = c.arity
  · simp only [call, erase, h, ↓reduceIte]
  · simp only [call, erase, h, ↓reduceIte]
    exact outcome_error rfl

theorem Union.outcome_construct_erase (u : Union) (label : String) (arguments : List Value) :
    outcome (u.erase.construct label arguments) = outcome (u.construct label arguments) := by
  rw [construct, construct, find?_erase]
  cases u.find? label with
  | none =>
    refine outcome_error ?_
    change u.erase.name ++ _ ++ label ++ _ ++ u.erase.signature = _
    rw [name_erase, signature_erase]
    rfl
  | some c => exact c.outcome_call_erase arguments

theorem Union.outcome_lift_erase (u : Union) (j : Json) :
    outcome (u.erase.lift j) = outcome (u.lift j) := by
  unfold lift
  simp only [find?_erase, Option.isSome_map]
  split
  · split
    · exact u.outcome_construct_erase _ _
    · rfl
  · split
    · exact u.outcome_construct_erase _ _
    · rfl
  · rfl

def ShapeFault.erase : ShapeFault → ShapeFault
  | .absent r => .absent r.erase
  | .noFields r given => .noFields r.erase given
  | .unexpectedFields r fields => .unexpectedFields r.erase fields
  | .missingFields r fields => .missingFields r.erase fields
  | .fieldValue r field type given => .fieldValue r.erase field type.erase given
  | .elementValue r field type given index item =>
    .elementValue r.erase field type.erase given index item

theorem ShapeFault.mismatch_erase (r : Record) (field type : String) (given : Value) :
    mismatch r.erase field type given = mismatch r field type given := by
  rw [mismatch, mismatch, Record.name_erase]

/-- A message writes definitions by their names and signatures. -/
theorem ShapeFault.message_erase (f : ShapeFault) : f.erase.message = f.message := by
  cases f with
  | absent r =>
    -- Every text is given by its parts, in which the definitions occur by name only.
    change r.erase.name ++ _ ++ r.erase.signature = _
    rw [Record.name_erase, Record.signature_erase]
    rfl
  | noFields r given =>
    change r.erase.name ++ _ ++ given.render ++ _ ++ r.erase.signature = _
    rw [Record.name_erase, Record.signature_erase]
    rfl
  | unexpectedFields r fields =>
    change r.erase.name ++ _ ++ Names.braceList fields ++ _ ++ r.erase.signature = _
    rw [Record.name_erase, Record.signature_erase]
    rfl
  | missingFields r fields =>
    change r.erase.name ++ _ ++ Names.braceList fields ++ _ ++ r.erase.signature = _
    rw [Record.name_erase, Record.signature_erase]
    rfl
  | fieldValue r field type given =>
    change mismatch r.erase field type.erase.name given ++ _ ++ r.erase.signature = _
    rw [mismatch_erase, FieldType.name_erase, Record.signature_erase]
    rfl
  | elementValue r field type given index item =>
    change mismatch r.erase field (FieldType.listOf type).erase.name given ++ _ ++ toString index ++
      _ ++ item.described ++ _ ++ type.erase.name ++ _ ++ r.erase.signature = _
    rw [mismatch_erase, FieldType.name_erase, ElementType.name_erase, Record.signature_erase]
    rfl

namespace Record

variable (r : Record)

theorem firstMisfit?_erase (type : ElementType) (index : Nat) (items : List Value) :
    firstMisfit? type.erase index items = firstMisfit? type index items := by
  induction items generalizing index with
  | nil => rfl
  | cons item rest ih => simp only [firstMisfit?, ElementType.admits_erase, ih]

theorem misfit_erase (field : String) (type : FieldType) (v : Value) :
    r.erase.misfit field type.erase v = (r.misfit field type v).erase := by
  unfold misfit
  cases type with
  | single element => rfl
  | listOf element =>
    cases v with
    | list items =>
      simp only [FieldType.erase, firstMisfit?_erase]
      split <;> rfl
    | _ => rfl

theorem outcome_checkFields_erase (fields : Keyed Value) (names : List String) :
    outcome (r.erase.checkFields fields names) = outcome (r.checkFields fields names) := by
  induction names with
  | nil => rfl
  | cons name rest ih =>
    simp only [checkFields, fieldType?_erase]
    cases r.fieldType? name with
    | none => exact ih
    | some type =>
      cases Keyed.find? name fields with
      | none => exact ih
      | some v =>
        simp only [Option.map_some, FieldType.admits_erase, misfit_erase]
        split
        · exact ih
        · exact outcome_error (ShapeFault.message_erase _)

theorem outcome_of_erase (v : Value) : outcome (r.erase.of v) = outcome (r.of v) := by
  unfold of
  split
  · exact outcome_error (ShapeFault.message_erase (.absent r))
  · exact outcome_error (ShapeFault.message_erase (.absent r))
  · -- The fields are compared by their keys, and then each content with its type.
    rename_i first rest
    have hfields := r.outcome_checkFields_erase (first :: rest)
      (Names.sorted (Keyed.keys r.fields))
    simp only [keys_erase, name_erase]
    split_ifs
    · exact outcome_error (ShapeFault.message_erase (.unexpectedFields r _))
    · exact outcome_error (ShapeFault.message_erase (.missingFields r _))
    · generalize r.erase.checkFields _ _ = erased at hfields ⊢
      generalize r.checkFields _ _ = checked at hfields ⊢
      cases erased with
      | error f =>
        cases checked with
        | error g => exact outcome_error (Except.error.inj hfields)
        | ok => cases hfields
      | ok =>
        cases checked with
        | error g => cases hfields
        | ok => rfl
  · exact outcome_error (ShapeFault.message_erase (.noFields r _))

end Record

mutual

theorem ElementType.outcome_lift_erase (type : ElementType) (j : Json) :
    outcome (type.erase.lift j) = outcome (type.lift j) := by
  match type with
  | .primitive p => rfl
  | .user d => exact d.outcome_lift_erase j

theorem Definition.outcome_lift_erase (d : Definition) (j : Json) :
    outcome (d.erase.lift j) = outcome (d.lift j) := by
  match d, j with
  | .union u, j => exact u.outcome_lift_erase j
  | .record r, .object entries => exact r.outcome_lift_erase (.object entries)
  | .record r, .null => rfl
  | .record r, .bool _ => rfl
  | .record r, .number _ => rfl
  | .record r, .string _ => rfl
  | .record r, .array _ => rfl

theorem Record.outcome_lift_erase (r : Record) (j : Json) :
    outcome (r.erase.lift j) = outcome (r.lift j) := by
  match r with
  | ⟨id, name, keys, types, lensTable, inStep⟩ =>
    have hof := Record.outcome_of_erase ⟨id, name, keys, types, lensTable, inStep⟩
    rw [Record.erase] at hof ⊢
    cases j with
    | object entries =>
      simp only [Record.lift, outcome_bind, outcome_mapM,
        types.outcome_lift_erase, hof]
    | _ =>
      simp only [Record.lift]
      exact hof _

theorem FieldType.outcome_lift_erase (type : FieldType) (j : Json) :
    outcome (type.erase.lift j) = outcome (type.lift j) := by
  match type with
  | .single element => exact element.outcome_lift_erase j
  | .listOf element =>
    cases j with
    | array items =>
      simp only [FieldType.erase, FieldType.lift, outcome_map, outcome_mapM,
        element.outcome_lift_erase]
    | _ => rfl

theorem FieldTable.outcome_lift_erase {keys : List String} (table : FieldTable keys)
    (key : String) (j : Json) : outcome (table.erase.lift key j) = outcome (table.lift key j) := by
  match table with
  | .nil => rfl
  | .cons field type rest =>
    simp only [FieldTable.erase, FieldTable.lift]
    split
    · exact type.outcome_lift_erase j
    · exact rest.outcome_lift_erase key j

end

end TaggedData
