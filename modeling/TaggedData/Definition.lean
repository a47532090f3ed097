import TaggedData.Primitive

/-!
# Definitions of types

A definition is a union, given by its constructors, or a record, given by its fields.
The type of a field is a primitive, another definition, or a list of one of these, so a
definition holds the definitions that it refers to and there are no cycles.

Definitions are told apart by identity. Whoever defines a type gives it a number that
no other definition has, and equality of definitions compares these numbers along with
everything else.
-/

namespace TaggedData

/-- A constructor of a union. The union and the label identify it. -/
structure Constructor where
  typeId : Nat
  typeName : String
  label : String
  arity : Nat
  deriving DecidableEq, Repr

structure Union where
  id : Nat
  name : String
  constructors : List Constructor
  deriving DecidableEq, Repr

structure Lens where
  /-- The name of the record. -/
  owner : String
  field : String
  deriving DecidableEq, Repr

/-- One lens for every key of a record, under its key. -/
def Lens.table (owner : String) (keys : List String) : List (String × Lens) :=
  keys.map fun key => (key, ⟨owner, key⟩)

mutual

inductive ElementType where
  | primitive (p : Primitive)
  | user (d : Definition)

inductive Definition where
  | union (u : Union)
  | record (r : Record)

structure Record where
  id : Nat
  name : String
  /-- In the order of declaration. -/
  keys : List String
  types : FieldTable keys
  lensTable : List (String × Lens)
  inStep : lensTable = Lens.table name keys

/-- The type of a field. There are no lists of lists. -/
inductive FieldType where
  | single (element : ElementType)
  | listOf (element : ElementType)

/-- A type for every key. -/
inductive FieldTable : List String → Type where
  | nil : FieldTable []
  | cons {keys : List String} (key : String) (type : FieldType) (rest : FieldTable keys) :
    FieldTable (key :: keys)

end

namespace FieldTable

def toList : {keys : List String} → FieldTable keys → List (String × FieldType)
  | _, .nil => []
  | _, .cons key type rest => (key, type) :: rest.toList

def ofList : (fields : List (String × FieldType)) → FieldTable (fields.map Prod.fst)
  | [] => .nil
  | (key, type) :: rest => .cons key type (ofList rest)

@[simp] theorem toList_ofList (fields : List (String × FieldType)) :
    (ofList fields).toList = fields := by
  induction fields with
  | nil => rfl
  | cons entry rest ih => simp only [ofList, toList, ih]

theorem map_fst_toList {keys : List String} (table : FieldTable keys) :
    table.toList.map Prod.fst = keys := by
  match table with
  | .nil => rfl
  | .cons key type rest => simp only [toList, List.map_cons, rest.map_fst_toList]

theorem exists_ofList {keys : List String} (table : FieldTable keys) :
    ∃ (fields : List (String × FieldType)) (h : fields.map Prod.fst = keys),
      h ▸ ofList fields = table := by
  match table with
  | .nil => exact ⟨[], rfl, rfl⟩
  | .cons key type rest =>
    obtain ⟨fields, rfl, rfl⟩ := rest.exists_ofList
    exact ⟨(key, type) :: fields, rfl, rfl⟩

end FieldTable

namespace Record

def fields (r : Record) : List (String × FieldType) :=
  r.types.toList

/-- The record of some fields, with the lenses for them. -/
def ofTypes (id : Nat) (name : String) (fields : List (String × FieldType)) : Record where
  id := id
  name := name
  keys := fields.map Prod.fst
  types := .ofList fields
  lensTable := Lens.table name (fields.map Prod.fst)
  inStep := rfl

section OfTypes

variable (id : Nat) (name : String) (types : List (String × FieldType))

@[simp] theorem id_ofTypes : (ofTypes id name types).id = id := rfl

@[simp] theorem name_ofTypes : (ofTypes id name types).name = name := rfl

@[simp] theorem fields_ofTypes : (ofTypes id name types).fields = types :=
  FieldTable.toList_ofList types

end OfTypes

theorem keys_eq (r : Record) : r.keys = r.fields.map Prod.fst :=
  (r.types.map_fst_toList).symm

/-- Every record is the record of its fields. -/
@[elab_as_elim, cases_eliminator]
theorem casesOfTypes {motive : Record → Prop}
    (ofTypes : ∀ id name fields, motive (.ofTypes id name fields)) (r : Record) : motive r := by
  obtain ⟨id, name, keys, table, _, rfl⟩ := r
  obtain ⟨fields, rfl, rfl⟩ := table.exists_ofList
  exact ofTypes id name fields

theorem ofTypes_eta (r : Record) : ofTypes r.id r.name r.fields = r := by
  cases r with
  | ofTypes id name fields => rw [fields_ofTypes, id_ofTypes, name_ofTypes]

theorem eq_of_fields {r s : Record} (hid : r.id = s.id) (hname : r.name = s.name)
    (hfields : r.fields = s.fields) : r = s := by
  rw [← r.ofTypes_eta, ← s.ofTypes_eta, hid, hname, hfields]

end Record

mutual

def ElementType.same : ElementType → ElementType → Bool
  | .primitive p, .primitive q => p == q
  | .user d, .user e => d.same e
  | _, _ => false

def Definition.same : Definition → Definition → Bool
  | .union u, .union v => u == v
  | .record r, .record s => r.same s
  | _, _ => false

/-- The lenses are the same if the names are. -/
def Record.same : Record → Record → Bool
  | ⟨id, name, _, types, _, _⟩, ⟨id', name', _, types', _, _⟩ =>
    id == id' && name == name' && types.same types'

def FieldType.same : FieldType → FieldType → Bool
  | .single s, .single t => s.same t
  | .listOf s, .listOf t => s.same t
  | _, _ => false

def FieldTable.same : {keys keys' : List String} → FieldTable keys → FieldTable keys' → Bool
  | _, _, .nil, .nil => true
  | _, _, .cons key type rest, .cons key' type' rest' =>
    key == key' && type.same type' && rest.same rest'
  | _, _, _, _ => false

end

mutual

theorem ElementType.same_iff : ∀ s t : ElementType, s.same t = true ↔ s = t
  | .primitive p, .primitive q => by simp [ElementType.same]
  | .user d, .user e => by simp [ElementType.same, Definition.same_iff d e]
  | .primitive _, .user _ => by simp [ElementType.same]
  | .user _, .primitive _ => by simp [ElementType.same]

theorem Definition.same_iff : ∀ d e : Definition, d.same e = true ↔ d = e
  | .union u, .union v => by simp [Definition.same]
  | .record r, .record s => by simp [Definition.same, Record.same_iff r s]
  | .union _, .record _ => by simp [Definition.same]
  | .record _, .union _ => by simp [Definition.same]

theorem Record.same_iff : ∀ r s : Record, r.same s = true ↔ r = s
  | ⟨id, name, keys, types, _, rfl⟩, ⟨id', name', keys', types', _, rfl⟩ => by
    simp only [Record.same, Bool.and_eq_true, beq_iff_eq, FieldTable.same_iff types types']
    constructor
    · rintro ⟨⟨rfl, rfl⟩, rfl, htypes⟩
      cases htypes
      rfl
    · intro h
      cases h
      exact ⟨⟨rfl, rfl⟩, rfl, HEq.rfl⟩

theorem FieldType.same_iff : ∀ s t : FieldType, s.same t = true ↔ s = t
  | .single s, .single t => by simp [FieldType.same, ElementType.same_iff s t]
  | .listOf s, .listOf t => by simp [FieldType.same, ElementType.same_iff s t]
  | .single _, .listOf _ => by simp [FieldType.same]
  | .listOf _, .single _ => by simp [FieldType.same]

theorem FieldTable.same_iff : ∀ {keys keys' : List String} (xs : FieldTable keys)
    (ys : FieldTable keys'), xs.same ys = true ↔ keys = keys' ∧ xs ≍ ys
  | _, _, .nil, .nil => by simp [FieldTable.same]
  | _, _, .nil, .cons .. => by simp [FieldTable.same]
  | _, _, .cons .., .nil => by simp [FieldTable.same]
  | _, _, .cons key type rest, .cons key' type' rest' => by
    simp only [FieldTable.same, Bool.and_eq_true, beq_iff_eq, FieldType.same_iff type type',
      FieldTable.same_iff rest rest', List.cons.injEq]
    constructor
    · rintro ⟨⟨rfl, rfl⟩, rfl, hrest⟩
      cases hrest
      exact ⟨⟨rfl, rfl⟩, HEq.rfl⟩
    · rintro ⟨⟨rfl, rfl⟩, h⟩
      cases h
      exact ⟨⟨rfl, rfl⟩, rfl, HEq.rfl⟩

end

instance : DecidableEq Definition := fun d e =>
  decidable_of_iff (d.same e = true) (Definition.same_iff d e)

instance : DecidableEq Record := fun r s =>
  decidable_of_iff (r.same s = true) (Record.same_iff r s)

instance : DecidableEq FieldType := fun s t =>
  decidable_of_iff (s.same t = true) (FieldType.same_iff s t)

namespace Union

def find? (u : Union) (label : String) : Option Constructor :=
  u.constructors.find? fun c => c.label == label

def labels (u : Union) : List String :=
  u.constructors.map (·.label)

end Union

namespace FieldType

/-- A list of a type; a list of lists is flattened to a list. -/
def list : FieldType → FieldType
  | .single element => .listOf element
  | .listOf element => .listOf element

end FieldType
end TaggedData
