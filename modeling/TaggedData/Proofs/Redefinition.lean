import TaggedData.Proofs.Conformance
import TaggedData.Proofs.Erasure
import TaggedData.Record.Lens

/-!
# Defining a record again

The fields of a record can be written back as the values that declare their types, and each
value declares just the type that it is written for. So the record has a descriptor of its own,
and what is defined from that is the same record but for its identity, which no result and no
message shows.

That there are no lists of lists is not a matter of how field types are represented: reading a
value and making a list never nest two lists, also where the type would allow for it.
-/

namespace TaggedData

/-- Field types with lists of lists, to any depth. -/
inductive NestedType where
  | primitive (p : Primitive)
  | user (d : Definition)
  | listOf (inner : NestedType)

namespace NestedType

def scalar? : Value → Option NestedType
  | .primitive p => some (.primitive p)
  | v => v.definition?.map .user

def ofValue? : Value → Option NestedType
  | .list [element] => (scalar? element).map .listOf
  | v => scalar? v

def toValue : NestedType → Value
  | .primitive p => .primitive p
  | .user d => .definition d
  | .listOf inner => .list [inner.toValue]

def list : NestedType → NestedType
  | .listOf inner => .listOf inner
  | type => .listOf type

theorem list_list (type : NestedType) : type.list.list = type.list := by
  cases type <;> rfl

end NestedType

def ElementType.nested : ElementType → NestedType
  | .primitive p => .primitive p
  | .user d => .user d

def FieldType.nested : FieldType → NestedType
  | .single element => element.nested
  | .listOf element => .listOf element.nested

theorem ElementType.toValue_nested (element : ElementType) :
    element.nested.toValue = element.toValue := by
  cases element <;> rfl

theorem FieldType.toValue_nested (type : FieldType) : type.nested.toValue = type.toValue := by
  cases type with
  | single element => exact element.toValue_nested
  | listOf element => simp only [nested, NestedType.toValue, toValue, element.toValue_nested]

theorem FieldType.list_nested (type : FieldType) : type.nested.list = type.list.nested := by
  cases type with
  | single element => cases element <;> rfl
  | listOf element => rfl

theorem FieldType.nested_ne_listOf_listOf (type : FieldType) (inner : NestedType) :
    type.nested ≠ .listOf (.listOf inner) := by
  cases type with
  | single element => cases element <;> simp [nested, ElementType.nested]
  | listOf element => cases element <;> simp [nested, ElementType.nested]

theorem NestedType.scalar?_eq (v : Value) :
    scalar? v = (ElementType.ofValue? v).map ElementType.nested := by
  cases v with
  | definition d =>
    simp only [scalar?, ElementType.ofValue?, Option.map_map]
    rfl
  | _ => rfl

/-- Also where lists could be nested, a value declares the field type that it does declare. -/
theorem NestedType.ofValue?_eq (v : Value) :
    ofValue? v = (FieldType.ofValue? v).map FieldType.nested := by
  cases v with
  | list items =>
    match items with
    | [] => rfl
    | [element] =>
      simp only [ofValue?, FieldType.ofValue?, scalar?_eq, Option.map_map]
      rfl
    | _ :: _ :: _ => rfl
  | _ =>
    simp only [ofValue?, FieldType.ofValue?, scalar?_eq, Option.map_map]
    rfl

/-- The value that a type is written as declares it. -/
def FieldType.Readable (type : FieldType) : Prop :=
  FieldType.ofValue? type.toValue = some type

theorem FieldType.readable_of_ofValue? {v : Value} {type : FieldType}
    (h : ofValue? v = some type) : type.Readable := by
  rw [Readable, ← eq_toValue h, h]

theorem FieldType.Readable.list {type : FieldType} (h : type.Readable) : type.list.Readable := by
  cases type with
  | listOf element => exact h
  | single element =>
    have helement : ElementType.ofValue? element.toValue = some element := by
      cases element with
      | primitive p => rfl
      | user d => simpa [Readable, toValue, ElementType.toValue, ofValue?] using h
    simp only [Readable, FieldType.list, toValue, ofValue?, helement, Option.map_some]

namespace Record

/-- The types that come up around a record: those of its fields, those that values declare, and
lists of these. -/
inductive Yields (r : Record) : NestedType → Prop
  | field {name type} (declared : (name, type) ∈ r.fields) : Yields r type.nested
  | value {v type} (declares : NestedType.ofValue? v = some type) : Yields r type
  | list {type} (element : Yields r type) : Yields r type.list

/-- A field is declared by the value that its type is written as. -/
theorem declares_toValue {id : Nat} {descriptor : Value} {r : Record}
    (h : define id descriptor = .ok r) {name : String} {type : FieldType}
    (hfield : (name, type) ∈ r.fields) : Declares (name, type.toValue) (name, type) := by
  obtain ⟨fields, shape, -, -, -, -, -, -, -, hdeclares⟩ := define_eq_ok_iff.mp h
  obtain ⟨entry, -, hentry⟩ := exists_of_forall₂ hdeclares hfield
  exact ⟨rfl, hentry.name_ne, FieldType.readable_of_ofValue? hentry.type⟩

theorem Yields.exists_readable {id : Nat} {descriptor : Value} {r : Record}
    (h : define id descriptor = .ok r) {t : NestedType} (ht : r.Yields t) :
    ∃ type : FieldType, t = type.nested ∧ type.Readable := by
  induction ht with
  | field declared => exact ⟨_, rfl, (declares_toValue h declared).type⟩
  | value declares =>
    rw [NestedType.ofValue?_eq, Option.map_eq_some_iff] at declares
    obtain ⟨type, htype, rfl⟩ := declares
    exact ⟨type, rfl, FieldType.readable_of_ofValue? htype⟩
  | list _ ih =>
    obtain ⟨type, rfl, htype⟩ := ih
    exact ⟨type.list, type.list_nested, htype.list⟩

def descriptor (r : Record) : Value :=
  describe r.name (r.fields.map fun (name, type) => (name, type.toValue))

theorem define_descriptor {id : Nat} {d : Value} {r : Record} (h : define id d = .ok r)
    (id' : Nat) : define id' r.descriptor = .ok (.ofTypes id' r.name r.fields) := by
  obtain ⟨-, -, -, -, hname, hcapital, -⟩ := define_eq_ok_iff.mp h
  refine define_eq_ok_iff.mpr ⟨_, _, rfl, rfl, hname, hcapital, rfl, ?_, rfl, ?_⟩
  · simpa using fields_ne_of_define h
  · rw [List.forall₂_map_left_iff, fields_ofTypes, List.forall₂_same]
    rintro ⟨name, type⟩ hfield
    exact declares_toValue h hfield

/-- Records that cannot be told apart, but for their identities. -/
structure Alike (r s : Record) : Prop where
  name : s.name = r.name
  fields : s.fields = r.fields
  lenses : s.lenses = r.lenses
  of : ∀ v, outcome (s.of v) = outcome (r.of v)
  is : ∀ v, (Definition.record s).is v = (Definition.record r).is v
  signature : s.signature = r.signature
  lift : ∀ j, outcome (s.lift j) = outcome (r.lift j)

theorem alike_of_fields_eq {r s : Record} (hname : s.name = r.name) (hfields : s.fields = r.fields) :
    r.Alike s := by
  have herase : s.erase = r.erase := by
    rw [erase_eq, erase_eq, hname, hfields]
  refine ⟨hname, hfields, ?_, ?_, ?_, ?_, ?_⟩
  · rw [lenses_eq, lenses_eq, hname, hfields]
  · intro v
    rw [← outcome_of_erase, herase, outcome_of_erase]
  · intro v
    simp only [Definition.is, Definition.name, hname]
  · rw [signature, signature, hname, hfields]
  · intro j
    rw [← outcome_lift_erase, herase, outcome_lift_erase]

/-- The types of a record and the values that declare them determine each other, and so do a
record and its descriptor. The first two parts are what field types are among the nested ones. -/
theorem redefinition {id : Nat} {d : Value} {r : Record} (h : define id d = .ok r) :
    (∀ v, NestedType.ofValue? v = (FieldType.ofValue? v).map FieldType.nested) ∧
    (∀ type : FieldType,
      type.nested.toValue = type.toValue ∧ type.nested.list = type.list.nested) ∧
    (∀ t, r.Yields t → (∀ inner, t ≠ .listOf (.listOf inner)) ∧
      NestedType.ofValue? t.toValue = some t) ∧
    (∀ v t, NestedType.ofValue? v = some t → t.toValue = v) ∧
    (∀ t : NestedType, t.list.list = t.list) ∧
    ∀ id', ∃ s, define id' r.descriptor = .ok s ∧ s.id = id' ∧ r.Alike s := by
  refine ⟨NestedType.ofValue?_eq, fun type => ⟨type.toValue_nested, type.list_nested⟩, ?_, ?_,
    NestedType.list_list, ?_⟩
  · intro t ht
    obtain ⟨type, rfl, htype⟩ := ht.exists_readable h
    refine ⟨type.nested_ne_listOf_listOf, ?_⟩
    rw [type.toValue_nested, NestedType.ofValue?_eq, htype, Option.map_some]
  · intro v t ht
    rw [NestedType.ofValue?_eq, Option.map_eq_some_iff] at ht
    obtain ⟨type, htype, rfl⟩ := ht
    rw [type.toValue_nested, FieldType.eq_toValue htype]
  · intro id'
    exact ⟨_, define_descriptor h id', rfl, alike_of_fields_eq rfl (fields_ofTypes ..)⟩

theorem redefinition_team :
    define 1 (describe "Team" [("members", .list [.definition (.record person)])]) = .ok team ∧
      team.Yields (.listOf (.user (.record person))) ∧
      NestedType.ofValue? (.list [.definition (.record person)]) =
        some (.listOf (.user (.record person))) ∧
      ∃ s, define 2 team.descriptor = .ok s ∧ s.id = 2 ∧ team.Alike s := by
  have hdefined :
      define 1 (describe "Team" [("members", .list [.definition (.record person)])]) = .ok team :=
    rfl
  obtain ⟨-, -, hyields, -, -, hagain⟩ := redefinition hdefined
  have hfield : ("members", FieldType.listOf (.user (.record person))) ∈ team.fields :=
    List.mem_cons_self
  have hmembers : team.Yields (.listOf (.user (.record person))) := .field hfield
  exact ⟨hdefined, hmembers, (hyields _ hmembers).2, hagain 2⟩

end Record
end TaggedData
