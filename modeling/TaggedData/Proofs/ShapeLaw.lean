import TaggedData.Proofs.Conformance

/-!
# The shape law

A keyed structure becomes a value of a record if it has the keys of the record and every
field holds a value of its type, and nothing else does. The value of the record carries the
name of the record in both tags and the structure itself as its payload, so the payload is
accepted again. Where the values of the fields are looked up, the keys have been compared,
and no lookup misses.
-/

namespace TaggedData

/-- What a field of the type may hold. A list is looked into item by item. -/
inductive FieldType.Holds : FieldType → Value → Prop
  | single {element : ElementType} {v} (admitted : element.admits v = true) :
      Holds (.single element) v
  | listOf {element : ElementType} {items}
      (admitted : ∀ item ∈ items, element.admits item = true) :
      Holds (.listOf element) (.list items)

theorem FieldType.admits_iff_holds {type : FieldType} {v : Value} :
    type.admits v = true ↔ type.Holds v := by
  cases type with
  | single element =>
    constructor
    · exact .single
    · rintro ⟨hadmits⟩
      exact hadmits
  | listOf element =>
    constructor
    · intro h
      cases v with
      | list items => exact .listOf (List.all_eq_true.mp h)
      | _ => cases h
    · intro h
      cases h with
      | listOf hadmits => exact List.all_eq_true.mpr hadmits

namespace Record

variable {r : Record} {fields : Keyed Value}

/-- The structure has the keys of the record, and every field holds a value of its type. -/
structure Fills (r : Record) (fields : Keyed Value) : Prop where
  keys : ∀ name, name ∈ Keyed.keys fields ↔ name ∈ Keyed.keys r.fields
  holds : ∀ name type, r.fieldType? name = some type →
    ∃ v, Keyed.find? name fields = some v ∧ type.Holds v

theorem accepts_iff_fills : r.Accepts fields ↔ r.Fills fields := by
  constructor
  · intro h
    refine ⟨h.keys, fun name type htype => ?_⟩
    have hname : name ∈ Keyed.keys r.fields := Keyed.find?_isSome_iff.mp ⟨type, htype⟩
    obtain ⟨v, hv⟩ := Keyed.find?_isSome_iff.mpr ((h.keys name).mpr hname)
    exact ⟨v, hv, FieldType.admits_iff_holds.mp (h.admitted name type v htype hv)⟩
  · intro h
    refine ⟨h.keys, fun name type v htype hv => ?_⟩
    obtain ⟨w, hw, hholds⟩ := h.holds name type htype
    cases hv.symm.trans hw
    exact FieldType.admits_iff_holds.mpr hholds

/-- The check of the fields if a lookup that misses ends it without a result. -/
def checkIndexed (r : Record) (fields : Keyed Value) : List String → Option (Except Fault Unit)
  | [] => some (.ok ())
  | name :: rest => do
    let type ← r.fieldType? name
    let v ← Keyed.find? name fields
    if type.admits v then checkIndexed r fields rest
    else some (.error (.shape (r.misfit name type v)))

def ofIndexed (r : Record) (v : Value) : Option (Except Fault Value) :=
  match v with
  | .nil | .null => some (.error (.shape (.absent r)))
  | .object (first :: rest) =>
    let fields : Keyed Value := first :: rest
    let declared := Keyed.keys r.fields
    let given := Keyed.keys fields
    let unexpected := Names.missingFrom declared given
    let missing := Names.missingFrom given declared
    if !unexpected.isEmpty then
      some (.error (.shape (.unexpectedFields r unexpected)))
    else if !missing.isEmpty then
      some (.error (.shape (.missingFields r missing)))
    else do
      match ← r.checkIndexed fields (Names.sorted declared) with
      | .error f => some (.error f)
      | .ok () => some (.ok (.tagged r.name r.name .record (.object fields)))
  | given => some (.error (.shape (.noFields r given)))

/-- A check of names that are declared and given misses nothing. -/
theorem checkIndexed_eq {names : List String} (declared : ∀ name ∈ names, name ∈ Keyed.keys r.fields)
    (given : ∀ name ∈ names, name ∈ Keyed.keys fields) :
    r.checkIndexed fields names = some (r.checkFields fields names) := by
  induction names with
  | nil => rfl
  | cons name rest ih =>
    obtain ⟨type, htype⟩ := Keyed.find?_isSome_iff.mpr (declared name List.mem_cons_self)
    obtain ⟨v, hv⟩ := Keyed.find?_isSome_iff.mpr (given name List.mem_cons_self)
    have htype : r.fieldType? name = some type := htype
    have hrest := ih (fun other h => declared other (List.mem_cons_of_mem _ h))
      (fun other h => given other (List.mem_cons_of_mem _ h))
    simp only [checkIndexed, checkFields, htype, hv, Option.bind_eq_bind, Option.bind_some]
    split
    · exact hrest
    · rfl

/-- By the time the fields are looked up, every declared name is known to be given. -/
theorem ofIndexed_eq (r : Record) (x : Value) : r.ofIndexed x = some (r.of x) := by
  cases x with
  | object fields =>
    cases fields with
    | nil => rfl
    | cons first rest =>
      simp only [ofIndexed, of, Bool.not_eq_true', List.isEmpty_eq_false_iff, ne_eq,
        Names.missingFrom_eq_nil_iff]
      split_ifs with hunexpected hmissing
      · rw [checkIndexed_eq (fun name h => Names.mem_sorted.mp h)
          (fun name h => hmissing name (Names.mem_sorted.mp h))]
        cases r.checkFields (first :: rest) (Names.sorted (Keyed.keys r.fields)) <;> rfl
      · rfl
      · rfl
  | _ => rfl

/-- What fills a record is accepted as it is, in its order, and can be given again. -/
theorem shape_law {id : Nat} {descriptor : Value} {r : Record}
    (defined : define id descriptor = .ok r) (x : Value) :
    ((∃ v, r.of x = .ok v) ↔ ∃ fields, x = .object fields ∧ r.Fills fields) ∧
    (∀ v, r.of x = .ok v → v = .tagged r.name r.name .record x ∧
      (Definition.record r).is v = true ∧
      ∀ payload, v.tags.payload = some payload → payload = x ∧ r.of payload = .ok v) ∧
    r.ofIndexed x = some (r.of x) := by
  refine ⟨⟨?_, ?_⟩, ?_, ofIndexed_eq r x⟩
  · rintro ⟨v, hv⟩
    obtain ⟨fields, rfl, -, haccepts, -⟩ := of_eq_ok_iff.mp hv
    exact ⟨fields, rfl, accepts_iff_fills.mp haccepts⟩
  · rintro ⟨fields, rfl, hfills⟩
    have hne : fields ≠ [] :=
      ne_nil_of_keys (fields_ne_of_define defined) fun name => (hfills.keys name).mpr
    exact ⟨_, of_object_eq_ok_iff.mpr ⟨hne, accepts_iff_fills.mpr hfills, rfl⟩⟩
  · intro v hv
    obtain ⟨fields, rfl, -, -, rfl⟩ := of_eq_ok_iff.mp hv
    refine ⟨rfl, is_instanceOf r fields, ?_⟩
    intro payload hpayload
    cases hpayload
    exact ⟨rfl, hv⟩

/-- A team has persons for members, and not their names. -/
theorem shape_law_team :
    define 1 (describe "Team" [("members", .list [.definition (.record person)])]) = .ok team ∧
      (∃ v, team.of (.object [("members", .list [person.instanceOf [("name", .string "Ann")]])]) =
        .ok v) ∧
      ¬ ∃ v, team.of (.object [("members", .list [.string "Ann"])]) = .ok v := by
  have hteam : define 1 (describe "Team" [("members", .list [.definition (.record person)])]) =
      .ok team := rfl
  refine ⟨hteam, (shape_law hteam _).1.mpr ⟨_, rfl, ?_, ?_⟩, fun h => ?_⟩
  · simp [team]
  · intro name type htype
    obtain ⟨rfl, rfl⟩ : name = "members" ∧ type = .listOf (.user (.record person)) := by
      simpa [team, fieldType?, Keyed.find?, eq_comm] using htype
    refine ⟨_, rfl, .listOf fun item hitem => ?_⟩
    rw [List.mem_singleton.mp hitem]
    exact is_instanceOf person _
  · obtain ⟨fields, hfields, hfills⟩ := (shape_law hteam _).1.mp h
    cases hfields
    obtain ⟨v, hv, hholds⟩ := hfills.holds "members" _ rfl
    cases hv
    cases hholds with
    | listOf hadmits => cases hadmits _ List.mem_cons_self

end Record
end TaggedData
