import TaggedData.Proofs.Blame
import TaggedData.Proofs.Registration

/-!
# Reported names

A refusal names the type that was expected and the type of what was given. The two names come
from two readings of types, neither of which asks whether the value is admitted. They differ
except for the values that mimic the expected type, and these are known: `null` for an object,
a value of a type that was made elsewhere under the same name, and what meets a type that is
named after what it meets.
-/

namespace TaggedData

theorem Primitive.name_injective {p q : Primitive} (h : p.name = q.name) : p = q := by
  have hp : ofName? q.name = some p := ofName?_eq_some_iff.mpr h
  rwa [ofName?_eq_some_iff.mpr rfl, Option.some.injEq, eq_comm] at hp

theorem Names.ne_bracketed {name : String} (h : name.toList.head? ≠ some '[') (text : String) :
    name ≠ "[" ++ text ++ "]" := by
  rintro rfl
  simp at h

theorem Primitive.name_ne_bracketed (p : Primitive) (text : String) :
    p.name ≠ "[" ++ text ++ "]" :=
  Names.ne_bracketed (by cases p <;> decide) text

theorem Primitive.comma_notMem_name (p : Primitive) : ',' ∉ p.name.toList := by
  cases p <;> decide

theorem Primitive.name_ne_of_ofName?_eq_none {name : String} (h : ofName? name = none)
    (p : Primitive) : p.name ≠ name := by
  intro hname
  rw [ofName?_eq_some_iff.mpr hname] at h
  cases h

theorem Names.comma_mem_commaSeparated (first second : String) (rest : List String) :
    ',' ∈ (commaSeparated (first :: second :: rest)).toList := by
  simp [commaSeparated, String.intercalate_cons_cons]

/-- The forms that the reported type name of a value can have. -/
inductive Value.Named : Value → String → Prop
  | nil : Named .nil "Undefined"
  | null : Named .null "Object"
  | member (p : Primitive) {v : Value} (admitted : p.admits v = true) : Named v p.name
  | list (items : List Value) :
      Named (.list items) ("[" ++ Names.commaSeparated (inferredNames items) ++ "]")
  | tag {typeName label : String} {form : Form} {payload : Value} (given : payload ≠ .nil) :
      Named (.tagged typeName label form payload) typeName

theorem Value.isNil_eq_false {v : Value} (h : v ≠ .nil) : v.isNil = false := by
  cases v <;> first | rfl | exact absurd rfl h

theorem Value.inferredName_tagged (typeName label : String) (form : Form) {payload : Value}
    (given : payload ≠ .nil) : (tagged typeName label form payload).inferredName = typeName := by
  simp [inferredName, isNil_eq_false given]

theorem Value.inferredName_tagged_nil (typeName label : String) (form : Form) :
    (tagged typeName label form .nil).inferredName = Primitive.object.name := by
  simp only [inferredName, isNil, ↓reduceIte, kind]
  rfl

theorem Value.inferredName_list (items : List Value) :
    (list items).inferredName = "[" ++ Names.commaSeparated (inferredNames items) ++ "]" :=
  rfl

theorem Value.inferredName_single {v : Value} (notList : v.isList = false)
    (notTagged : v.isTagged = false) : v.inferredName = Text.capitalize v.kind := by
  cases v with
  | list => cases notList
  | tagged => cases notTagged
  | _ => simp only [inferredName]

theorem Value.Named.of_admits {v : Value} (p : Primitive) (admitted : p.admits v = true)
    (notList : v.isList = false) (notTagged : v.isTagged = false)
    (name : Text.capitalize v.kind = p.name) : v.Named v.inferredName := by
  rw [inferredName_single notList notTagged, name]
  exact .member p admitted

theorem Value.named (v : Value) : v.Named v.inferredName := by
  have hboolean : Text.capitalize "boolean" = Primitive.boolean.name := rfl
  have hnumber : Text.capitalize "number" = Primitive.number.name := rfl
  have hstring : Text.capitalize "string" = Primitive.string.name := rfl
  have hsymbol : Text.capitalize "symbol" = Primitive.symbol.name := rfl
  have hobject : Text.capitalize "object" = Primitive.object.name := rfl
  have hfunction : Text.capitalize "function" = Primitive.function.name := rfl
  cases v with
  | nil => exact .nil
  | null => exact .null
  | bool b => exact .of_admits .boolean rfl rfl rfl hboolean
  | number x => exact .of_admits .number rfl rfl rfl hnumber
  | string text => exact .of_admits .string rfl rfl rfl hstring
  | symbol s => exact .of_admits .symbol rfl rfl rfl hsymbol
  | list items => exact .list items
  | object fields => exact .of_admits .object rfl rfl rfl hobject
  | function f => exact .of_admits .function rfl rfl rfl hfunction
  | primitive p => exact .of_admits .function rfl rfl rfl hfunction
  | definition d => exact .of_admits .object rfl rfl rfl hobject
  | constructor c => exact .of_admits .function rfl rfl rfl hfunction
  | tagged typeName label form payload =>
    by_cases h : payload = .nil
    · subst h
      rw [inferredName_tagged_nil]
      exact .member .object rfl
    · rw [inferredName_tagged typeName label form h]
      exact .tag h

/-- The values outside a type that are reported under its name. -/
inductive ElementType.Mimics : ElementType → Value → Prop
  | null : Mimics (.primitive .object) .null
  /-- A value of a type that is named like a primitive type. No schema holds such a type. -/
  | foreign {p : Primitive} {label : String} {form : Form} {payload : Value} (other : p ≠ .object)
      (given : payload ≠ .nil) : Mimics (.primitive p) (.tagged p.name label form payload)
  | nil {d : Definition} (name : d.name = "Undefined") : Mimics (.user d) .nil
  | list {d : Definition} {items : List Value}
      (name : d.name = "[" ++ Names.commaSeparated (Value.inferredNames items) ++ "]") :
      Mimics (.user d) (.list items)

inductive FieldType.Mimics : FieldType → Value → Prop
  | single {element : ElementType} {v : Value} (mimics : element.Mimics v) :
      Mimics (.single element) v
  /-- A value of a type that is named like the list type. -/
  | foreign {element : ElementType} {label : String} {form : Form} {payload : Value}
      (given : payload ≠ .nil) :
      Mimics (.listOf element) (.tagged ("[" ++ element.name ++ "]") label form payload)
  | item {element : ElementType} {v : Value} (mimics : element.Mimics v) :
      Mimics (.listOf element) (.list [v])
  | items {d : Definition} {first second : Value} {rest : List Value}
      (name : d.name = Names.commaSeparated (Value.inferredNames (first :: second :: rest))) :
      Mimics (.listOf (.user d)) (.list (first :: second :: rest))

theorem Primitive.inferredName_eq_iff {p : Primitive} {v : Value} (refused : p.admits v = false) :
    v.inferredName = p.name ↔ (ElementType.primitive p).Mimics v := by
  constructor
  · intro h
    obtain hnamed : v.Named p.name := h ▸ v.named
    generalize hname : p.name = name at hnamed
    cases hnamed with
    | nil => exact absurd hname (by cases p <;> decide)
    | null =>
      obtain rfl : p = .object := name_injective hname
      exact .null
    | member q admitted =>
      rw [name_injective hname, admitted] at refused
      cases refused
    | list items => exact absurd hname (p.name_ne_bracketed _)
    | tag given =>
      subst hname
      refine .foreign ?_ given
      rintro rfl
      cases refused
  · intro h
    cases h with
    | null => rfl
    | foreign other given => exact Value.inferredName_tagged _ _ _ given

theorem Definition.inferredName_eq_iff {d : Definition} {v : Value} (refused : d.is v = false)
    (free : Primitive.ofName? d.name = none) :
    v.inferredName = d.name ↔ (ElementType.user d).Mimics v := by
  constructor
  · intro h
    obtain hnamed : v.Named d.name := h ▸ v.named
    generalize hname : d.name = name at hnamed free
    cases hnamed with
    | nil => exact .nil hname
    | null => exact absurd rfl (Primitive.name_ne_of_ofName?_eq_none free .object)
    | member q admitted => exact absurd rfl (Primitive.name_ne_of_ofName?_eq_none free q)
    | list items => exact .list hname
    | tag given => simp [Definition.is, Value.tags, hname] at refused
  · intro h
    cases h with
    | nil name => exact name.symm
    | list name => exact name.symm

theorem ElementType.inferredName_eq_iff {type : ElementType} {v : Value}
    (refused : type.admits v = false)
    (free : ∀ d, type = .user d → Primitive.ofName? d.name = none) :
    v.inferredName = type.name ↔ type.Mimics v := by
  cases type with
  | primitive p => exact Primitive.inferredName_eq_iff refused
  | user d => exact Definition.inferredName_eq_iff refused (free d rfl)

/-- The names of several items have a comma between them, which no primitive type has. -/
theorem FieldType.mimics_of_commaSeparated {element : ElementType} {first second : Value}
    {rest : List Value}
    (name : element.name = Names.commaSeparated (Value.inferredNames (first :: second :: rest))) :
    (FieldType.listOf element).Mimics (.list (first :: second :: rest)) := by
  cases element with
  | primitive p =>
    refine absurd ?_ p.comma_notMem_name
    rw [show p.name = _ from name]
    exact Names.comma_mem_commaSeparated _ _ _
  | user d => exact .items name

theorem FieldType.inferredName_eq_iff {type : FieldType} {v : Value}
    (refused : type.admits v = false)
    (free : ∀ d, type.element = .user d → Primitive.ofName? d.name = none) :
    v.inferredName = type.name ↔ type.Mimics v := by
  cases type with
  | single element =>
    have helement := ElementType.inferredName_eq_iff refused free
    constructor
    · intro h
      exact .single (helement.mp h)
    · rintro ⟨mimics⟩
      exact helement.mpr mimics
  | listOf element =>
    constructor
    · intro h
      rw [FieldType.name] at h
      obtain hnamed : v.Named ("[" ++ element.name ++ "]") := h ▸ v.named
      -- Only tags and the names of lists can have brackets around them.
      generalize hname : "[" ++ element.name ++ "]" = name at hnamed
      cases hnamed with
      | nil => exact absurd hname.symm (Names.ne_bracketed (by decide) _)
      | null => exact absurd hname.symm (Names.ne_bracketed (by decide) _)
      | member p admitted => exact absurd hname.symm (p.name_ne_bracketed _)
      | tag given =>
        subst hname
        exact .foreign given
      | list items =>
        have hnames : element.name = Names.commaSeparated (Value.inferredNames items) := by
          simpa using hname
        rcases items with _ | ⟨item, _ | ⟨second, rest⟩⟩
        · cases refused
        · have hitem : element.admits item = false := by simpa [admits] using refused
          exact .item ((ElementType.inferredName_eq_iff hitem free).mp hnames.symm)
        · exact mimics_of_commaSeparated hnames
    · intro h
      cases h with
      | foreign given => exact Value.inferredName_tagged _ _ _ given
      | item mimics =>
        rename_i item
        have hitem : element.admits item = false := by simpa [admits] using refused
        have hname := (ElementType.inferredName_eq_iff hitem free).mpr mimics
        rw [Value.inferredName_list, FieldType.name, ← hname]
        simp [Value.inferredNames, Names.commaSeparated]
      | items name => rw [Value.inferredName_list, ← name, FieldType.name, ElementType.name]

namespace Record

variable {r : Record} {fields : Keyed Value}

theorem exists_refused_of_error
    (keys : ∀ name, name ∈ Keyed.keys fields ↔ name ∈ Keyed.keys r.fields) (nonempty : fields ≠ [])
    {f : Fault} (refused : r.of (.object fields) = .error f) :
    ∃ name type v, r.fieldType? name = some type ∧ Keyed.find? name fields = some v ∧
      type.admits v = false ∧ f = .shape (r.misfit name type v) := by
  have hunexpected : Names.missingFrom (Keyed.keys r.fields) (Keyed.keys fields) = [] :=
    Names.missingFrom_eq_nil_iff.mpr fun name => (keys name).mp
  have hmissing : Names.missingFrom (Keyed.keys fields) (Keyed.keys r.fields) = [] :=
    Names.missingFrom_eq_nil_iff.mpr fun name => (keys name).mpr
  rw [of_object_eq r nonempty, if_neg (not_not.mpr hunexpected), if_neg (not_not.mpr hmissing),
    map_eq_error] at refused
  obtain ⟨-, name, -, type, v, -, -, declared, given, hadmits, hf⟩ :=
    exists_split_of_checkFields refused
  exact ⟨name, type, v, declared, given, hadmits, hf⟩

/-- In a refusal for the value of a field the reported names differ, if no mimic of the expected
type was given. The types of the fields are taken from a schema that any operations have
built. -/
theorem reported_names {ops : List Registration} {outcomes : List (Except Fault Definition)}
    {s : Schema} (built : Schema.empty.attemptAll ops = (outcomes, s))
    (types : ∀ field type d, (field, type) ∈ r.fields → type.element = .user d →
      d ∈ s.definitions)
    (keys : ∀ name, name ∈ Keyed.keys fields ↔ name ∈ Keyed.keys r.fields)
    (nonempty : fields ≠ []) {f : Fault} (refused : r.of (.object fields) = .error f) :
    ∃ name type v, r.fieldType? name = some type ∧ Keyed.find? name fields = some v ∧
      type.admits v = false ∧ (v.inferredName = type.name ↔ type.Mimics v) ∧
      ((∀ element items, type = .listOf element → v ≠ .list items) ∧
          f.message = r.name ++ ".of: field " ++ name ++ " expected " ++ type.name ++
            " but got " ++ (v.render ++ " : " ++ v.inferredName) ++ ", in " ++ r.signature ∨
        ∃ element before item after, type = .listOf element ∧
          v = .list (before ++ item :: after) ∧ (∀ w ∈ before, element.admits w = true) ∧
          element.admits item = false ∧
          (item.inferredName = element.name ↔ element.Mimics item) ∧
          f.message = r.name ++ ".of: field " ++ name ++ " expected " ++ type.name ++
            " but got " ++ (v.render ++ " : " ++ v.inferredName) ++ "; element " ++
            toString before.length ++ " (" ++ (item.render ++ " : " ++ item.inferredName) ++
            ") is not a " ++ element.name ++ ", in " ++ r.signature) := by
  have hs : s.Consistent := by
    have h := Schema.consistent_empty.attemptAll ops
    rwa [built] at h
  obtain ⟨name, type, v, declared, given, hadmits, rfl⟩ :=
    exists_refused_of_error keys nonempty refused
  have hfree : ∀ d, type.element = .user d → Primitive.ofName? d.name = none := fun d hd =>
    hs.notPrimitive d (types name type d (Keyed.mem_of_find? declared) hd)
  refine ⟨name, type, v, declared, given, hadmits,
    FieldType.inferredName_eq_iff hadmits hfree, ?_⟩
  rcases misfit_cases (r := r) name hadmits with
    ⟨hlist, hmisfit⟩ | ⟨element, before, item, after, rfl, rfl, hbefore, hitem, hmisfit⟩
  · rw [hmisfit]
    exact .inl ⟨hlist, rfl⟩
  · rw [hmisfit]
    exact .inr ⟨element, before, item, after, rfl, rfl, hbefore, hitem,
      ElementType.inferredName_eq_iff hitem hfree, rfl⟩

/-- Neither the list of the second team nor the item in it that is blamed mimics what is
expected. -/
theorem reported_names_team :
    team.of (.object [("members", .list lineup)]) = .error (.shape lineupFault) ∧
      (Value.list lineup).inferredName ≠ "[Person]" ∧
      ∃ item ∈ lineup, (Definition.record person).is item = false ∧
        item.inferredName ≠ "Person" := by
  have hof : team.of (.object [("members", .list lineup)]) = .error (.shape lineupFault) := by
    cbv
  have htypes : ∀ field type d, (field, type) ∈ team.fields → type.element = .user d →
      d ∈ [Definition.record person, .record team] := by
    intro field type d hfield hd
    cases List.mem_singleton.mp hfield
    cases hd
    exact List.mem_cons_self
  obtain ⟨name, type, v, declared, given, hadmits, hnames, hmessage⟩ :=
    reported_names Schema.attemptAll_team htypes (by simp [team]) (List.cons_ne_nil _ _) hof
  obtain ⟨rfl, rfl⟩ : name = "members" ∧ type = .listOf (.user (.record person)) := by
    simpa [team] using Keyed.mem_of_find? declared
  obtain rfl : v = .list lineup := by simpa using Keyed.mem_of_find? given
  refine ⟨hof, ?_, ?_⟩
  · intro h
    have hmimics := hnames.mp h
    rw [lineup] at hmimics
    cases hmimics with
    | items name =>
      have hcomma : ',' ∈ "Person".toList := by
        rw [show "Person" = _ from name]
        exact Names.comma_mem_commaSeparated _ _ _
      exact absurd hcomma (by decide)
  · obtain ⟨hlist, -⟩ | ⟨element, before, item, after, htype, hv, -, hitem, hname, -⟩ := hmessage
    · exact absurd rfl (hlist _ lineup rfl)
    · cases htype
      refine ⟨item, by simp [Value.list.inj hv], hitem, ?_⟩
      intro h
      cases hname.mp h with
      | nil name => exact absurd name (by decide)
      | list name => exact absurd name (Names.ne_bracketed (by decide) _)

/-- A box for anything that the host keeps as an object. -/
def box : Record :=
  .ofTypes 0 "Box" [("value", .single (.primitive .object))]

/-- No object is `null`, but the host calls it one. -/
theorem reported_names_box_null :
    define 0 (describe "Box" [("value", .primitive .object)]) = .ok box ∧
      box.of (.object [("value", .null)]) =
        .error (.shape (.fieldValue box "value" (.single (.primitive .object)) .null)) ∧
      (ShapeFault.fieldValue box "value" (.single (.primitive .object)) .null).message =
        "Box.of: field value expected Object but got Nil : Object" ++
          ", in record Box \x7b value : Object \x7d" ∧
      Value.null.inferredName = (FieldType.single (.primitive .object)).name := by
  have hsignature : box.signature = "record Box \x7b value : Object \x7d" := by cbv
  refine ⟨rfl, by cbv, ?_, rfl⟩
  rw [ShapeFault.message, ShapeFault.mismatch, Value.described, hsignature]
  rfl

end Record
end TaggedData
