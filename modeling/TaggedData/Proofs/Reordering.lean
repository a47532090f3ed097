import Mathlib.Data.List.Zip
import TaggedData.Proofs.Conformance
import TaggedData.Proofs.Constructors

/-!
# Lifting and the order of keys

Two documents that differ in the order of keys are lifted alike, although lifting goes through
a document in its order and stops at the first entry that does not fit. The grammar of a record
looks entries up by their keys, so it has both documents or neither. What they denote keeps the
order of each of them, and values are compared without it.
-/

namespace TaggedData

namespace Json

/-- The documents differ in the order of keys at most, in objects at any depth. Arrays agree
item by item, and objects under every key. -/
inductive Reordered : Json → Json → Prop
  | same (j) : Reordered j j
  | array {items others : List Json} (length : items.length = others.length)
      (each : ∀ j k, (j, k) ∈ items.zip others → Reordered j k) :
      Reordered (.array items) (.array others)
  | object {fields others : Keyed Json}
      (keys : ∀ key, key ∈ Keyed.keys fields ↔ key ∈ Keyed.keys others)
      (each : ∀ key j k, (key, j) ∈ fields → (key, k) ∈ others → Reordered j k) :
      Reordered (.object fields) (.object others)

namespace Reordered

variable {j k : Json}

theorem symm (h : j.Reordered k) : k.Reordered j := by
  induction h with
  | same j => exact .same j
  | array length _ ih =>
    apply Reordered.array length.symm
    intro k j hmem
    apply ih j k
    rw [← List.zip_swap]
    exact List.mem_map_of_mem (f := Prod.swap) hmem
  | object keys _ ih =>
    apply Reordered.object
    · intro key
      exact (keys key).symm
    · intro key k j hk hj
      exact ih key j k hj hk

theorem exists_items {items : List Json} (h : (Json.array items).Reordered k) :
    ∃ others, k = .array others ∧ List.Forall₂ Reordered items others := by
  cases h with
  | same => exact ⟨items, rfl, List.forall₂_same.mpr fun j _ => .same j⟩
  | array length each => exact ⟨_, rfl, List.forall₂_iff_zip.mpr ⟨length, each _ _⟩⟩

theorem exists_fields {fields : Keyed Json} (hu : Keyed.Unique fields)
    (h : (Json.object fields).Reordered k) : ∃ others, k = .object others ∧
      (∀ key, key ∈ Keyed.keys fields ↔ key ∈ Keyed.keys others) ∧
      ∀ key i j, (key, i) ∈ fields → (key, j) ∈ others → i.Reordered j := by
  cases h with
  | same =>
    refine ⟨fields, rfl, fun _ => Iff.rfl, ?_⟩
    intro key i j hi hj
    cases hu.eq_of_mem hi hj
    exact .same i
  | object keys each => exact ⟨_, rfl, keys, each⟩

theorem exists_entry {key : String} (hk : k.Unique) (h : (Json.object [(key, j)]).Reordered k) :
    ∃ j', k = .object [(key, j')] ∧ j.Reordered j' := by
  have hu : Keyed.Unique [(key, j)] := List.nodup_singleton key
  obtain ⟨others, rfl, keys, each⟩ := h.exists_fields hu
  have hperm : [key].Perm (Keyed.keys others) :=
    (List.perm_ext_iff_of_nodup hu (unique_object.mp hk).1).mpr keys
  obtain ⟨⟨key', j'⟩, rfl, hkey⟩ := List.map_eq_singleton_iff.mp (List.perm_singleton.mp hperm.symm)
  cases hkey
  exact ⟨j', rfl, each _ j j' (List.mem_singleton_self _) (List.mem_singleton_self _)⟩

end Reordered
end Json

namespace Value

/-- The entries are matched by their keys, and items by their places. -/
theorem equals_ofJson_of_reordered {j k : Json} (hj : j.Unique) (hk : k.Unique)
    (h : j.Reordered k) : (ofJson j).equals (ofJson k) = true := by
  induction h with
  | same j => exact equals_ofJson_self j hj
  | @array items others length _ ih =>
    rw [ofJson_array, ofJson_array, equals_list_iff, EqualItems, List.forall₂_map_left_iff,
      List.forall₂_map_right_iff, List.forall₂_iff_zip]
    refine ⟨length, ?_⟩
    intro j k hmem
    obtain ⟨hj', hk'⟩ := List.of_mem_zip hmem
    exact ih j k hmem (Json.unique_array.mp hj j hj') (Json.unique_array.mp hk k hk')
  | @object fields others keys _ ih =>
    obtain ⟨hu, hentries⟩ := Json.unique_object.mp hj
    obtain ⟨hu', hentries'⟩ := Json.unique_object.mp hk
    rw [ofJson_object, ofJson_object]
    apply equals_object_of_entries
    · rwa [Keyed.Unique, keys_ofJson]
    · rwa [Keyed.Unique, keys_ofJson]
    · intro key
      rw [keys_ofJson, keys_ofJson]
      exact keys key
    · intro key v w hv hw
      obtain ⟨⟨_, j⟩, hmem, heq⟩ := List.mem_map.mp hv
      obtain ⟨⟨_, k⟩, hmem', heq'⟩ := List.mem_map.mp hw
      cases heq
      cases heq'
      exact ih key j k hmem hmem' (hentries _ hmem) (hentries' _ hmem')

end Value

/-- A primitive type looks at the outermost form of a value. -/
theorem Primitive.admits_of_reordered (p : Primitive) {j k : Json} (h : j.Reordered k) :
    p.admits (.ofJson j) = p.admits (.ofJson k) := by
  cases h with
  | same => rfl
  | array => cases p <;> rfl
  | object => cases p <;> rfl

/-- The reordered document fits as well, and denotes an equal value. -/
def ElementType.Stable (type : ElementType) : Prop :=
  ∀ j k, j.Unique → k.Unique → j.Reordered k → type.Fits j →
    type.Fits k ∧ (type.denote j).equals (type.denote k) = true

def FieldType.Stable (type : FieldType) : Prop :=
  ∀ j k, j.Unique → k.Unique → j.Reordered k → type.Fits j →
    type.Fits k ∧ (type.denote j).equals (type.denote k) = true

theorem ElementType.stable_primitive (p : Primitive) : (primitive p).Stable := by
  intro j k hj hk h hfits
  cases hfits with
  | primitive hadmitted =>
    rw [p.admits_of_reordered h] at hadmitted
    exact ⟨.primitive hadmitted, Value.equals_ofJson_of_reordered hj hk h⟩

namespace Union

variable {u : Union} {j k : Json}

theorem equalItems_argumentsOf (hj : j.Unique) (hk : k.Unique) (h : j.Reordered k) :
    Value.EqualItems (argumentsOf j) (argumentsOf k) := by
  have hequals := Value.equals_ofJson_of_reordered hj hk h
  by_cases harray : ∃ items, j = .array items
  · obtain ⟨items, rfl⟩ := harray
    obtain ⟨others, rfl, -⟩ := h.exists_items
    rw [Value.ofJson_array, Value.ofJson_array, Value.equals_list_iff] at hequals
    rwa [argumentsOf_array, argumentsOf_array]
  · rw [not_exists] at harray
    have harray' : ∀ others, k ≠ .array others := by
      rintro others rfl
      obtain ⟨items, rfl, -⟩ := h.symm.exists_items
      exact harray items rfl
    rw [argumentsOf_single harray, argumentsOf_single harray']
    exact .cons hequals .nil

theorem Fits.reordered (hk : k.Unique) (h : j.Reordered k) (hfits : u.Fits j) : u.Fits k := by
  cases hfits with
  | label mem arity =>
    cases h with
    | same => exact .label mem arity
  | arguments mem arity =>
    obtain ⟨argument, rfl, hargument⟩ := h.exists_entry hk
    obtain ⟨others, rfl, hitems⟩ := hargument.exists_items
    exact .arguments mem (arity.trans hitems.length_eq)
  | argument mem arity single =>
    obtain ⟨argument, rfl, hargument⟩ := h.exists_entry hk
    apply Fits.argument mem arity
    rintro others rfl
    obtain ⟨items, rfl, -⟩ := hargument.symm.exists_items
    exact single items rfl

/-- The arguments are compared one by one. -/
theorem equals_denote_object {label : String} (hj : j.Unique) (hk : k.Unique)
    (h : j.Reordered k) :
    (u.denote (.object [(label, j)])).equals (u.denote (.object [(label, k)])) = true := by
  have hitems := equalItems_argumentsOf hj hk h
  rw [denote_object, denote_object, hitems.length_eq]
  apply Value.equals_tagged_iff.mpr
  exact ⟨rfl, rfl, rfl, (Constructor.equals_payload_iff hitems.length_eq).mpr hitems⟩

theorem stable (u : Union) : (ElementType.user (.union u)).Stable := by
  intro j k hj hk h hfits
  cases hfits with
  | union hfits =>
    refine ⟨.union (hfits.reordered hk h), ?_⟩
    have hobject : ∀ label argument, j = .object [(label, argument)] →
        (u.denote j).equals (u.denote k) = true := by
      rintro label argument rfl
      obtain ⟨argument', rfl, hargument⟩ := h.exists_entry hk
      exact equals_denote_object ((Json.unique_object.mp hj).2 _ (List.mem_singleton_self _))
        ((Json.unique_object.mp hk).2 _ (List.mem_singleton_self _)) hargument
    cases hfits with
    | label mem arity =>
      cases h with
      | same => exact Value.equals_tagged_self rfl
    | arguments => exact hobject _ _ rfl
    | argument => exact hobject _ _ rfl

end Union

theorem FieldType.stable_of_element {type : FieldType}
    (h : ∀ d, type.element = .user d → (ElementType.user d).Stable) : type.Stable := by
  have helement : type.element.Stable := by
    cases he : type.element with
    | primitive p => exact ElementType.stable_primitive p
    | user d => exact h d he
  intro j k hj hk hreordered hfits
  cases hfits with
  | single hfits =>
    obtain ⟨hfits', hequals⟩ := helement j k hj hk hreordered hfits
    exact ⟨.single hfits', hequals⟩
  | @listOf element items hfits =>
    obtain ⟨others, rfl, hitems⟩ := hreordered.exists_items
    have hstable : List.Forall₂ (fun j k => element.Fits k ∧
        (element.denote j).equals (element.denote k) = true) items others := by
      rw [List.forall₂_iff_zip] at hitems ⊢
      refine ⟨hitems.1, ?_⟩
      intro j' k' hmem
      obtain ⟨hj', hk'⟩ := List.of_mem_zip hmem
      exact helement j' k' (Json.unique_array.mp hj j' hj') (Json.unique_array.mp hk k' hk')
        (hitems.2 hmem) (hfits j' hj')
    constructor
    · apply Fits.listOf
      intro k' hk'
      obtain ⟨j', -, hfits', -⟩ := exists_of_forall₂ hstable hk'
      exact hfits'
    · apply Value.equals_list_iff.mpr
      rw [Value.EqualItems, List.forall₂_map_left_iff, List.forall₂_map_right_iff]
      exact hstable.imp fun _ _ h => h.2

namespace Record

variable {r : Record}

theorem keys_denoted {denote : String → Json → Value} (entries : Keyed Json) :
    Keyed.keys (entries.map fun (key, j) => (key, denote key j)) =
      Keyed.keys entries := by
  simp [Keyed.keys, Function.comp_def]

theorem Distinct.stable (hr : r.Distinct)
    (htypes : ∀ name type, (name, type) ∈ r.fields → type.Stable) :
    (ElementType.user (.record r)).Stable := by
  intro j k hj hk h hfits
  obtain ⟨entries, rfl, hnames, hentry, hdenote⟩ := exists_entries_of_fits hfits
  obtain ⟨hu, hentries⟩ := Json.unique_object.mp hj
  obtain ⟨others, rfl, hkeys, heach⟩ := h.exists_fields hu
  obtain ⟨hu', hothers⟩ := Json.unique_object.mp hk
  have hstable : ∀ name type j k, (name, type) ∈ r.fields → (name, j) ∈ entries →
      (name, k) ∈ others → type.Fits k ∧ (type.denote j).equals (type.denote k) = true := by
    intro name type j k htype hj hk
    exact htypes name type htype j k (hentries _ hj) (hothers _ hk) (heach name j k hj hk)
      (hentry name type j htype hj)
  constructor
  · apply ElementType.Fits.record
    apply Conforms.object
    · intro name
      rw [← hkeys]
      exact hnames name
    · intro name type k htype hk
      obtain ⟨j, hj⟩ :=
        Keyed.exists_mem_of_mem_keys ((hkeys name).mpr (Keyed.mem_keys_of_mem hk))
      exact (hstable name type j k htype hj hk).1
  · have hdenote' : (ElementType.user (.record r)).denote (.object others) =
        r.instanceOf (others.map fun (key, k) => (key, r.types.denote key k)) :=
      denote_object r others
    rw [hdenote, hdenote']
    apply Value.equals_tagged_iff.mpr
    refine ⟨rfl, rfl, rfl, ?_⟩
    apply Value.equals_object_of_entries
    · rwa [Keyed.Unique, keys_denoted]
    · rwa [Keyed.Unique, keys_denoted]
    · intro name
      rw [keys_denoted, keys_denoted]
      exact hkeys name
    · intro name v w hv hw
      obtain ⟨j, hj, rfl⟩ := mem_denoted.mp hv
      obtain ⟨k, hk, rfl⟩ := mem_denoted.mp hw
      obtain ⟨type, htype⟩ := Keyed.exists_mem_of_mem_keys
        ((hnames name).mp (Keyed.mem_keys_of_mem hj))
      have hfind := (Keyed.find?_eq_some_iff hr.unique).mpr htype
      rw [FieldTable.denote_eq hfind, FieldTable.denote_eq hfind]
      exact (hstable name type j k htype hj hk).2

end Record

theorem Definition.WellFormed.stable {d : Definition} (h : d.WellFormed) :
    (ElementType.user d).Stable := by
  induction h with
  | @union u _ => exact u.stable
  | @record r distinct inner ih =>
    apply distinct.stable
    intro name type hfield
    exact FieldType.stable_of_element fun d hd => ih d ⟨name, type, hfield, hd⟩

namespace Record

variable {r : Record}

/-- Lifting an object goes through the record in the one way or the other. -/
theorem lift_iff_of_wellFormed (proper : (Definition.record r).WellFormed) {j : Json}
    (hj : j.Unique) {v : Value} :
    r.lift j = .ok v ↔ (ElementType.user (.record r)).Fits j ∧
      v = (ElementType.user (.record r)).denote j := by
  rw [← proper.faithful j v hj]
  constructor
  · intro hlift
    refine ⟨definition_lift hlift, ?_⟩
    obtain ⟨entries, rfl⟩ := exists_object_of_lift hlift
    obtain ⟨fields, -, hof⟩ := lift_object_eq_ok_iff.mp hlift
    obtain ⟨-, -, rfl⟩ := of_object_eq_ok_iff.mp hof
    exact is_instanceOf r fields
  · intro h
    obtain ⟨hfits, -⟩ := (proper.faithful j v hj).mp h
    obtain ⟨entries, rfl, -⟩ := exists_entries_of_fits hfits
    exact h.1

/-- Both documents are lifted to values that are equal, or both are refused. Which entry is
refused first may depend on the order. -/
theorem lift_reordered {id : Nat} {descriptor : Value} {r : Record} (unique : descriptor.Unique)
    (known : ∀ d, descriptor.Part (.definition d) → d.Accepted)
    (defined : define id descriptor = .ok r) {document document' : Json} (hu : document.Unique)
    (hu' : document'.Unique) (h : document.Reordered document') :
    (∃ v w, r.lift document = .ok v ∧ r.lift document' = .ok w ∧ v.equals w = true) ∨
      ∃ f g, r.lift document = .error f ∧ r.lift document' = .error g := by
  have proper : (Definition.record r).WellFormed :=
    (Definition.Accepted.record unique known defined).wellFormed
  cases hlift : r.lift document with
  | ok v =>
    obtain ⟨hfits, rfl⟩ := (lift_iff_of_wellFormed proper hu).mp hlift
    obtain ⟨hfits', hequals⟩ := proper.stable document document' hu hu' h hfits
    have hlift' := (lift_iff_of_wellFormed proper hu').mpr ⟨hfits', rfl⟩
    exact .inl ⟨_, _, rfl, hlift', hequals⟩
  | error f =>
    cases hlift' : r.lift document' with
    | error g => exact .inr ⟨f, g, rfl, rfl⟩
    | ok w =>
      obtain ⟨hfits', -⟩ := (lift_iff_of_wellFormed proper hu').mp hlift'
      obtain ⟨hfits, -⟩ := proper.stable document' document hu' hu h.symm hfits'
      cases hlift.symm.trans ((lift_iff_of_wellFormed proper hu).mpr ⟨hfits, rfl⟩)

def address : Record :=
  .ofTypes 0 "Address"
    [("street", .single (.primitive .string)), ("town", .single (.primitive .string))]

def addressDescriptor : Value :=
  describe "Address" [("street", .primitive .string), ("town", .primitive .string)]

def book : Record :=
  .ofTypes 1 "Book" [("addresses", .listOf (.user (.record address)))]

def bookDescriptor : Value :=
  describe "Book" [("addresses", .list [.definition (.record address)])]

def homeDocument : Json :=
  .object [("street", .string "Elm"), ("town", .string "Ulm")]

def homeByTownDocument : Json :=
  .object [("town", .string "Ulm"), ("street", .string "Elm")]

def bookDocument (entry : Json) : Json :=
  .object [("addresses", .array [entry])]

theorem reordered_home : homeDocument.Reordered homeByTownDocument := by
  apply Json.Reordered.object
  · intro key
    simp [or_comm]
  · intro key j k hj hk
    simp only [List.mem_cons, Prod.mk.injEq, List.not_mem_nil, or_false] at hj hk
    rcases hj with ⟨rfl, rfl⟩ | ⟨rfl, rfl⟩
    · rcases hk with ⟨hname, -⟩ | ⟨-, rfl⟩
      · simp at hname
      · exact .same _
    · rcases hk with ⟨-, rfl⟩ | ⟨hname, -⟩
      · exact .same _
      · simp at hname

theorem reordered_book :
    (bookDocument homeDocument).Reordered (bookDocument homeByTownDocument) := by
  have hitems : (Json.array [homeDocument]).Reordered (.array [homeByTownDocument]) := by
    refine .array rfl ?_
    intro j k hmem
    obtain ⟨rfl, rfl⟩ : j = homeDocument ∧ k = homeByTownDocument := by simpa using hmem
    exact reordered_home
  apply Json.Reordered.object
  · intro key
    rfl
  · intro key j k hj hk
    cases List.mem_singleton.mp hj
    cases List.mem_singleton.mp hk
    exact hitems

theorem lift_homeDocument : address.lift homeDocument =
    .ok (address.instanceOf [("street", .string "Elm"), ("town", .string "Ulm")]) := by
  have haccepts : address.Accepts [("street", .string "Elm"), ("town", .string "Ulm")] := by
    refine ⟨fun _ => Iff.rfl, ?_⟩
    intro name type v htype hv
    simp only [address, fieldType?, fields_ofTypes, Keyed.find?] at htype hv
    split_ifs at htype hv <;> cases htype <;> cases hv <;> rfl
  exact lift_object_eq_ok_iff.mpr ⟨_, .cons ⟨rfl, rfl⟩ (.cons ⟨rfl, rfl⟩ .nil),
    of_object_eq_ok_iff.mpr ⟨List.cons_ne_nil _ _, haccepts, rfl⟩⟩

theorem exists_lift_bookDocument : ∃ v, book.lift (bookDocument homeDocument) = .ok v := by
  have hfield : book.types.lift "addresses" (.array [homeDocument]) = .ok (.list
      [address.instanceOf [("street", .string "Elm"), ("town", .string "Ulm")]]) :=
    map_eq_ok.mpr ⟨_, mapM_eq_ok_iff.mpr (.cons lift_homeDocument .nil), rfl⟩
  exact ⟨_, lift_object_eq_ok_iff.mpr
    ⟨[("addresses", _)], .cons ⟨rfl, hfield⟩ .nil, of_single_iff.mpr ⟨rfl, rfl⟩⟩⟩

theorem lift_reordered_book : define 1 bookDescriptor = .ok book ∧
    ∃ v w, book.lift (bookDocument homeDocument) = .ok v ∧
      book.lift (bookDocument homeByTownDocument) = .ok w ∧ v.equals w = true := by
  have haddress : define 0 addressDescriptor = .ok address := rfl
  have hbook : define 1 bookDescriptor = .ok book := rfl
  have unique : bookDescriptor.Unique := by
    simp [bookDescriptor, describe, Keyed.Unique, Value.Unique, Value.FieldsUnique, Value.AllUnique]
  have known : ∀ d, bookDescriptor.Part (.definition d) → d.Accepted := by
    intro d hd
    have hd : d = .record address := by simpa [bookDescriptor, describe] using hd
    rw [hd]
    refine .record ?_ (fun e he => ?_) haddress
    · simp [addressDescriptor, describe, Keyed.Unique, Value.Unique, Value.FieldsUnique]
    · simp [addressDescriptor, describe] at he
  have hu : (bookDocument homeDocument).Unique := by
    simp [bookDocument, homeDocument, Json.Unique, Json.AllUnique, Json.FieldsUnique, Keyed.Unique]
  have hu' : (bookDocument homeByTownDocument).Unique := by
    simp [bookDocument, homeByTownDocument, Json.Unique, Json.AllUnique, Json.FieldsUnique,
      Keyed.Unique]
  refine ⟨hbook, ?_⟩
  rcases lift_reordered unique known hbook hu hu' reordered_book with h | ⟨f, -, hf, -⟩
  · exact h
  · obtain ⟨v, hv⟩ := exists_lift_bookDocument
    cases hv.symm.trans hf

end Record
end TaggedData
