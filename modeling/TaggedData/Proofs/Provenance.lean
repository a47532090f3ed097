import TaggedData.Proofs.Conformance
import TaggedData.Proofs.History
import TaggedData.Proofs.Validation

/-!
# The provenance of typed values

Every typed value of a history comes from a definition of it, and looks like a value that
this definition made: it has a label of the union and a payload of the arity that belongs
to the label, or it has the fields of the record. Lenses keep this, although they do not
look at the types of fields.
-/

namespace TaggedData

theorem Record.mem_lenses {r : Record} {l : Lens} :
    l ∈ r.lenses ↔ l.owner = r.name ∧ l.field ∈ Keyed.keys r.fields := by
  obtain ⟨owner, field⟩ := l
  simp only [lenses_eq, Keyed.keys, List.mem_map, Lens.mk.injEq]
  constructor
  · rintro ⟨entry, hentry, rfl, rfl⟩
    exact ⟨rfl, entry, hentry, rfl⟩
  · rintro ⟨rfl, entry, hentry, rfl⟩
    exact ⟨entry, hentry, rfl, rfl⟩

/-- The payload of a constructor with so many arguments. -/
structure PayloadOf (arity : Nat) (payload : Value) : Prop where
  none : arity = 0 → payload = .null
  more : 2 ≤ arity → ∃ items, payload = .list items ∧ items.length = arity

theorem Constructor.payloadOf (arguments : List Value) :
    PayloadOf arguments.length (payload arguments) := by
  match arguments with
  | [] => exact ⟨fun _ => rfl, nofun⟩
  | [v] => exact ⟨nofun, fun h => absurd h (by simp)⟩
  | v :: w :: rest => exact ⟨nofun, fun _ => ⟨_, rfl, rfl⟩⟩

namespace History

/-- What a value looks like that comes from a definition. Other records of the same name may
have added fields. -/
inductive Shaped (h : History) : Definition → Value → Prop
  | variant {u c payload} (own : c ∈ u.constructors) (shape : PayloadOf c.arity payload) :
      Shaped h (.union u) (.tagged u.name c.label (.variant c.arity) payload)
  | record {r fields} (all : ∀ name ∈ Keyed.keys r.fields, name ∈ Keyed.keys fields)
      (others : ∀ name ∈ Keyed.keys fields, ∃ s, h.Knows (.record s) ∧ s.name = r.name ∧
        name ∈ Keyed.keys s.fields)
      (values : ∀ name type v, r.fieldType? name = some type → Keyed.find? name fields = some v →
        type.admits v = true ∨ h.Written ⟨r.name, name⟩ v) :
      Shaped h (.record r) (r.instanceOf fields)

def HasOrigin (h : History) (v : Value) : Prop :=
  ∃ d, h.Origin v d

structure Sound (h : History) : Prop where
  accepted : ∀ d, h.Knows d → d.Accepted
  closed : ∀ d e, h.Knows d → d.Refers e → h.Knows e
  shaped : ∀ v d, h.Origin v d → h.Knows d ∧ h.Shaped d v
  results : ∀ v, h.Yields v → v.MadeOf h.Knows h.HasOrigin

section Extension

variable {h : History} {e : Event}

theorem Knows.earlier {d : Definition} (hd : h.Knows d) : Knows (e :: h) d :=
  List.mem_cons_of_mem e hd

theorem Written.earlier {l : Lens} {v : Value} (hv : h.Written l v) : Written (e :: h) l v := by
  obtain ⟨target, f, result, fields, hmem, hfocus⟩ := hv
  exact ⟨target, f, result, fields, List.mem_cons_of_mem e hmem, hfocus⟩

theorem HasOrigin.earlier {v : Value} (hv : h.HasOrigin v) : HasOrigin (e :: h) v := by
  obtain ⟨d, hd⟩ := hv
  exact ⟨d, .earlier hd⟩

theorem Shaped.earlier {d : Definition} {v : Value} (hv : h.Shaped d v) : Shaped (e :: h) d v := by
  cases hv with
  | variant own shape => exact .variant own shape
  | record all others values =>
    refine .record all (fun name hname => ?_) fun name type v htype hv => ?_
    · obtain ⟨s, hs, hother⟩ := others name hname
      exact ⟨s, hs.earlier, hother⟩
    · exact (values name type v htype hv).imp_right Written.earlier

theorem MadeOf.earlier {v : Value} (hv : v.MadeOf h.Knows h.HasOrigin) :
    v.MadeOf (Knows (e :: h)) (HasOrigin (e :: h)) :=
  hv.mono (fun _ hd => hd.earlier) fun _ _ hw => hw.earlier

end Extension

section Step

variable {h : History} {d : Definition} {v : Value}

theorem Sound.available (hs : h.Sound) (hv : h.Available v) : v.MadeOf h.Knows h.HasOrigin := by
  refine hv.mono (fun _ hd => hd) fun w htagged hw => ?_
  obtain ⟨whole, hwhole, hpart⟩ := hw
  exact (hs.results whole hwhole).instances w hpart htagged

theorem Sound.wellFormed (hs : h.Sound) (hd : h.Knows d) : d.WellFormed :=
  (hs.accepted d hd).wellFormed

theorem Sound.union_wellFormed (hs : h.Sound) {u : Union} (hu : h.Knows (.union u)) :
    u.WellFormed := by
  cases hs.wellFormed hu with
  | union proper => exact proper

theorem shaped_call {u : Union} (hu : u.WellFormed) {c : Constructor} (hc : c ∈ u.constructors)
    {arguments : List Value} (hcall : c.call arguments = .ok v) : h.Shaped (.union u) v := by
  unfold Constructor.call at hcall
  split_ifs at hcall with hlength
  cases hcall
  rw [hu.typeName_eq c hc]
  exact .variant hc (hlength ▸ Constructor.payloadOf arguments)

theorem shaped_construct {u : Union} (hu : u.WellFormed) {label : String} {arguments : List Value}
    (hconstruct : u.construct label arguments = .ok v) : h.Shaped (.union u) v := by
  unfold Union.construct at hconstruct
  split at hconstruct
  · rename_i c hfind
    exact shaped_call hu (Union.mem_of_find? hfind).1 hconstruct
  · cases hconstruct

theorem shaped_of {r : Record} (hr : h.Knows (.record r)) {given : Value}
    (hof : r.of given = .ok v) : h.Shaped (.record r) v := by
  obtain ⟨fields, rfl, -, haccepts, rfl⟩ := Record.of_eq_ok_iff.mp hof
  refine .record (fun name => (haccepts.keys name).mpr) (fun name hname => ?_) ?_
  · exact ⟨r, hr, rfl, (haccepts.keys name).mp hname⟩
  · exact fun name type v htype hv => .inl (haccepts.admitted name type v htype hv)

/-- A typed value that was lifted was constructed, or accepted by the record. -/
theorem Sound.shaped_lift (hs : h.Sound) (hd : h.Knows d) {j : Json} (hlift : d.lift j = .ok v)
    (htyped : v.isTagged = true) : h.Shaped d v := by
  have plain : ∀ {j : Json}, v ≠ .ofJson j := by
    rintro j rfl
    cases j <;> cases htyped
  cases d with
  | union u =>
    have hu := hs.union_wellFormed hd
    change u.lift j = .ok v at hlift
    unfold Union.lift at hlift
    split at hlift
    · split_ifs at hlift
      · exact shaped_construct hu hlift
      · cases hlift
        cases htyped
    · split_ifs at hlift
      · exact shaped_construct hu hlift
      · cases hlift
        cases htyped
    · cases hlift
      exact absurd rfl plain
  | record r =>
    cases j with
    | object entries =>
      obtain ⟨fields, -, hof⟩ := Record.lift_object_eq_ok_iff.mp hlift
      exact shaped_of hd hof
    | _ =>
      cases hlift
      exact absurd rfl plain

theorem Sound.knows_of_leadsTo (hs : h.Sound) {e : Definition} {j k : Json}
    (hleads : d.LeadsTo j e k) (hd : h.Knows d) : h.Knows e := by
  induction hleads with
  | here d j => exact hd
  | field type entry rest ih =>
    exact ih (hs.closed _ _ hd ⟨_, _, Keyed.mem_of_find? type, rfl⟩)
  | item type entry mem rest ih =>
    exact ih (hs.closed _ _ hd ⟨_, _, Keyed.mem_of_find? type, rfl⟩)

theorem Sound.made (hs : h.Sound) {host : Host} {operation : Operation}
    (hallowed : h.Allows host operation) (hmade : h.Makes operation v d) :
    h.Knows d ∧ h.Shaped d v := by
  cases hmade with
  | construct made => exact ⟨hallowed.1, shaped_construct (hs.union_wellFormed hallowed.1) made⟩
  | call owns made => exact ⟨owns.1, shaped_call (hs.union_wellFormed owns.1) owns.2 made⟩
  | of made => exact ⟨hallowed.1, shaped_of hallowed.1 made⟩
  | lift leads made typed =>
    have hd := hs.knows_of_leadsTo leads hallowed.1
    exact ⟨hd, hs.shaped_lift hd made typed⟩
  | branch branch owns made =>
    exact ⟨owns.1, shaped_call (hs.union_wellFormed owns.1) owns.2 made⟩

/-- A modification happens to a typed value with a keyed payload. -/
theorem modify_eq_ok {l : Lens} {target : Value} {f : Value → Value}
    (hmodify : l.modify target f = .ok v) :
    ∃ typeName label form fields, target = .tagged typeName label form (.object fields) ∧
      l.focus? target = some fields ∧
      v = .tagged typeName label form
        (.object (Keyed.put l.field (f (l.current fields)) fields)) := by
  unfold Lens.modify at hmodify
  split at hmodify
  · rename_i typeName label form payload fields hfocus
    cases hmodify
    have hpayload : payload = .object fields := by
      cases payload with
      | object entries =>
        simp only [Lens.focus?, Option.ite_none_right_eq_some, Option.some.injEq] at hfocus
        rw [hfocus.2]
      | _ => simp [Lens.focus?] at hfocus
    exact ⟨typeName, label, form, fields, by rw [hpayload], hfocus, rfl⟩
  · cases hmodify

theorem Shaped.modify {target : Value} (hshaped : h.Shaped d target) {l : Lens}
    (hl : ∃ r, h.Knows (.record r) ∧ l ∈ r.lenses) {f : Value → Value}
    (hmodify : l.modify target f = .ok v) :
    Shaped (.performed (.modify l target f) v :: h) d v := by
  obtain ⟨typeName, label, form, fields, htarget, hfocus, rfl⟩ := modify_eq_ok hmodify
  have howner : typeName = l.owner := by
    rw [htarget] at hfocus
    simp only [Lens.focus?, Option.ite_none_right_eq_some] at hfocus
    exact hfocus.1
  obtain ⟨s, hs, hmem⟩ := hl
  obtain ⟨hsowner, hsfield⟩ := Record.mem_lenses.mp hmem
  cases hshaped with
  | variant own shape =>
    cases htarget
    refine .variant own ⟨fun hzero => absurd (shape.none hzero) nofun, fun hmore => ?_⟩
    obtain ⟨items, hitems, -⟩ := shape.more hmore
    cases hitems
  | @record r _ all others values =>
    cases htarget
    refine .record (fun name hname => ?_) (fun name hname => ?_) fun name type w htype hw => ?_
    · exact Keyed.mem_keys_put.mpr (.inr (all name hname))
    · rcases Keyed.mem_keys_put.mp hname with rfl | hname
      · exact ⟨s, hs.earlier, hsowner.symm.trans howner.symm, hsfield⟩
      · obtain ⟨s', hs', hother⟩ := others name hname
        exact ⟨s', hs'.earlier, hother⟩
    · rw [Keyed.find?_put] at hw
      split_ifs at hw with hname
      · cases hw
        rw [← hname, howner]
        exact .inr ⟨_, f, _, fields, List.mem_cons_self, hfocus, rfl⟩
      · exact (values name type w htype hw).imp_right Written.earlier

variable {known : Definition → Prop} {typed : Value → Prop}

theorem madeOf_payload {arguments : List Value}
    (h : ∀ a ∈ arguments, a.MadeOf known typed) :
    (Constructor.payload arguments).MadeOf known typed := by
  match arguments with
  | [] => exact Value.madeOf_atom rfl
  | [v] => exact h v List.mem_cons_self
  | v :: w :: rest => exact Value.madeOf_list.mpr h

theorem madeOf_call {c : Constructor} {arguments : List Value}
    (h : ∀ a ∈ arguments, a.MadeOf known typed)
    (hcall : c.call arguments = .ok v) (hv : typed v) : v.MadeOf known typed := by
  unfold Constructor.call at hcall
  split_ifs at hcall
  cases hcall
  exact Value.madeOf_tagged.mpr ⟨hv, madeOf_payload h⟩

theorem madeOf_construct {u : Union} {label : String} {arguments : List Value}
    (h : ∀ a ∈ arguments, a.MadeOf known typed)
    (hconstruct : u.construct label arguments = .ok v) (hv : typed v) : v.MadeOf known typed := by
  unfold Union.construct at hconstruct
  split at hconstruct
  · exact madeOf_call h hconstruct hv
  · cases hconstruct

theorem madeOf_of {r : Record} {given : Value} (h : given.MadeOf known typed)
    (hof : r.of given = .ok v) (hv : typed v) : v.MadeOf known typed := by
  obtain ⟨fields, rfl, -, -, rfl⟩ := Record.of_eq_ok_iff.mp hof
  exact Value.madeOf_tagged.mpr ⟨hv, h⟩

/-- A primitive type makes values without parts, a list of absent values or of its arguments
or an empty structure, or it gives back an argument. -/
theorem primitive_call_cases {p : Primitive} {nextSymbol : Nat} {arguments : List Value}
    (hcall : p.call nextSymbol arguments = .ok v) :
    v.isAtom = true ∨ (∃ n, v = .list (List.replicate n .nil)) ∨ v = .list arguments ∨
      v = .object [] ∨ v ∈ arguments := by
  unfold Primitive.call at hcall
  split at hcall
  case h_11 =>
    unfold Primitive.callArray at hcall
    split at hcall
    · split at hcall
      · split_ifs at hcall
        cases hcall
        exact .inr (.inl ⟨_, rfl⟩)
      · cases hcall
    · cases hcall
      exact .inr (.inr (.inl rfl))
  case h_12 | h_13 | h_14 =>
    cases hcall
    exact .inr (.inr (.inr (.inl rfl)))
  case h_15 =>
    cases hcall
    exact .inr (.inr (.inr (.inr List.mem_cons_self)))
  all_goals
    cases hcall
    try exact .inl rfl

theorem madeOf_primitive {p : Primitive} {nextSymbol : Nat} {arguments : List Value}
    (h : ∀ a ∈ arguments, a.MadeOf known typed)
    (hcall : p.call nextSymbol arguments = .ok v) : v.MadeOf known typed := by
  rcases primitive_call_cases hcall with hatom | ⟨n, rfl⟩ | rfl | rfl | hmem
  · exact Value.madeOf_atom hatom
  · refine Value.madeOf_list.mpr fun item hitem => ?_
    rw [List.eq_of_mem_replicate hitem]
    exact Value.madeOf_atom rfl
  · exact Value.madeOf_list.mpr h
  · exact Value.madeOf_object.mpr ⟨List.nodup_nil, List.forall_mem_nil _⟩
  · exact h v hmem

/-- Lifting the document makes the value on the way. -/
def LiftMakes (d : Definition) (j : Json) (v : Value) : Prop :=
  ∃ e k, d.LeadsTo j e k ∧ e.lift k = .ok v

theorem LiftMakes.field {r : Record} {entries : Keyed Json} {name : String} {d : Definition}
    {j : Json} (type : r.fieldType? name = some (.single (.user d))) (entry : (name, j) ∈ entries)
    (h : LiftMakes d j v) : LiftMakes (.record r) (.object entries) v := by
  obtain ⟨e, k, hleads, hlift⟩ := h
  exact ⟨e, k, .field type entry hleads, hlift⟩

theorem LiftMakes.item {r : Record} {entries : Keyed Json} {name : String} {items : List Json}
    {d : Definition} {j : Json} (type : r.fieldType? name = some (.listOf (.user d)))
    (entry : (name, .array items) ∈ entries) (mem : j ∈ items) (h : LiftMakes d j v) :
    LiftMakes (.record r) (.object entries) v := by
  obtain ⟨e, k, hleads, hlift⟩ := h
  exact ⟨e, k, .item type entry mem hleads, hlift⟩

theorem madeOf_union_lift {u : Union} {j : Json} (hj : j.Unique)
    (hlift : (Definition.union u).lift j = .ok v) :
    v.MadeOf known (LiftMakes (.union u) j) := by
  have hv : LiftMakes (.union u) j v := ⟨_, _, .here _ _, hlift⟩
  have plain : ∀ {w}, (.ok (.ofJson j) : Except Fault Value) = .ok w →
      w.MadeOf known (LiftMakes (.union u) j) := by
    intro w heq
    cases heq
    exact Value.madeOf_ofJson j hj
  change u.lift j = .ok v at hlift
  unfold Union.lift at hlift
  split at hlift
  · split_ifs at hlift
    · exact madeOf_construct (List.forall_mem_nil _) hlift hv
    · exact plain hlift
  · rename_i label argument
    split_ifs at hlift
    · refine madeOf_construct (fun a ha => ?_) hlift hv
      have hargument : argument.Unique := (Json.unique_object.mp hj).2 _ List.mem_cons_self
      unfold Union.argumentsOf at ha
      split at ha
      · rename_i items
        rw [Value.ofJsonItems_eq_map] at ha
        obtain ⟨item, hitem, rfl⟩ := List.mem_map.mp ha
        exact Value.madeOf_ofJson item (Json.unique_array.mp hargument item hitem)
      · rw [List.mem_singleton.mp ha]
        exact Value.madeOf_ofJson argument hargument
    · exact plain (by simpa [Value.ofJson, Value.ofJsonFields] using hlift)
  · exact plain hlift

theorem madeOf_elementLift {type : ElementType} {j : Json}
    (user : ∀ e, type = .user e → ∀ w, e.lift j = .ok w → w.MadeOf known typed)
    (hj : j.Unique) (hlift : type.lift j = .ok v) : v.MadeOf known typed := by
  cases type with
  | primitive p =>
    cases hlift
    exact Value.madeOf_ofJson j hj
  | user e => exact user e rfl v hlift

theorem madeOf_fieldLift {type : FieldType} {j : Json}
    (single : ∀ e, type = .single (.user e) → ∀ w, e.lift j = .ok w →
      w.MadeOf known typed)
    (item : ∀ e items, type = .listOf (.user e) → j = .array items → ∀ k ∈ items, ∀ w,
      e.lift k = .ok w → w.MadeOf known typed)
    (hj : j.Unique) (hlift : type.lift j = .ok v) : v.MadeOf known typed := by
  cases type with
  | single element =>
    exact madeOf_elementLift (fun e he => single e (congrArg _ he)) hj hlift
  | listOf element =>
    cases j with
    | array items =>
      obtain ⟨vs, hvs, rfl⟩ := map_eq_ok.mp hlift
      refine Value.madeOf_list.mpr fun w hw => ?_
      obtain ⟨k, hk, hkw⟩ := exists_of_forall₂ (mapM_eq_ok_iff.mp hvs) hw
      exact madeOf_elementLift (fun e he => item e items (congrArg _ he) rfl k hk)
        (Json.unique_array.mp hj k hk) hkw
    | _ =>
      cases hlift
      exact Value.madeOf_ofJson _ hj

/-- By induction on what the definition refers to: the fields of a record hold what was lifted
by the definitions in their types. -/
theorem madeOf_lift (hd : d.WellFormed) {j : Json} (hj : j.Unique)
    (hlift : d.lift j = .ok v) : v.MadeOf known (LiftMakes d j) := by
  induction hd generalizing j v with
  | union proper => exact madeOf_union_lift hj hlift
  | @record r distinct inner ih =>
    have hv : LiftMakes (.record r) j v := ⟨_, _, .here _ _, hlift⟩
    cases j with
    | object entries =>
      obtain ⟨hunique, hentries⟩ := Json.unique_object.mp hj
      obtain ⟨fields, hlifts, hof⟩ := Record.lift_object_eq_ok_iff.mp hlift
      refine madeOf_of (Value.madeOf_object.mpr ⟨?_, ?_⟩) hof hv
      · rw [Keyed.Unique, Record.keys_of_lifts hlifts]
        exact hunique
      rintro ⟨name, w⟩ hw
      obtain ⟨k, hk, hfield⟩ := Record.exists_entry_of_lifts hlifts hw
      have hkunique : k.Unique := hentries _ hk
      cases htype : r.fieldType? name with
      | none =>
        rw [FieldTable.lift_none htype] at hfield
        cases hfield
        exact Value.madeOf_ofJson k hkunique
      | some type =>
        rw [FieldTable.lift_eq htype] at hfield
        have hmem := Keyed.mem_of_find? htype
        refine madeOf_fieldLift (fun e he x hx => ?_) (fun e items he hitems i hi x hx => ?_)
          hkunique hfield
        · subst he
          have hx := ih e ⟨name, _, hmem, rfl⟩ hkunique hx
          exact hx.mono (fun _ h => h) fun _ _ hmakes => hmakes.field htype hk
        · subst he hitems
          have hx := ih e ⟨name, _, hmem, rfl⟩ (Json.unique_array.mp hkunique i hi) hx
          exact hx.mono (fun _ h => h) fun _ _ hmakes => hmakes.item htype hk hi
    | _ =>
      cases hlift
      exact Value.madeOf_ofJson _ hj

theorem madeOf_callable {host : Host} {callee : Callable} {arguments : List Value}
    (hallowed : h.AllowsCall host arguments callee)
    (available : ∀ w, h.Available w → w.MadeOf h.Knows typed)
    (harguments : ∀ a ∈ arguments, a.MadeOf h.Knows typed)
    (hcall : callee.call host arguments = .ok v)
    (made : ∀ u c, callee = .constructor c → h.Owns u c → c.call arguments = .ok v → typed v) :
    v.MadeOf h.Knows typed := by
  cases callee with
  | function f =>
    cases hcall
    exact available _ hallowed
  | constructor c =>
    obtain ⟨u, hu⟩ := hallowed
    exact madeOf_call harguments hcall (made u c rfl hu hcall)
  | primitive p => exact madeOf_primitive harguments hcall

theorem exists_branch_of_apply {host : Host} {m : Matcher} {target : Value}
    (happly : m.apply host target = .ok v) :
    ∃ branch, m.branch? target = some branch ∧
      branch.resolve host (Matcher.payloadOf target) = .ok v := by
  unfold Matcher.apply at happly
  dsimp only at happly
  split_ifs at happly
  split at happly
  · cases happly
  · rename_i label hlabel
    split at happly
    · cases happly
    · rename_i branch hbranch
      exact ⟨branch, by simp [Matcher.branch?, hlabel, hbranch], happly⟩

theorem Sound.result (hs : h.Sound) {host : Host} {operation : Operation}
    (hallowed : h.Allows host operation) (hperform : operation.perform host = .ok v) :
    v.MadeOf h.Knows (HasOrigin (.performed operation v :: h)) := by
  have available : ∀ w, h.Available w →
      w.MadeOf h.Knows (HasOrigin (.performed operation v :: h)) := fun w hw =>
    (hs.available hw).mono (fun _ hd => hd) fun _ _ horigin => horigin.earlier
  have made : ∀ w d, h.Makes operation w d → HasOrigin (.performed operation v :: h) w :=
    fun w d hmade => ⟨d, .made hmade⟩
  cases operation with
  | construct u label arguments =>
    exact madeOf_construct (fun a ha => available a (hallowed.2 a ha)) hperform
      (made v _ (.construct hperform))
  | call callee arguments =>
    refine madeOf_callable hallowed.1 available (fun a ha => available a (hallowed.2 a ha))
      hperform fun u c hcallee howns hcall => ?_
    subst hcallee
    exact made v _ (.call howns hcall)
  | of r given => exact madeOf_of (available given hallowed.2) hperform (made v _ (.of hperform))
  | lift r document =>
    have hlift := Record.definition_lift hperform
    refine (madeOf_lift (hs.wellFormed hallowed.1) hallowed.2 hlift).mono (fun _ hd => hd) ?_
    rintro w htagged ⟨e, k, hleads, hw⟩
    exact made w e (.lift hleads hw htagged)
  | modify l target f =>
    obtain ⟨typeName, label, form, fields, rfl, hfocus, rfl⟩ := modify_eq_ok hperform
    obtain ⟨-, htarget, hvalue⟩ := hallowed
    have hmade := hs.available htarget
    obtain ⟨⟨d, horigin⟩, -⟩ := Value.madeOf_tagged.mp hmade
    have hpayload := (Value.madeOf_tagged.mp (available _ htarget)).2
    exact Value.madeOf_tagged.mpr ⟨⟨d, .updated horigin⟩,
      Value.madeOf_put hpayload (available _ (hvalue fields hfocus))⟩
  | apply m target =>
    obtain ⟨-, htarget, hbranches⟩ := hallowed
    obtain ⟨branch, hbranch, hresolve⟩ := exists_branch_of_apply hperform
    have hpayload : (Matcher.payloadOf target).MadeOf h.Knows
        (HasOrigin (.performed (.apply m target) v :: h)) := by
      cases target with
      | tagged typeName label form payload =>
        exact (available _ htarget).part (.payload (.refl payload))
      | _ => exact Value.madeOf_atom rfl
    have hallowed := hbranches branch hbranch
    cases branch with
    | thunk run => exact available v (hallowed v hresolve)
    | constant w =>
      cases hresolve
      exact available v hallowed
    | callee callee =>
      refine madeOf_callable hallowed available
        (fun a ha => by rw [List.mem_singleton.mp ha]; exact hpayload) hresolve
        fun u c hcallee howns hcall => ?_
      subst hcallee
      exact made v _ (.branch hbranch howns hcall)

/-- What an event has to satisfy to keep the invariant. -/
theorem Sound.extend (hs : h.Sound) {e : Event}
    (accepted : ∀ d, e = .defined d → d.Accepted)
    (refers : ∀ d d', e = .defined d → d.Refers d' → h.Knows d')
    (shaped : ∀ v d, Origin (e :: h) v d → h.Origin v d ∨ h.Knows d ∧ Shaped (e :: h) d v)
    (result : ∀ op v, e = .performed op v → v.MadeOf h.Knows (HasOrigin (e :: h))) :
    Sound (e :: h) where
  accepted d hd := by
    rcases List.mem_cons.mp hd with heq | hd
    · exact accepted d heq.symm
    · exact hs.accepted d hd
  closed d d' hd hd' := by
    rcases List.mem_cons.mp hd with heq | hd
    · exact (refers d d' heq.symm hd').earlier
    · exact (hs.closed d d' hd hd').earlier
  shaped v d hv := by
    rcases shaped v d hv with horigin | ⟨hd, hshaped⟩
    · obtain ⟨hd, hshaped⟩ := hs.shaped v d horigin
      exact ⟨hd.earlier, hshaped.earlier⟩
    · exact ⟨hd.earlier, hshaped⟩
  results v hv := by
    obtain ⟨op, hmem⟩ := hv
    rcases List.mem_cons.mp hmem with heq | hmem
    · exact (result op v heq.symm).mono (fun _ hd => hd.earlier) fun _ _ horigin => horigin
    · exact MadeOf.earlier (hs.results v ⟨op, hmem⟩)

theorem Sound.operation (hs : h.Sound) {host : Host} {operation : Operation}
    (hallowed : h.Allows host operation) (hperform : operation.perform host = .ok v) :
    Sound (.performed operation v :: h) := by
  refine hs.extend nofun nofun (fun w d hw => ?_) fun op w heq => ?_
  · cases hw with
    | made made =>
      obtain ⟨hd, hshaped⟩ := hs.made hallowed made
      exact .inr ⟨hd, hshaped.earlier⟩
    | updated origin =>
      obtain ⟨hd, hshaped⟩ := hs.shaped _ d origin
      exact .inr ⟨hd, hshaped.modify hallowed.1 hperform⟩
    | earlier origin => exact .inl origin
  · cases heq
    exact hs.result hallowed hperform

/-- A definition keeps the invariant if what it refers to is known. -/
theorem Sound.define (hs : h.Sound) (accepted : d.Accepted)
    (refers : ∀ e, d.Refers e → h.Knows e) : Sound (.defined d :: h) := by
  refine hs.extend (fun e he => ?_) (fun e e' he he' => ?_) (fun w e hw => ?_) nofun
  · cases he
    exact accepted
  · cases he
    exact refers e' he'
  · cases hw with
    | earlier origin => exact .inl origin

theorem Sound.refuse (hs : h.Sound) (f : Fault) : Sound (.refused f :: h) := by
  refine hs.extend nofun nofun (fun w e hw => ?_) nofun
  cases hw with
  | earlier origin => exact .inl origin

end Step

theorem sound_start : Sound [] where
  accepted := nofun
  closed := nofun
  shaped := nofun
  results := fun v hv => by obtain ⟨op, hmem⟩ := hv; cases hmem

/-- Along every run. -/
theorem Run.sound {h : History} (run : h.Run) : h.Sound := by
  induction run with
  | start => exact sound_start
  | union _ available defined hs => exact hs.define (.union defined) nofun
  | @record h id descriptor r _ available defined hs =>
    have hknown : ∀ d, descriptor.Part (.definition d) → h.Knows d := available.definitions
    refine hs.define (.record available.unique (fun d hd => hs.accepted d (hknown d hd)) defined) ?_
    exact fun e he => hknown e (Definition.part_of_refers defined he)
  | operation _ allowed performed hs => exact hs.operation allowed performed
  | refused _ hs => exact hs.refuse _

/-- What is under two keys is there together. -/
theorem available_pair {h : History} {key key' : String} {v w : Value} (hkeys : key ≠ key')
    (hv : h.Available v) (hw : h.Available w) : h.Available (.object [(key, v), (key', w)]) := by
  refine Value.madeOf_object.mpr ⟨by simpa [Keyed.Unique] using hkeys, ?_⟩
  exact List.forall_mem_cons.mpr ⟨hv, List.forall_mem_cons.mpr ⟨hw, List.forall_mem_nil _⟩⟩

/-- The descriptor of a union is made of texts and numbers. -/
theorem available_union (h : History) (name : String) (constructors : List (String × Nat)) :
    h.Available (Union.describe name constructors) := by
  refine available_pair (by decide) (Value.madeOf_atom rfl) (Value.madeOf_list.mpr ?_)
  intro item hitem
  obtain ⟨⟨label, arity⟩, -, rfl⟩ := List.mem_map.mp hitem
  exact available_pair (by decide) (Value.madeOf_atom rfl) (Value.madeOf_atom rfl)

/-- The descriptor of a record is there if the types of its fields are. -/
theorem available_record {h : History} {name : String} {shape : Keyed Value}
    (hshape : h.Available (.object shape)) : h.Available (Record.describe name shape) :=
  available_pair (by decide) (Value.madeOf_atom rfl) hshape

section Names

variable {h : History} {d e : Definition} {v : Value}

theorem Sound.exists_origin (hs : h.Sound) (holds : h.Holds v) (typed : v.isTagged = true) :
    ∃ d, h.Origin v d := by
  obtain ⟨whole, hwhole, hpart⟩ := holds
  exact (hs.results whole hwhole).instances v hpart typed

theorem Shaped.typeName_eq (hv : h.Shaped d v) : v.tags.typeName = some d.name := by
  cases hv with
  | variant own shape => rfl
  | record all others values => rfl

/-- A value belongs to the definitions that have the name of its origin. -/
theorem Shaped.is_iff (hv : h.Shaped d v) : e.is v = true ↔ e.name = d.name := by
  rw [Definition.is, hv.typeName_eq, beq_iff_eq, Option.some.injEq, eq_comm]

end Names

end History
end TaggedData
