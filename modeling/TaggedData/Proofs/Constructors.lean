import TaggedData.Proofs.Equality
import TaggedData.Proofs.Matching
import TaggedData.Value.Tags

/-!
# Telling constructors apart

The payload of one argument that is a list is also the payload of its items as several
arguments, but the label beside it tells the two apart. So values of one union are equal
exactly if one constructor made them of arguments that are equal one by one, and values of
unions with different names are never equal.
-/

namespace TaggedData

namespace Constructor

variable {c : Constructor} {arguments arguments' : List Value}

theorem call_eq_ok_iff {v : Value} : c.call arguments = .ok v ↔
    arguments.length = c.arity ∧
      v = .tagged c.typeName c.label (.variant c.arity) (payload arguments) := by
  unfold call
  split_ifs with hlength
  · simp [hlength, eq_comm]
  · simp [hlength]

theorem exists_call_iff : (∃ v, c.call arguments = .ok v) ↔ arguments.length = c.arity := by
  constructor
  · rintro ⟨v, hcall⟩
    exact (call_eq_ok_iff.mp hcall).1
  · intro hlength
    exact ⟨_, call_eq_ok hlength⟩

@[simp] theorem is_tagged {typeName label : String} {form : Form} {v : Value} :
    c.is (.tagged typeName label form v) = true ↔ typeName = c.typeName ∧ label = c.label := by
  simp [is, Value.tags]

/-- So many arguments as the others have the same form of payload. -/
theorem equals_payload_iff (h : arguments.length = arguments'.length) :
    (payload arguments).equals (payload arguments') = true ↔
      Value.EqualItems arguments arguments' := by
  match arguments, arguments', h with
  | [], [], _ => exact iff_of_true rfl .nil
  | [v], [w], _ => simp [payload, Value.EqualItems]
  | v :: v' :: rest, w :: w' :: rest', _ => exact Value.equals_list_iff

end Constructor

namespace Union

variable {u : Union} {c d : Constructor}

theorem WellFormed.eq_of_label_eq (hu : u.WellFormed) (hc : c ∈ u.constructors)
    (hd : d ∈ u.constructors) (h : c.label = d.label) : c = d :=
  List.inj_on_of_nodup_map hu.labels_nodup hc hd h

theorem WellFormed.call_eq_ok_iff (hu : u.WellFormed) (hc : c ∈ u.constructors)
    {arguments : List Value} {v : Value} : c.call arguments = .ok v ↔
      arguments.length = c.arity ∧
        v = .tagged u.name c.label (.variant c.arity) (Constructor.payload arguments) := by
  rw [Constructor.call_eq_ok_iff, hu.typeName_eq c hc]

theorem WellFormed.equals_call_iff (hu : u.WellFormed) (hc : c ∈ u.constructors)
    (hd : d ∈ u.constructors) {arguments arguments' : List Value} {v w : Value}
    (hv : c.call arguments = .ok v) (hw : d.call arguments' = .ok w) :
    v.equals w = true ↔ c.label = d.label ∧ Value.EqualItems arguments arguments' := by
  obtain ⟨hlength, rfl⟩ := (hu.call_eq_ok_iff hc).mp hv
  obtain ⟨hlength', rfl⟩ := (hu.call_eq_ok_iff hd).mp hw
  rw [Value.equals_tagged_iff]
  constructor
  · rintro ⟨-, hlabel, -, hpayload⟩
    cases hu.eq_of_label_eq hc hd hlabel
    exact ⟨hlabel, (Constructor.equals_payload_iff (hlength.trans hlength'.symm)).mp hpayload⟩
  · rintro ⟨hlabel, hitems⟩
    cases hu.eq_of_label_eq hc hd hlabel
    exact ⟨rfl, hlabel, rfl,
      (Constructor.equals_payload_iff (hlength.trans hlength'.symm)).mpr hitems⟩

/-- As both unions are arbitrary, the last part holds in both directions. -/
theorem constructors_told_apart {id : Nat} {descriptor : Value} {u : Union}
    (hu : define id descriptor = .ok u) {c : Constructor} (hc : c ∈ u.constructors)
    (arguments : List Value) :
    ((∃ v, c.call arguments = .ok v) ↔ arguments.length = c.arity) ∧
    ∀ v, c.call arguments = .ok v →
      (∀ d ∈ u.constructors, ∀ arguments' w, d.call arguments' = .ok w →
        (v.equals w = true ↔ c.label = d.label ∧ Value.EqualItems arguments arguments') ∧
        (c.is w = true ↔ c.label = d.label)) ∧
      ∀ id' descriptor' u', define id' descriptor' = .ok u' → u'.name ≠ u.name →
        ∀ d ∈ u'.constructors, ∀ arguments' w, d.call arguments' = .ok w →
          v.equals w = false ∧ c.is w = false ∧ (Definition.union u).is w = false := by
  have proper := define_wellFormed hu
  refine ⟨Constructor.exists_call_iff, fun v hv => ⟨?_, ?_⟩⟩
  · intro d hd arguments' w hw
    refine ⟨proper.equals_call_iff hc hd hv hw, ?_⟩
    obtain ⟨-, rfl⟩ := (proper.call_eq_ok_iff hd).mp hw
    rw [Constructor.is_tagged, proper.typeName_eq c hc]
    exact ⟨fun h => h.2.symm, fun h => ⟨rfl, h.symm⟩⟩
  · intro id' descriptor' u' hu' hname d hd arguments' w hw
    have proper' := define_wellFormed hu'
    obtain ⟨-, rfl⟩ := (proper.call_eq_ok_iff hc).mp hv
    obtain ⟨-, rfl⟩ := (proper'.call_eq_ok_iff hd).mp hw
    simp only [← Bool.not_eq_true]
    refine ⟨?_, ?_, ?_⟩
    · intro hequals
      exact hname (Value.equals_tagged_iff.mp hequals).1.symm
    · intro his
      exact hname ((Constructor.is_tagged.mp his).1.trans (proper.typeName_eq c hc))
    · intro his
      exact hname (by simpa [Definition.is, Value.tags, Definition.name] using his)

def pair : Union :=
  ⟨0, "Pair", [⟨0, "Pair", "One", 1⟩, ⟨0, "Pair", "Two", 2⟩]⟩

theorem define_pair : define 0 (describe "Pair" [("One", 1), ("Two", 2)]) = .ok pair :=
  define_describe (by decide) (by decide) (by decide +kernel) (by decide)

/-- A list as the one argument and its items as two arguments give the same payload. -/
theorem constructors_told_apart_pair :
    define 0 (describe "Pair" [("One", 1), ("Two", 2)]) = .ok pair ∧
      define 0 (describe "Maybe" [("Just", 1), ("Nothing", 0)]) = .ok maybe ∧
      ∃ one two just,
        Constructor.call ⟨0, "Pair", "One", 1⟩ [.list [.null, .bool true]] = .ok one ∧
        Constructor.call ⟨0, "Pair", "Two", 2⟩ [.null, .bool true] = .ok two ∧
        Constructor.call ⟨0, "Maybe", "Just", 1⟩ [.null] = .ok just ∧
        one.tags.payload = two.tags.payload ∧ one.equals two = false ∧ one.equals just = false := by
  have hone : (⟨0, "Pair", "One", 1⟩ : Constructor) ∈ pair.constructors := by decide
  obtain ⟨hexists, happart⟩ :=
    constructors_told_apart define_pair hone [.list [.null, .bool true]]
  obtain ⟨one, hcall⟩ := hexists.mpr rfl
  obtain ⟨hsame, hother⟩ := happart one hcall
  refine ⟨define_pair, define_maybe, one, _, _, hcall, rfl, rfl, ?_, ?_, ?_⟩
  · cases hcall
    rfl
  · have hiff := (hsame ⟨0, "Pair", "Two", 2⟩ (by decide) [.null, .bool true] _ rfl).1
    rw [← Bool.not_eq_true, hiff]
    simp
  · exact (hother 0 _ maybe define_maybe (by decide) ⟨0, "Maybe", "Just", 1⟩ (by decide) [.null] _
      rfl).1

end Union
end TaggedData
