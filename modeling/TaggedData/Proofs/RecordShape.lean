import TaggedData.Proofs.Provenance

/-!
# The shape of record values

Along every run a value of a record has exactly the fields of the record. Their values are
of the declared types as long as no lens put another value there: a lens replaces the value
of a field without a look at its type.
-/

namespace TaggedData
namespace History

/-- A value of a record whose name nothing else has. -/
theorem record_shape_along_run {h : History} (run : h.Run) {r : Record}
    (only : ∀ d, h.Knows d → d.name = r.name → d = .record r) {v : Value} (holds : h.Holds v)
    (typed : v.isTagged = true) (is : (Definition.record r).is v = true) :
    ∃ fields, v = r.instanceOf fields ∧
      (∀ name, name ∈ Keyed.keys fields ↔ name ∈ Keyed.keys r.fields) ∧
      (∀ name type w, r.fieldType? name = some type → Keyed.find? name fields = some w →
        type.admits w = true ∨ h.Written ⟨r.name, name⟩ w) ∧
      (r.of (.object fields) = .ok v ↔ ∀ name type w, r.fieldType? name = some type →
        Keyed.find? name fields = some w → h.Written ⟨r.name, name⟩ w → type.admits w = true) := by
  have hs := run.sound
  obtain ⟨d, horigin⟩ := hs.exists_origin holds typed
  obtain ⟨hd, hshaped⟩ := hs.shaped v d horigin
  have hdr := only d hd (hshaped.is_iff.mp is).symm
  subst hdr
  cases hshaped with
  | @record _ fields all others values =>
    have hkeys : ∀ name, name ∈ Keyed.keys fields ↔ name ∈ Keyed.keys r.fields := by
      intro name
      refine ⟨fun hname => ?_, all name⟩
      obtain ⟨s, hs, hname', hfield⟩ := others name hname
      cases only (.record s) hs hname'
      exact hfield
    refine ⟨fields, rfl, hkeys, values, fun hof => ?_, fun hwritten => ?_⟩
    · intro name type w htype hw _
      exact (Record.of_object_eq_ok_iff.mp hof).2.1.admitted name type w htype hw
    have haccepts : r.Accepts fields := by
      refine ⟨hkeys, fun name type w htype hw => ?_⟩
      rcases values name type w htype hw with hadmits | h
      · exact hadmits
      · exact hwritten name type w htype hw h
    have hne : fields ≠ [] := by
      rintro rfl
      cases hs.wellFormed hd with
      | record distinct _ =>
        obtain ⟨⟨name, type⟩, hfield⟩ := List.exists_mem_of_ne_nil _ distinct.fields_ne
        exact absurd ((hkeys name).mpr (Keyed.mem_keys_of_mem hfield)) List.not_mem_nil
    exact Record.of_object_eq_ok_iff.mpr ⟨hne, haccepts, rfl⟩

def point : Record :=
  .ofTypes 0 "Point" [("x", .single (.primitive .number))]

def origin : Keyed Value :=
  [("x", .number (.zero false))]

def moved : Keyed Value :=
  [("x", .string "a")]

/-- A point is defined, one is made, and a lens puts a text into it. -/
def movedPoint : History :=
  [.performed (.modify ⟨"Point", "x"⟩ (point.instanceOf origin) fun _ => .string "a")
      (point.instanceOf moved),
    .performed (.of point (.object origin)) (point.instanceOf origin),
    .defined (.record point)]

theorem of_point_iff {v w : Value} :
    point.of (.object [("x", v)]) = .ok w ↔
      Primitive.number.admits v = true ∧ w = point.instanceOf [("x", v)] :=
  Record.of_single_iff

theorem available_point (h : History) :
    h.Available (Record.describe "Point" [("x", .primitive .number)]) := by
  apply available_record
  simp [Available, Value.madeOf_object, Value.madeOf_atom, Keyed.Unique]

theorem available_origin (h : History) : h.Available (.object origin) := by
  simp [Available, origin, Value.madeOf_object, Value.madeOf_atom, Keyed.Unique]

theorem run_movedPoint : movedPoint.Run := by
  have host : Host := ⟨fun _ _ => .nil, 0⟩
  have hdefine : Record.define 0 (Record.describe "Point" [("x", .primitive .number)]) =
      .ok point := rfl
  have hdefined := Run.record .start (available_point []) hdefine
  have hof : Operation.perform host (.of point (.object origin)) = .ok (point.instanceOf origin) :=
    of_point_iff.mpr ⟨rfl, rfl⟩
  have hmade : Run (.performed (.of point (.object origin)) (point.instanceOf origin) ::
      [.defined (.record point)]) := .operation hdefined ⟨List.mem_cons_self, available_origin _⟩ hof
  have hmodify : Operation.perform host (.modify ⟨"Point", "x"⟩ (point.instanceOf origin)
      fun _ => .string "a") = .ok (point.instanceOf moved) := rfl
  refine Run.operation hmade ⟨⟨point, ?_, ?_⟩, ?_, fun _ _ => ?_⟩ hmodify
  · exact List.mem_cons_of_mem _ List.mem_cons_self
  · decide
  · refine Value.madeOf_tagged.mpr ⟨⟨_, ⟨_, List.mem_cons_self⟩, .refl _⟩, available_origin _⟩
  · exact Value.madeOf_atom rfl

/-- The moved point is still a point, and would not be accepted again. -/
theorem lens_breaks_shape :
    movedPoint.Run ∧ movedPoint.Knows (.record point) ∧
      (∀ d, movedPoint.Knows d → d = .record point) ∧ movedPoint.Holds (point.instanceOf moved) ∧
      (Definition.record point).is (point.instanceOf moved) = true ∧
      ∀ w, point.of (.object moved) ≠ .ok w := by
  refine ⟨run_movedPoint, ?_, ?_, ?_, rfl, ?_⟩
  · simp [Knows, movedPoint]
  · simp [Knows, movedPoint]
  · exact ⟨_, ⟨_, List.mem_cons_self⟩, .refl _⟩
  · intro w hof
    cases (of_point_iff.mp hof).1

theorem record_shape_along_run_movedPoint :
    movedPoint.Run ∧ ∃ fields, point.instanceOf moved = point.instanceOf fields ∧
      (∀ name, name ∈ Keyed.keys fields ↔ name ∈ Keyed.keys point.fields) ∧
      ∀ w, Keyed.find? "x" fields = some w →
        Primitive.number.admits w = true ∨ movedPoint.Written ⟨"Point", "x"⟩ w := by
  have only : ∀ d, movedPoint.Knows d → d.name = point.name → d = .record point := by
    intro d hd _
    simpa [Knows, movedPoint] using hd
  obtain ⟨fields, hfields, hkeys, hvalues, -⟩ := record_shape_along_run run_movedPoint only
    ⟨_, ⟨_, List.mem_cons_self⟩, .refl (point.instanceOf moved)⟩ rfl rfl
  exact ⟨run_movedPoint, fields, hfields, hkeys, fun w hw =>
    hvalues "x" (.single (.primitive .number)) w rfl hw⟩

end History
end TaggedData
