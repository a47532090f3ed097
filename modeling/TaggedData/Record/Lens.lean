import TaggedData.Record.Descriptor

/-!
# Lenses

A lens reads and replaces one field of the values of a record. It goes by the type name
of a value and by its payload being a keyed structure. The new value of a field is not
checked against the type of the field.
-/

namespace TaggedData

namespace Record

/-- In the order of declaration. -/
def lenses (r : Record) : List Lens :=
  r.lensTable.map Prod.snd

def lens? (r : Record) (field : String) : Option Lens :=
  Keyed.find? field r.lensTable

theorem lensTable_eq (r : Record) :
    r.lensTable = r.fields.map fun (field, _) => (field, ⟨r.name, field⟩) := by
  rw [r.inStep, r.keys_eq, Lens.table, List.map_map]
  rfl

theorem lenses_eq (r : Record) : r.lenses = r.fields.map fun (field, _) => ⟨r.name, field⟩ := by
  rw [lenses, lensTable_eq, List.map_map]
  rfl

end Record

namespace Lens

/-- The fields that a lens can look into. -/
def focus? (l : Lens) : Value → Option (Keyed Value)
  | .tagged typeName _ _ (.object fields) => if typeName = l.owner then some fields else none
  | _ => none

def view (l : Lens) (target : Value) : Option Value :=
  (l.focus? target).bind (Keyed.find? l.field)

/-- Replaces the field by what `f` makes of its value. -/
def modify (l : Lens) (target : Value) (f : Value → Value) : Except Fault Value :=
  match target, l.focus? target with
  | .tagged typeName label form _, some fields =>
    let current := (Keyed.find? l.field fields).getD .nil
    .ok (.tagged typeName label form (.object (Keyed.put l.field (f current) fields)))
  | _, _ => .error (.cannotFocus l.owner l.field target)

def set (l : Lens) (target v : Value) : Except Fault Value :=
  l.modify target fun _ => v

end Lens
end TaggedData
