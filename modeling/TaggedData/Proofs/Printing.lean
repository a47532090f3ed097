import TaggedData.Proofs.ReadingSteps
import TaggedData.Schema.Document

/-!
# What is printed is read back

The compact form of a document is read as the document itself, if its numbers are integers,
no object has a key twice and it is not nested too deeply. So is a schema document that is
printed as an object with its two lists.
-/

namespace TaggedData
namespace Json

theorem compactAll_eq_map (items : List Json) : compactAll items = items.map compact := by
  induction items with
  | nil => rfl
  | cons j rest ih => rw [compactAll, ih, List.map_cons]

def memberText (entry : String × Json) : List Char :=
  '"' :: (entry.1.toList.flatMap escapeChar ++ '"' :: ':' :: (compact entry.2).toList)

theorem memberText_append (entry : String × Json) (t : List Char) : memberText entry ++ t =
    '"' :: (entry.1.toList.flatMap escapeChar ++
      '"' :: ':' :: ((compact entry.2).toList ++ t)) := by
  simp [memberText]

theorem compactFields_eq_map (fields : Keyed Json) :
    (compactFields fields).map String.toList = fields.map memberText := by
  induction fields with
  | nil => rfl
  | cons entry rest ih =>
    rw [compactFields, List.map_cons, List.map_cons, ih]
    simp [memberText, quote]

/-- The parts behind the first one, each after its comma. -/
theorem intercalate_comma (a : List Char) (parts : List (List Char)) :
    [','].intercalate (a :: parts) = a ++ parts.flatMap (',' :: ·) := by
  induction parts generalizing a with
  | nil => simp [List.intercalate]
  | cons b rest ih => simpa [List.intercalate] using ih b

def listText : List Json → List Char
  | [] => [']']
  | j :: items =>
    (compact j).toList ++ (items.flatMap (fun j => ',' :: (compact j).toList) ++ [']'])

theorem toList_compact_array (items : List Json) :
    (compact (.array items)).toList = '[' :: listText items := by
  cases items with
  | nil => rfl
  | cons j items =>
    simp [compact, compactAll_eq_map, intercalate_comma, List.flatMap_map, listText]

theorem toList_compact_object (entry : String × Json) (entries : Keyed Json) :
    (compact (.object (entry :: entries))).toList = '\x7b' ::
      (memberText entry ++ (entries.flatMap (fun e => ',' :: memberText e) ++ ['\x7d'])) := by
  simp [compact, compactFields_eq_map, intercalate_comma, List.flatMap_map]

/-- Documents with integers only, in which no object has a key twice and containers are nested
less than `depth` deep. -/
inductive Plain : Nat → Json → Prop
  | null {depth} : Plain depth .null
  | bool {depth b} : Plain depth (.bool b)
  | integer {depth n inRange} : Plain depth (.number (.integer n inRange))
  | string {depth text} : Plain depth (.string text)
  | array {depth items} (inner : ∀ j ∈ items, Plain (depth + 1) j) :
      Plain (depth + 2) (.array items)
  | object {depth fields} (unique : Keyed.Unique fields)
      (inner : ∀ entry ∈ fields, Plain (depth + 1) entry.2) : Plain (depth + 2) (.object fields)

@[simp] theorem plain_string (depth : Nat) (text : String) : Plain depth (.string text) :=
  .string

@[simp] theorem plain_array {depth : Nat} {items : List Json} :
    Plain (depth + 2) (.array items) ↔ ∀ j ∈ items, Plain (depth + 1) j :=
  ⟨fun | .array inner => inner, .array⟩

@[simp] theorem plain_object {depth : Nat} {fields : Keyed Json} :
    Plain (depth + 2) (.object fields) ↔
      Keyed.Unique fields ∧ ∀ entry ∈ fields, Plain (depth + 1) entry.2 :=
  ⟨fun | .object unique inner => ⟨unique, inner⟩, fun ⟨unique, inner⟩ => .object unique inner⟩

/-- A document whose text starts like a value and is read as the document. -/
structure ReadBack (depth : Nat) (j : Json) : Prop where
  starts : ∃ c t, (compact j).toList = c :: t ∧ isSpace c = false ∧ c ≠ ']'
  gives : ∀ rest, Ends rest → (readValue depth ((compact j).toList ++ rest)).Gives j rest

section Compact

variable {depth index : Nat} {items : List Json} {fields before : Keyed Json}

theorem ends_cons {c : Char} (hc : c = ',' ∨ c = ']' ∨ c = '\x7d') (t : List Char) :
    Ends (c :: t) := by
  rintro _ _ ⟨⟩
  rcases hc with rfl | rfl | rfl <;> decide

theorem wholeNumber_toDigits {negative : Bool} {m : Nat} {n : Int} {rest : List Char}
    (inRange : -2 ^ (63 : Nat) ≤ n ∧ n < 2 ^ (64 : Nat))
    (hn : (if negative then -(m : Int) else m) = n) (hzero : ¬(negative = true ∧ m = 0)) :
    wholeNumber negative (Nat.toDigits 10 m) rest = .ok (.integer n inRange) := by
  subst hn
  simp only [wholeNumber, natOfDigits_toDigits]
  exact dif_pos ⟨inRange, hzero⟩

theorem readBack_integer (n : Int) {inRange} : ReadBack depth (.number (.integer n inRange)) := by
  cases n with
  | ofNat m =>
    have htext : (compact (.number (.integer (.ofNat m) inRange))).toList = Nat.toDigits 10 m :=
      Nat.toList_repr
    obtain ⟨c, t, hdigits⟩ := List.exists_cons_of_ne_nil (Nat.toDigits_ne_nil (b := 10) (n := m))
    have hc : c.isDigit = true :=
      Nat.isDigit_of_mem_toDigits (b := 10) (n := m) (by decide) (by decide) (by simp [hdigits])
    refine ⟨⟨c, t, htext.trans hdigits, isSpace_of_isDigit hc, ?_⟩, fun rest hrest => ?_⟩
    · rintro rfl
      cases hc
    · have hnumber := readNumber_toDigits false m hrest
      rw [wholeNumber_toDigits inRange rfl (by simp)] at hnumber
      rw [htext]
      rw [hdigits, List.cons_append] at hnumber ⊢
      exact readValue_digit hc hnumber
  | negSucc m =>
    have htext : (compact (.number (.integer (.negSucc m) inRange))).toList =
        '-' :: Nat.toDigits 10 (m + 1) := by
      change ("-" ++ Nat.repr (m + 1)).toList = _
      simp
    refine ⟨⟨_, _, htext, rfl, by decide⟩, fun rest hrest => ?_⟩
    have hnumber := readNumber_toDigits true (m + 1) hrest
    rw [wholeNumber_toDigits inRange rfl (by simp)] at hnumber
    rw [htext]
    exact readValue_minus hnumber

theorem ends_items (items : List Json) (rest : List Char) :
    Ends (items.flatMap (fun j => ',' :: (compact j).toList) ++ ']' :: rest) := by
  cases items <;> exact ends_cons (by simp) _

theorem ends_members (fields : Keyed Json) (rest : List Char) :
    Ends (fields.flatMap (fun e => ',' :: memberText e) ++ '\x7d' :: rest) := by
  cases fields <;> exact ends_cons (by simp) _

theorem readItems_compact (h : ∀ j ∈ items, ReadBack depth j) (rest : List Char) :
    (readItems depth index false
      (items.flatMap (fun j => ',' :: (compact j).toList) ++ ']' :: rest)).Gives items rest := by
  induction items generalizing index with
  | nil =>
    refine ⟨by simp, ?_⟩
    rw [readItems]
    rfl
  | cons j items ih =>
    obtain ⟨hj, hitems⟩ := List.forall_mem_cons.mp h
    obtain ⟨c, t, htext, hspace, hclose⟩ := hj.starts
    have hvalue := hj.gives _ (ends_items items rest)
    rw [List.flatMap_cons, List.cons_append, List.cons_append, List.append_assoc]
    rw [htext, List.cons_append] at hvalue ⊢
    exact readItems_item (nextItem_next hspace hclose) hvalue (ih hitems)

theorem readItems_listText (h : ∀ j ∈ items, ReadBack depth j) (rest : List Char) :
    (readItems depth index true (listText items ++ rest)).Gives items rest := by
  cases items with
  | nil =>
    refine ⟨by simp [listText], ?_⟩
    rw [readItems]
    rfl
  | cons j items =>
    obtain ⟨hj, hitems⟩ := List.forall_mem_cons.mp h
    obtain ⟨c, t, htext, hspace, hclose⟩ := hj.starts
    have hvalue := hj.gives _ (ends_items items rest)
    rw [listText, List.append_assoc, List.append_assoc, List.singleton_append]
    rw [htext, List.cons_append] at hvalue ⊢
    exact readItems_item (nextItem_first hspace hclose) hvalue (readItems_compact hitems rest)

theorem readBack_array (h : ∀ j ∈ items, ReadBack (depth + 1) j) :
    ReadBack (depth + 2) (.array items) := by
  refine ⟨⟨_, _, toList_compact_array items, rfl, by decide⟩, fun rest _ => ?_⟩
  rw [toList_compact_array, List.cons_append]
  exact readValue_list (readItems_listText h rest)

theorem readMembers_compact (hu : Keyed.Unique (before ++ fields))
    (h : ∀ entry ∈ fields, ReadBack depth entry.2) (rest : List Char) :
    (readMembers depth false before
      (fields.flatMap (fun e => ',' :: memberText e) ++ '\x7d' :: rest)).Gives
        (before ++ fields) rest := by
  induction fields generalizing before with
  | nil =>
    refine ⟨by simp, ?_⟩
    rw [readMembers, List.append_nil]
    rfl
  | cons entry fields ih =>
    obtain ⟨key, v⟩ := entry
    obtain ⟨hv, hfields⟩ := List.forall_mem_cons.mp h
    have hfree : Keyed.find? key before = none := by
      refine Keyed.find?_eq_none_iff.mpr fun hmem => ?_
      rw [Keyed.Unique, Keyed.keys, List.map_append, List.nodup_append] at hu
      exact hu.2.2 key hmem key List.mem_cons_self rfl
    rw [List.append_cons before] at hu ⊢
    have hrest := ih hu hfields
    -- The reader puts the member among those before it, and its key is new there.
    rw [← Keyed.put_of_find?_eq_none v hfree] at hrest ⊢
    have hvalue := hv.gives _ (ends_members fields rest)
    rw [List.flatMap_cons, List.append_assoc, List.cons_append, memberText_append]
    exact readMembers_member (nextMember_next _) (readKey_quoted key _) (readColon_cons _) hvalue
      hrest

theorem readBack_object (hu : Keyed.Unique fields)
    (h : ∀ entry ∈ fields, ReadBack (depth + 1) entry.2) :
    ReadBack (depth + 2) (.object fields) := by
  cases fields with
  | nil =>
    refine ⟨⟨'\x7b', ['\x7d'], rfl, rfl, by decide⟩, fun rest _ => readValue_object ⟨by simp, ?_⟩⟩
    rw [readMembers]
    rfl
  | cons entry fields =>
    refine ⟨⟨_, _, toList_compact_object entry fields, rfl, by decide⟩, fun rest _ => ?_⟩
    obtain ⟨key, v⟩ := entry
    obtain ⟨hv, hfields⟩ := List.forall_mem_cons.mp h
    have hvalue := hv.gives _ (ends_members fields rest)
    have hall : Keyed.Unique ([(key, v)] ++ fields) := hu
    have hrest := readMembers_compact hall hfields rest
    rw [toList_compact_object, List.cons_append, List.append_assoc, List.append_assoc,
      List.singleton_append, memberText_append]
    exact readValue_object (readMembers_member (nextMember_first _) (readKey_quoted key _)
      (readColon_cons _) hvalue hrest)

theorem readBack_string (text : String) : ReadBack depth (.string text) := by
  have htext : (compact (.string text)).toList =
      '"' :: (text.toList.flatMap escapeChar ++ ['"']) := by
    simp [compact, quote]
  refine ⟨⟨_, _, htext, rfl, by decide⟩, fun rest _ => ?_⟩
  have hvalue : (readValue depth ('"' :: (text.toList.flatMap escapeChar ++ '"' :: rest))).Gives
      (.string (String.ofList text.toList)) rest :=
    readValue_string (readString_escaped text.toList rest)
  rw [String.ofList_toList] at hvalue
  rw [htext, List.cons_append, List.append_assoc]
  exact hvalue

/-- By induction on the document. -/
theorem Plain.readBack {j : Json} (h : Plain depth j) : ReadBack depth j := by
  induction h with
  | null => exact ⟨⟨'n', _, rfl, rfl, by decide⟩, fun rest _ => readValue_null rest⟩
  | @bool _ b =>
    cases b with
    | false => exact ⟨⟨'f', _, rfl, rfl, by decide⟩, fun rest _ => readValue_false rest⟩
    | true => exact ⟨⟨'t', _, rfl, rfl, by decide⟩, fun rest _ => readValue_true rest⟩
  | integer => exact readBack_integer _
  | string => exact readBack_string _
  | array _ ih => exact readBack_array ih
  | object unique _ ih => exact readBack_object unique ih

theorem read_compact {j : Json} (h : Plain depthLimit j) : read (compact j).toList = .ok j := by
  have hgives := h.readBack.gives [] ends_nil
  rw [List.append_nil] at hgives
  obtain ⟨hlt, hread⟩ := hgives
  rw [read, hread]
  rfl

theorem parse_compact {j : Json} (h : Plain depthLimit j) : parse (compact j) = .ok j := by
  rw [parse, read_compact h]
  rfl

end Compact

end Json

namespace SchemaDocument

open Json

/-- A document as an object with its two lists. -/
def text (document : SchemaDocument) : String :=
  compact (.object [("types", .array document.types), ("records", .array document.records)])

/-- Its descriptors are read one by one. -/
structure Plain (document : SchemaDocument) : Prop where
  types : ∀ j ∈ document.types, Json.Plain (depthLimit - 2) j
  records : ∀ j ∈ document.records, Json.Plain (depthLimit - 2) j

section Reading

variable {first : Bool} {types records : Option (List Json)} {items : List Json}
  {document : SchemaDocument} {s t afterKey afterColon rest : List Char}

theorem readDescriptors_compact (h : ∀ j ∈ items, Json.Plain (depthLimit - 2) j)
    (rest : List Char) :
    (readDescriptors ((compact (.array items)).toList ++ rest)).Gives items rest := by
  have hread : (readItems (depthLimit - 2) 0 true (listText items ++ rest)).Gives items rest :=
    readItems_listText (fun j hj => (h j hj).readBack) rest
  obtain ⟨hlt, hitems⟩ := hread
  rw [toList_compact_array, List.cons_append]
  refine ⟨Nat.lt_succ_of_lt hlt, ?_⟩
  unfold readDescriptors
  split
  · rename_i heq
    cases heq
    rw [hitems]
    rfl
  · rename_i hne
    exact absurd rfl (hne _)

theorem readFields_types {ht : t.length < s.length}
    (hnext : nextMember first s = .ok (.key ⟨t, ht⟩)) (hkey : readKey t = .ok ("types", afterKey))
    (hcolon : readColon afterKey = .ok afterColon)
    (hitems : (readDescriptors afterColon).Gives items rest)
    (hrest : readFields false (some items) records rest = .ok document) :
    readFields first none records s = .ok document := by
  obtain ⟨hlt, hitems⟩ := hitems
  rw [readFields, hnext]
  simp only
  split
  · rename_i heq
    rw [hkey] at heq
    cases heq
  · rename_i heq
    cases hkey.symm.trans heq
    rw [if_neg (by simp)]
    split
    · rename_i heq
      rw [hcolon] at heq
      cases heq
    · rename_i heq
      cases hcolon.symm.trans heq
      simpa [hitems] using hrest

theorem readFields_records {ht : t.length < s.length}
    (hnext : nextMember first s = .ok (.key ⟨t, ht⟩))
    (hkey : readKey t = .ok ("records", afterKey)) (hcolon : readColon afterKey = .ok afterColon)
    (hitems : (readDescriptors afterColon).Gives items rest)
    (hrest : readFields false types (some items) rest = .ok document) :
    readFields first types none s = .ok document := by
  obtain ⟨hlt, hitems⟩ := hitems
  rw [readFields, hnext]
  simp only
  split
  · rename_i heq
    rw [hkey] at heq
    cases heq
  · rename_i heq
    cases hkey.symm.trans heq
    rw [if_neg (by simp)]
    split
    · rename_i heq
      rw [hcolon] at heq
      cases heq
    · rename_i heq
      cases hcolon.symm.trans heq
      simpa [hitems] using hrest

theorem Plain.read_text (h : document.Plain) : read document.text.toList = .ok document := by
  have hend : readFields false (some document.types) (some document.records) ['\x7d'] =
      .ok document := by
    rw [readFields]
    rfl
  have hrecords := readFields_records (nextMember_next _) (readKey_quoted "records" _)
    (readColon_cons _) (readDescriptors_compact h.records _) hend
  have htypes := readFields_types (nextMember_first _) (readKey_quoted "types" _)
    (readColon_cons _) (readDescriptors_compact h.types _) hrecords
  rw [text, toList_compact_object, memberText_append, List.flatMap_cons, List.flatMap_nil,
    List.append_nil, List.cons_append, memberText_append]
  exact htypes

end Reading

theorem Plain.parse_text {document : SchemaDocument} (h : document.Plain) :
    parse document.text = .ok document := by
  rw [parse, h.read_text]
  rfl

end SchemaDocument
end TaggedData
