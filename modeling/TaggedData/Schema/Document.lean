import TaggedData.Json.Reader.Skip
import TaggedData.Schema.Loading

/-!
# Reading schema documents

A schema document is an object with the keys `types` and `records`, each of which may be
missing, or a list of the two.
Other keys are passed over, and so is everything behind the document. The descriptors
themselves are plain documents at this stage.
-/

namespace TaggedData

namespace SchemaDocument

open Json

/-- The error for a value of the wrong kind. A scalar is read before it is refused, a
container is not entered. -/
def refuseKind {α : Type} (expected : String) (s : List Char) : Except ReadError α :=
  let word (letters rest : List Char) (found : Found) : Except ReadError α :=
    match readWord letters rest with
    | .error e => .error e
    | .ok rest' => failAt (.wrongKind found expected) rest'
  let number (negative : Bool) (digits : List Char) : Except ReadError α :=
    match readNumber negative digits with
    | .error e => .error e
    | .ok (n, rest) => failAt (.wrongKind (.number n) expected) rest
  match s with
  | [] => failBefore .endInValue []
  | c :: rest =>
    match Opening.of c with
    | .null => word ['u', 'l', 'l'] rest .null
    | .yes => word ['r', 'u', 'e'] rest (.bool true)
    | .no => word ['a', 'l', 's', 'e'] rest (.bool false)
    | .minus => number true rest
    | .digit => number false (c :: rest)
    | .string =>
      match readString rest with
      | .error e => .error e
      | .ok (cs, rest') => failAt (.wrongKind (.string (String.ofList cs)) expected) rest'.val
    | .list => failAt (.wrongKind .array expected) (c :: rest)
    | .object => failAt (.wrongKind .object expected) (c :: rest)
    | .other => failBefore .valueExpected (c :: rest)

def readDescriptors (s : List Char) : Reading (List Json) s :=
  have hs := length_skipSpace_le s
  match h : skipSpace s with
  | '[' :: rest =>
    (readItems (depthLimit - 2) 0 true rest).weaken (by
      simp only [h, List.length_cons] at hs
      omega)
  | t => refuseKind "a sequence" t

/-- Whether a list that has all its elements ends here. -/
def readListEnd (s : List Char) : Except ReadError Unit :=
  match skipSpace s with
  | [] => failBefore .endInList []
  | ']' :: _ => .ok ()
  | ',' :: rest =>
    match skipSpace rest with
    | ']' :: rest' => failBefore .trailingComma (']' :: rest')
    | t => failBefore .trailingCharacters t
  | t => failBefore .trailingCharacters t

/-- Reads the form of a list, after the opening bracket. -/
def readPair (s : List Char) : Except ReadError SchemaDocument :=
  match nextItem true s with
  | .error e => .error e
  | .ok (.ended _) => .ok ⟨[], []⟩
  | .ok (.item t _) =>
    match readDescriptors t with
    | .error e => .error (e.within (.index 0))
    | .ok (types, rest) =>
      match nextItem false rest.val with
      | .error e => .error e
      | .ok (.ended _) => .ok ⟨types, []⟩
      | .ok (.item t _) =>
        match readDescriptors t with
        | .error e => .error (e.within (.index 1))
        | .ok (records, rest) => (readListEnd rest.val).map fun _ => ⟨types, records⟩

/-- The error for a key that was given before. It is placed behind the key and what
would end the object there. -/
def refuseRepeated {α : Type} (name : String) (afterKey : List Char) : Except ReadError α :=
  match skipSpace afterKey with
  | '}' :: rest => failAt (.repeatedField name) rest
  | t => failAt (.repeatedField name) t

/-- Reads the form of an object, after the opening brace. -/
def readFields (first : Bool) (types records : Option (List Json)) (s : List Char) :
    Except ReadError SchemaDocument :=
  match nextMember first s with
  | .error e => .error (e.within .unknown)
  | .ok (.ended _) => .ok ⟨types.getD [], records.getD []⟩
  | .ok (.key t) =>
    match hk : readKey t.val with
    | .error e => .error e
    | .ok (key, afterKey) =>
      if key = "types" ∧ types.isSome ∨ key = "records" ∧ records.isSome then
        refuseRepeated key afterKey
      else
        match hc : readColon afterKey with
        | .error e => .error e
        | .ok afterColon =>
          have hcolon : afterColon.length < s.length := by
            have h1 := length_readKey hk
            have h2 := length_readColon hc
            have h3 := t.property
            simp only at h1
            omega
          if key = "types" ∨ key = "records" then
            match readDescriptors afterColon with
            | .error e => .error (e.within (.key key))
            | .ok (descriptors, rest) =>
              have : rest.val.length < s.length := Nat.lt_trans rest.property hcolon
              if key = "types" then readFields false (some descriptors) records rest.val
              else readFields false types (some descriptors) rest.val
          else
            match skipValue afterColon with
            | .error e => .error (e.within (.key key))
            | .ok rest =>
              have : rest.val.length < s.length := Nat.lt_trans rest.property hcolon
              readFields false types records rest.val
termination_by s.length

/-- Reads the first value of a text as a schema document. -/
def read (text : List Char) : Except ReadError SchemaDocument :=
  match skipSpace text with
  | '[' :: rest => readPair rest
  | '{' :: rest => readFields true none none rest
  | t => refuseKind "struct SchemaDoc" t

def parse : SchemaReader := fun text =>
  (read text.toList).mapError fun e => ⟨PathStep.pathText e.path, e.message text.toList⟩

end SchemaDocument

/-- The schema of a text, read by the reader of this library. -/
def Schema.ofText (firstId : Nat) (text : String) : Except Fault Schema :=
  load SchemaDocument.parse firstId text

end TaggedData
