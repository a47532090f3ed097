import TaggedData.Json.Reader.Number

/-!
# Reading documents

Containers may be nested 127 deep. A key that is given again keeps its first place in
the object and takes the last value. Errors carry the way to the place where they were
noticed: an error between two elements belongs to the list, an error inside an element
to that element, and an error in a key has no key to name.
-/

namespace TaggedData
namespace Json

/-- How many containers a document may be in, plus one. -/
def depthLimit : Nat := 128

def readKey (s : List Char) : Except ReadError (String × List Char) :=
  match readString s with
  | .error e => .error (e.within .unknown)
  | .ok (key, rest) => .ok (String.ofList key, rest.val)

theorem length_readKey {s : List Char} {r : String × List Char} (h : readKey s = .ok r) :
    r.2.length < s.length := by
  unfold readKey at h
  split at h
  · simp at h
  · rename_i key rest _
    simp only [Except.ok.injEq] at h
    subst h
    exact rest.property

/-- The colon behind a key. It is not part of the key, so an error there belongs to the
object. -/
def readColon (s : List Char) : Except ReadError (List Char) :=
  match skipSpace s with
  | [] => failBefore .endInObject []
  | ':' :: rest => .ok rest
  | t => failBefore .colonExpected t

theorem length_readColon {s r : List Char} (h : readColon s = .ok r) : r.length < s.length := by
  unfold readColon at h
  have hs := length_skipSpace_le s
  split at h
  · simp [failBefore] at h
  · rename_i rest heq
    rw [heq] at hs
    simp only [Except.ok.injEq] at h
    subst h
    simp only [List.length_cons] at hs
    omega
  · simp [failBefore] at h

inductive NextItem (s : List Char) where
  | item (rest : List Char) (h : rest.length ≤ s.length)
  | ended (rest : Rest s)

def nextItem (first : Bool) (s : List Char) : Except ReadError (NextItem s) :=
  have hs := length_skipSpace_le s
  match h : skipSpace s with
  | [] => failBefore .endInList []
  | c :: rest =>
    if c = ']' then
      .ok (.ended ⟨rest, by simp only [h, List.length_cons] at hs; omega⟩)
    else if first then
      .ok (.item (c :: rest) (by simpa [h] using hs))
    else if c = ',' then
      match skipSpace rest with
      | [] => failBefore .endInValue []
      | ']' :: rest' => failBefore .trailingComma (']' :: rest')
      | _ => .ok (.item rest (by simp only [h, List.length_cons] at hs; omega))
    else
      failBefore .listSeparatorExpected (c :: rest)

inductive NextMember (s : List Char) where
  | key (rest : Rest s)
  | ended (rest : Rest s)

def nextMember (first : Bool) (s : List Char) : Except ReadError (NextMember s) :=
  have hs := length_skipSpace_le s
  match h : skipSpace s with
  | [] => failBefore .endInObject []
  | c :: rest =>
    have hlt : rest.length < s.length := by
      simp only [h, List.length_cons] at hs
      omega
    if c = '}' then
      .ok (.ended ⟨rest, hlt⟩)
    else if first then
      if c = '"' then .ok (.key ⟨rest, hlt⟩) else failBefore .keyNotString (c :: rest)
    else if c = ',' then
      have hr := length_skipSpace_le rest
      match h' : skipSpace rest with
      | [] => failBefore .endInValue []
      | c' :: rest' =>
        if c' = '"' then
          .ok (.key ⟨rest', by simp only [h', List.length_cons] at hr; omega⟩)
        else if c' = '}' then failBefore .trailingComma (c' :: rest')
        else failBefore .keyNotString (c' :: rest')
    else
      failBefore .objectSeparatorExpected (c :: rest)

/-- What a value is going to be, by its first letter. -/
inductive Opening where
  | null
  | yes
  | no
  | minus
  | digit
  | string
  | list
  | object
  | other

def Opening.of (c : Char) : Opening :=
  match c with
  | 'n' => .null
  | 't' => .yes
  | 'f' => .no
  | '-' => .minus
  | '"' => .string
  | '[' => .list
  | '{' => .object
  | _ => if c.isDigit then .digit else .other

mutual

/-- Reads a value in a place where containers may still be nested `depth - 1` deep. -/
def readValue (depth : Nat) (s : List Char) : Reading Json s :=
  have hs := length_skipSpace_le s
  match h : skipSpace s with
  | [] => failBefore .endInValue []
  | c :: rest =>
    have hrest : rest.length < s.length := by
      simp only [h, List.length_cons] at hs
      omega
    let word (letters : List Char) (value : Json) : Reading Json s :=
      match hw : readWord letters rest with
      | .error e => .error e
      | .ok rest' => .ok (value, ⟨rest', by have := length_readWord hw; omega⟩)
    let number (negative : Bool) (digits : List Char) (hd : digits.length ≤ s.length) :
        Reading Json s :=
      match hn : readNumber negative digits with
      | .error e => .error e
      | .ok (n, rest') =>
        .ok (.number n, ⟨rest', by have := length_readNumber hn; simp only at this; omega⟩)
    match Opening.of c with
    | .null => word ['u', 'l', 'l'] .null
    | .yes => word ['r', 'u', 'e'] (.bool true)
    | .no => word ['a', 'l', 's', 'e'] (.bool false)
    | .minus => number true rest (Nat.le_of_lt hrest)
    | .digit => number false (c :: rest) (by simp only [List.length_cons]; omega)
    | .string => (readString rest).map fun (cs, rest') =>
        (.string (String.ofList cs), rest'.weaken (Nat.le_of_lt hrest))
    | .list =>
      if depth ≤ 1 then failBefore .tooDeep (c :: rest)
      else (readItems (depth - 1) 0 true rest).map fun (items, rest') =>
        (.array items, rest'.weaken (Nat.le_of_lt hrest))
    | .object =>
      if depth ≤ 1 then failBefore .tooDeep (c :: rest)
      else (readMembers (depth - 1) true [] rest).map fun (fields, rest') =>
        (.object fields, rest'.weaken (Nat.le_of_lt hrest))
    | .other => failBefore .valueExpected (c :: rest)
termination_by (s.length, 0)
decreasing_by all_goals exact Prod.Lex.left _ _ hrest

def readItems (depth index : Nat) (first : Bool) (s : List Char) : Reading (List Json) s :=
  match nextItem first s with
  | .error e => .error e
  | .ok (.ended rest) => .ok ([], rest)
  | .ok (.item t ht) =>
    match readValue depth t with
    | .error e => .error (e.within (.index index))
    | .ok (item, rest) =>
      have hrest : rest.val.length < s.length := Nat.lt_of_lt_of_le rest.property ht
      (readItems depth (index + 1) false rest.val).map fun (items, rest') =>
        (item :: items, rest'.weaken (Nat.le_of_lt hrest))
termination_by (s.length, 1)
decreasing_by
  · rcases Nat.lt_or_eq_of_le ht with h | h
    · exact Prod.Lex.left _ _ h
    · rw [h]
      exact Prod.Lex.right _ Nat.zero_lt_one
  · exact Prod.Lex.left _ _ hrest

def readMembers (depth : Nat) (first : Bool) (fields : Keyed Json) (s : List Char) :
    Reading (Keyed Json) s :=
  match nextMember first s with
  | .error e => .error (e.within .unknown)
  | .ok (.ended rest) => .ok (fields, rest)
  | .ok (.key t) =>
    match hk : readKey t.val with
    | .error e => .error e
    | .ok (key, afterKey) =>
      match hc : readColon afterKey with
      | .error e => .error e
      | .ok afterColon =>
        have hcolon : afterColon.length < s.length := by
          have h1 := length_readKey hk
          have h2 := length_readColon hc
          have h3 := t.property
          simp only at h1
          omega
        match readValue depth afterColon with
        | .error e => .error (e.within (.key key))
        | .ok (value, rest) =>
          have hrest : rest.val.length < s.length := Nat.lt_trans rest.property hcolon
          (readMembers depth false (Keyed.put key value fields) rest.val).map
            fun (fields, rest') => (fields, rest'.weaken (Nat.le_of_lt hrest))
termination_by (s.length, 1)
decreasing_by
  · exact Prod.Lex.left _ _ hcolon
  · exact Prod.Lex.left _ _ hrest

end

/-- Reads a text that is one document with nothing but space around it. -/
def read (text : List Char) : Except ReadError Json :=
  match readValue depthLimit text with
  | .error e => .error e
  | .ok (value, rest) =>
    match skipSpace rest.val with
    | [] => .ok value
    | t => failBefore .trailingCharacters t

/-- The document of a text, or the message of what is wrong with it. -/
def parse (text : String) : Except String Json :=
  (read text.toList).mapError fun e => e.message text.toList

end Json
end TaggedData
