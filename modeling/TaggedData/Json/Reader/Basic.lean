import TaggedData.Json.ReadError

/-!
# Reading the parts of a document

Each reader takes the unread text and gives back what it read together with the rest,
which is shorter; the readers of whole documents terminate because of that. An error is
noticed either after the characters that show it were used or while looking at the next
character, which then counts as one more byte.
-/

namespace TaggedData
namespace Json

/-- A text left over from `s` after at least one character was used. -/
abbrev Rest (s : List Char) := { r : List Char // r.length < s.length }

abbrev Reading (α : Type) (s : List Char) := Except ReadError (α × Rest s)

def Rest.weaken {s t : List Char} (h : s.length ≤ t.length) (r : Rest s) : Rest t :=
  ⟨r.val, Nat.lt_of_lt_of_le r.property h⟩

def Reading.weaken {α : Type} {s t : List Char} (h : s.length ≤ t.length) (r : Reading α s) :
    Reading α t :=
  r.map fun (a, rest) => (a, rest.weaken h)

/-- An error noticed with all of `rest` unread. -/
def failAt {α : Type} (d : Defect) (rest : List Char) : Except ReadError α :=
  .error ⟨d, byteLength rest, []⟩

/-- An error noticed by looking at the next byte. -/
def failBefore {α : Type} (d : Defect) (rest : List Char) : Except ReadError α :=
  .error ⟨d, byteLength rest - 1, []⟩

/-- The four characters that may stand between the parts of a document. -/
def isSpace (c : Char) : Bool :=
  c = ' ' || c = '\n' || c = '\t' || c = '\r'

def skipSpace (s : List Char) : List Char :=
  s.dropWhile isSpace

theorem length_skipSpace_le (s : List Char) : (skipSpace s).length ≤ s.length := by
  unfold skipSpace
  induction s with
  | nil => simp
  | cons c rest ih =>
    rw [List.dropWhile_cons]
    split
    · simp only [List.length_cons]
      omega
    · exact Nat.le_refl _

/-- The rest of a word whose first letter was seen. -/
def readWord : List Char → List Char → Except ReadError (List Char)
  | [], s => .ok s
  | _ :: _, [] => failAt .endInValue []
  | expected :: word, c :: rest =>
    if c = expected then readWord word rest else failBefore .wordExpected (c :: rest)

theorem length_readWord {word s r : List Char} (h : readWord word s = .ok r) :
    r.length ≤ s.length := by
  induction word generalizing s with
  | nil => simp_all [readWord]
  | cons e word ih =>
    cases s with
    | nil => simp [readWord, failAt] at h
    | cons c rest =>
      by_cases hc : c = e
      · simp only [readWord, hc, ↓reduceIte] at h
        have := ih h
        simp only [List.length_cons]
        omega
      · simp [readWord, hc, failBefore] at h

def hexValue? (c : Char) : Option Nat :=
  if '0' ≤ c ∧ c ≤ '9' then some (c.toNat - '0'.toNat)
  else if 'a' ≤ c ∧ c ≤ 'f' then some (c.toNat - 'a'.toNat + 10)
  else if 'A' ≤ c ∧ c ≤ 'F' then some (c.toNat - 'A'.toNat + 10)
  else none

/-- Four hexadecimal digits. Four bytes are used before they are looked at. -/
def readHex (s : List Char) : Reading Nat s :=
  match s with
  | a :: b :: c :: d :: rest =>
    match hexValue? a, hexValue? b, hexValue? c, hexValue? d with
    | some a, some b, some c, some d =>
      .ok (((a * 16 + b) * 16 + c) * 16 + d, ⟨rest, by simp only [List.length_cons]; omega⟩)
    | _, _, _, _ => .error ⟨.invalidEscape, byteLength s - 4, []⟩
  | _ =>
    if 4 ≤ byteLength s then .error ⟨.invalidEscape, byteLength s - 4, []⟩
    else failAt .endInString []

/-- The second half of a character outside the basic plane, after its first half. -/
def readTrailing (leading : Nat) (s : List Char) : Reading Char s :=
  match s with
  | [] => failAt .endInString []
  | '\\' :: [] => failAt .endInString []
  | '\\' :: 'u' :: rest => do
    let (trailing, rest') ← readHex rest
    if 0xdc00 ≤ trailing ∧ trailing ≤ 0xdfff then
      .ok (Char.ofNat ((leading - 0xd800) * 0x400 + (trailing - 0xdc00) + 0x10000),
        rest'.weaken (by simp only [List.length_cons]; omega))
    else
      failAt .loneSurrogate rest'.val
  | '\\' :: c :: rest => failBefore .hexEscapeEnds (c :: rest)
  | c :: rest => failBefore .hexEscapeEnds (c :: rest)

def readEscape (s : List Char) : Reading Char s :=
  match s with
  | [] => failAt .endInString []
  | c :: rest =>
    let done (c : Char) : Reading Char (c :: rest) := .ok (c, ⟨rest, by simp⟩)
    match c with
    | '"' => done '"'
    | '\\' => done '\\'
    | '/' => done '/'
    | 'b' => done '\x08'
    | 'f' => done '\x0c'
    | 'n' => done '\n'
    | 'r' => done '\r'
    | 't' => done '\t'
    | 'u' => do
      let (code, rest') ← readHex rest
      if 0xdc00 ≤ code ∧ code ≤ 0xdfff then
        failAt .loneSurrogate rest'.val
      else if 0xd800 ≤ code ∧ code ≤ 0xdbff then
        let (c, rest'') ← readTrailing code rest'.val
        .ok (c, ⟨rest''.val, by have := rest''.property; have := rest'.property; simp only [List.length_cons]; omega⟩)
      else
        .ok (Char.ofNat code, rest'.weaken (by simp))
    | _ => failBefore .invalidEscape (c :: rest)

/-- The characters of a string up to its closing quote, after the opening one. -/
def readString (s : List Char) : Reading (List Char) s :=
  match s with
  | [] => failAt .endInString []
  | c :: rest =>
    if c = '"' then
      .ok ([], ⟨rest, Nat.lt_succ_self rest.length⟩)
    else if c = '\\' then
      match readEscape rest with
      | .error e => .error e
      | .ok (c, rest') =>
        have hlt : rest'.val.length < rest.length + 1 := Nat.lt_succ_of_lt rest'.property
        (readString rest'.val).map fun (cs, rest'') =>
          (c :: cs, ⟨rest''.val, Nat.lt_trans rest''.property hlt⟩)
    else if c.toNat < 0x20 then
      failAt .controlCharacter rest
    else
      (readString rest).map fun (cs, rest') => (c :: cs, rest'.weaken (Nat.le_succ rest.length))
termination_by s.length
decreasing_by
  · exact hlt
  · exact Nat.lt_succ_self rest.length

end Json
end TaggedData
