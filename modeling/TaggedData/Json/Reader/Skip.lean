import TaggedData.Json.Reader.Document

/-!
# Skipping values

A value that nobody asked for is passed over without being built. There is no limit to
its depth, numbers of any size pass, and escapes need not denote characters. As no element
is looked at before its turn, a comma before a closing bracket is noticed only when the
next value is missing.
-/

namespace TaggedData
namespace Json

def skipString (s : List Char) : Except ReadError (Rest s) :=
  match s with
  | [] => failAt .endInString []
  | c :: rest =>
    if c = '"' then .ok ⟨rest, Nat.lt_succ_self rest.length⟩
    else if c = '\\' then
      match rest with
      | [] => failAt .endInString []
      | e :: rest' =>
        if e ∈ ['"', '\\', '/', 'b', 'f', 'n', 'r', 't'] then
          (skipString rest').map (·.weaken (Nat.le_add_right rest'.length 2))
        else if e = 'u' then
          match readHex rest' with
          | .error err => .error err
          | .ok (_, r) =>
            have hlt : r.val.length < rest'.length + 1 + 1 :=
              Nat.lt_succ_of_lt (Nat.lt_succ_of_lt r.property)
            (skipString r.val).map (·.weaken (Nat.le_of_lt hlt))
        else failBefore .invalidEscape (e :: rest')
    else if c.toNat < 0x20 then failAt .controlCharacter (c :: rest)
    else (skipString rest).map (·.weaken (Nat.le_succ rest.length))
termination_by s.length
decreasing_by
  · exact Nat.lt_add_of_pos_right Nat.two_pos
  · exact hlt
  · exact Nat.lt_succ_self rest.length

def skipExponent (s : List Char) : Except ReadError (List Char) :=
  let digits := (Decimal.splitSign s).2
  if leadingDigits digits = [] then failBefore .invalidNumber digits else .ok (afterDigits digits)

def skipNumberTail (s : List Char) : Except ReadError (List Char) :=
  match s with
  | [] => .ok []
  | c :: rest =>
    if c = '.' then
      if leadingDigits rest = [] then failBefore .invalidNumber rest
      else
        match afterDigits rest with
        | [] => .ok []
        | c :: rest' => if c = 'e' ∨ c = 'E' then skipExponent rest' else .ok (c :: rest')
    else if c = 'e' ∨ c = 'E' then skipExponent rest
    else .ok (c :: rest)

def skipNumber (s : List Char) : Except ReadError (List Char) :=
  match s with
  | [] => failBefore .invalidNumber []
  | c :: rest =>
    if c = '0' then
      if leadingDigits rest = [] then skipNumberTail rest else failBefore .invalidNumber rest
    else if c.isDigit then skipNumberTail (afterDigits rest)
    else failBefore .invalidNumber (c :: rest)

theorem length_skipExponent {s r : List Char} (h : skipExponent s = .ok r) :
    r.length ≤ s.length := by
  unfold skipExponent at h
  have h1 := length_splitSign s
  have h2 := length_afterDigits_le (Decimal.splitSign s).2
  simp only at h
  split at h
  · simp [failBefore] at h
  · simp only [Except.ok.injEq] at h
    subst h
    omega

theorem length_skipNumberTail {s r : List Char} (h : skipNumberTail s = .ok r) :
    r.length ≤ s.length := by
  unfold skipNumberTail at h
  split at h
  · simp_all
  · rename_i c rest
    have hd := length_afterDigits_le rest
    simp only [List.length_cons]
    split at h
    · split at h
      · simp [failBefore] at h
      · split at h
        · simp_all
        · rename_i c' rest' heq
          rw [heq] at hd
          simp only [List.length_cons] at hd
          split at h
          · have := length_skipExponent h
            omega
          · simp only [Except.ok.injEq] at h
            subst h
            simp only [List.length_cons]
            omega
    · split at h
      · have := length_skipExponent h
        omega
      · simp only [Except.ok.injEq] at h
        subst h
        simp

theorem length_skipNumber {s r : List Char} (h : skipNumber s = .ok r) :
    r.length < s.length := by
  unfold skipNumber at h
  split at h
  · simp [failBefore] at h
  · rename_i c rest
    have hd := length_afterDigits_le rest
    simp only [List.length_cons]
    split at h
    · split at h
      · have := length_skipNumberTail h
        omega
      · simp [failBefore] at h
    · split at h
      · have := length_skipNumberTail h
        omega
      · simp [failBefore] at h

/-- A container that is being passed over. -/
inductive Bracket where
  | list
  | object
  deriving DecidableEq

namespace Bracket

def closing : Bracket → Char
  | .list => ']'
  | .object => '}'

def ending : Bracket → Defect
  | .list => .endInList
  | .object => .endInObject

def separator : Bracket → Defect
  | .list => .listSeparatorExpected
  | .object => .objectSeparatorExpected

end Bracket

/-- What is left of `s`, possibly all of it. -/
abbrev Remainder (s : List Char) := { r : List Char // r.length ≤ s.length }

def Remainder.weaken {s t : List Char} (h : s.length ≤ t.length) (r : Remainder s) : Remainder t :=
  ⟨r.val, Nat.le_trans r.property h⟩

mutual

/-- Passes over a value and whatever the containers around it still hold. -/
def skipNested (around : List Bracket) (s : List Char) : Except ReadError (Rest s) :=
  have hs := length_skipSpace_le s
  match h : skipSpace s with
  | [] => failBefore .endInValue []
  | c :: rest =>
    have hrest : rest.length < s.length := by
      simp only [h, List.length_cons] at hs
      omega
    let onward (r : List Char) (hr : r.length < s.length) : Except ReadError (Rest s) :=
      (skipAfter around r).map fun r' => ⟨r'.val, Nat.lt_of_le_of_lt r'.property hr⟩
    let word (letters : List Char) : Except ReadError (Rest s) :=
      match hw : readWord letters rest with
      | .error e => .error e
      | .ok rest' => onward rest' (Nat.lt_of_le_of_lt (length_readWord hw) hrest)
    let number (digits : List Char) (hd : digits.length ≤ s.length) : Except ReadError (Rest s) :=
      match hn : skipNumber digits with
      | .error e => .error e
      | .ok rest' => onward rest' (Nat.lt_of_lt_of_le (length_skipNumber hn) hd)
    match Opening.of c with
    | .null => word ['u', 'l', 'l']
    | .yes => word ['r', 'u', 'e']
    | .no => word ['a', 'l', 's', 'e']
    | .minus => number rest (Nat.le_of_lt hrest)
    | .digit => number (c :: rest) (by simp only [List.length_cons]; omega)
    | .string =>
      match skipString rest with
      | .error e => .error e
      | .ok rest' => onward rest'.val (Nat.lt_trans rest'.property hrest)
    | .list => (skipInside .list around rest).map fun r => r.weaken (Nat.le_of_lt hrest)
    | .object => (skipInside .object around rest).map fun r => r.weaken (Nat.le_of_lt hrest)
    | .other => failBefore .valueExpected (c :: rest)
termination_by (s.length, 0)
decreasing_by all_goals apply Prod.Lex.left; assumption

/-- Passes over the inside of a container just opened. -/
def skipInside (b : Bracket) (around : List Bracket) (s : List Char) :
    Except ReadError (Rest s) :=
  have hs := length_skipSpace_le s
  match h : skipSpace s with
  | [] => failBefore b.ending []
  | c :: rest =>
    have hrest : rest.length < s.length := by
      simp only [h, List.length_cons] at hs
      omega
    if c = b.closing then
      (skipAfter around rest).map fun r => ⟨r.val, Nat.lt_of_le_of_lt r.property hrest⟩
    else
      (skipElement b around (c :: rest)).map fun r => r.weaken (h ▸ hs)
termination_by (s.length, 3)
decreasing_by
  · exact Prod.Lex.left _ _ hrest
  · rw [h] at hs
    rcases Nat.lt_or_eq_of_le hs with h' | h'
    · exact Prod.Lex.left _ _ h'
    · rw [h']
      exact Prod.Lex.right _ (by omega)

/-- Passes over one element, with its key in an object, and what follows it. -/
def skipElement (b : Bracket) (around : List Bracket) (s : List Char) :
    Except ReadError (Rest s) :=
  match b with
  | .list => skipNested (.list :: around) s
  | .object =>
    have hs := length_skipSpace_le s
    match h : skipSpace s with
    | [] => failBefore .endInObject []
    | c :: rest =>
      if c = '"' then
        match skipString rest with
        | .error e => .error e
        | .ok afterKey =>
          match hc : readColon afterKey.val with
          | .error e => .error e
          | .ok afterColon =>
            have hcolon : afterColon.length < s.length := by
              have h1 := afterKey.property
              have h2 := length_readColon hc
              simp only [h, List.length_cons] at hs
              omega
            (skipNested (.object :: around) afterColon).map
              fun r => r.weaken (Nat.le_of_lt hcolon)
      else failBefore .keyNotString (c :: rest)
termination_by (s.length, 2)
decreasing_by
  · exact Prod.Lex.right _ (by omega)
  · exact Prod.Lex.left _ _ hcolon

/-- What follows a value: the end, or more of the innermost container. -/
def skipAfter (around : List Bracket) (s : List Char) : Except ReadError (Remainder s) :=
  match around with
  | [] => .ok ⟨s, Nat.le_refl _⟩
  | b :: outer =>
    have hs := length_skipSpace_le s
    match h : skipSpace s with
    | [] => failBefore b.ending []
    | c :: rest =>
      have hrest : rest.length < s.length := by
        simp only [h, List.length_cons] at hs
        omega
      if c = ',' then
        (skipElement b outer rest).map
          fun r => ⟨r.val, Nat.le_of_lt (Nat.lt_trans r.property hrest)⟩
      else if c = b.closing then
        (skipAfter outer rest).map fun r => r.weaken (Nat.le_of_lt hrest)
      else failBefore b.separator (c :: rest)
termination_by (s.length, 1)
decreasing_by all_goals exact Prod.Lex.left _ _ hrest

end

def skipValue (s : List Char) : Except ReadError (Rest s) :=
  skipNested [] s

end Json
end TaggedData
