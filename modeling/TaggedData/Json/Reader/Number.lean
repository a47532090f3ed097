import TaggedData.Binary64.Scaling
import TaggedData.Decimal.Literal
import TaggedData.Json.Reader.Basic

/-!
# Reading numbers

A number without point and exponent is an integer if 64 bits hold it. Minus zero and all
other numbers become binary64 numbers, from as many digits as 64 bits hold and a power of
ten. A number that would be infinite is refused.
-/

namespace TaggedData

namespace Json

def leadingDigits (s : List Char) : List Char :=
  s.takeWhile Char.isDigit

def afterDigits (s : List Char) : List Char :=
  s.dropWhile Char.isDigit

theorem length_afterDigits_le (s : List Char) : (afterDigits s).length ≤ s.length := by
  unfold afterDigits
  induction s with
  | nil => simp
  | cons c rest ih =>
    rw [List.dropWhile_cons]
    split
    · simp only [List.length_cons]
      omega
    · exact Nat.le_refl _

/-- Takes in digits while 64 bits hold the number that they form. Gives the number and the digits
that are left. -/
def takeDigits (significand : Nat) : List Char → Nat × List Char
  | [] => (significand, [])
  | c :: rest =>
    let longer := 10 * significand + (c.toNat - '0'.toNat)
    if longer < 2 ^ (64 : Nat) then takeDigits longer rest else (significand, c :: rest)

/-- What is kept of the digits before and behind the point. Digits that are not taken in raise
the exponent before the point and do not matter behind it. -/
def keptDigits (whole fraction : List Char) : Decimal :=
  let (significand, left) := takeDigits 0 whole
  let (significand, dropped) := takeDigits significand fraction
  ⟨significand, left.length - (fraction.length - dropped.length : Nat)⟩

def realNumber (negative : Bool) (d : Decimal) (rest : List Char) : Except ReadError JsonNumber :=
  match (Binary64.ofNat d.coefficient).scaleByTen? d.exponent with
  | none => failAt .numberOutOfRange rest
  | some x =>
    if h : (x.withSign negative).isFinite = true then .ok (.real (x.withSign negative) h)
    else failAt .numberOutOfRange rest

def wholeNumber (negative : Bool) (digits rest : List Char) : Except ReadError JsonNumber :=
  let n := Decimal.natOfDigits digits
  let signed : Int := if negative then -n else n
  if h : (-2 ^ (63 : Nat) ≤ signed ∧ signed < 2 ^ (64 : Nat)) ∧ ¬(negative = true ∧ n = 0) then
    .ok (.integer signed h.1)
  else
    realNumber negative (keptDigits digits []) rest

/-- The digits of an exponent are read while the exponent stays below `2 ^ 31`. Gives the
exponent and what follows, or the place where that bound was passed. -/
def scanExponent (value : Nat) : List Char → Except (List Char) (Nat × List Char)
  | [] => .ok (value, [])
  | c :: rest =>
    if c.isDigit then
      let value := 10 * value + (c.toNat - '0'.toNat)
      if 2 ^ (31 : Nat) ≤ value then .error rest else scanExponent value rest
    else
      .ok (value, c :: rest)

/-- A number with the given digits before and behind the point, after the letter of its
exponent. An exponent that is too large makes zero of a small number, is refused for a
large one, and does not matter to zero. -/
def readExponent (negative : Bool) (whole fraction : List Char) (s : List Char) :
    Except ReadError (JsonNumber × List Char) :=
  let (down, digits) := Decimal.splitSign s
  let kept := keptDigits whole fraction
  match digits with
  | [] => failAt .endInValue []
  | c :: rest =>
    if c.isDigit then
      match scanExponent 0 (c :: rest) with
      | .ok (value, rest') =>
        let exponent : Int := if down then -value else value
        (realNumber negative ⟨kept.coefficient, kept.exponent + exponent⟩ rest').map (·, rest')
      | .error rest' =>
        if kept.coefficient ≠ 0 ∧ ¬down then failAt .numberOutOfRange rest'
        else (realNumber negative ⟨0, 0⟩ rest').map (·, afterDigits rest')
    else
      failBefore .invalidNumber (c :: rest)

/-- What follows the digits on both sides of the point; no digits behind it mean that
there is no point. -/
def readNumberEnd (negative : Bool) (whole fraction : List Char) (s : List Char) :
    Except ReadError (JsonNumber × List Char) :=
  let ended :=
    if fraction = [] then wholeNumber negative whole s
    else realNumber negative (keptDigits whole fraction) s
  match s with
  | c :: rest =>
    if c = 'e' ∨ c = 'E' then readExponent negative whole fraction rest else ended.map (·, s)
  | [] => ended.map (·, s)

def readNumberTail (negative : Bool) (whole : List Char) (s : List Char) :
    Except ReadError (JsonNumber × List Char) :=
  match s with
  | '.' :: rest =>
    match afterDigits rest with
    | [] =>
      if leadingDigits rest = [] then failAt .endInValue []
      else readNumberEnd negative whole (leadingDigits rest) []
    | c :: rest' =>
      if leadingDigits rest = [] then failBefore .invalidNumber (c :: rest')
      else readNumberEnd negative whole (leadingDigits rest) (c :: rest')
  | s => readNumberEnd negative whole [] s

/-- A number after its sign, if it had one. -/
def readNumber (negative : Bool) (s : List Char) : Except ReadError (JsonNumber × List Char) :=
  match s with
  | [] => failAt .endInValue []
  | '0' :: rest =>
    match rest with
    | [] => readNumberTail negative ['0'] []
    | c :: rest =>
      if c.isDigit then failBefore .invalidNumber (c :: rest)
      else readNumberTail negative ['0'] (c :: rest)
  | c :: rest =>
    if c.isDigit then readNumberTail negative (leadingDigits (c :: rest)) (afterDigits (c :: rest))
    else failBefore .invalidNumber (c :: rest)

theorem length_scanExponent {value : Nat} {s : List Char} :
    match scanExponent value s with
    | .ok (_, rest) => rest.length ≤ s.length
    | .error rest => rest.length ≤ s.length := by
  induction s generalizing value with
  | nil => simp [scanExponent]
  | cons c rest ih =>
    unfold scanExponent
    simp only
    by_cases hc : c.isDigit
    · rw [if_pos hc]
      by_cases hv : 2 ^ (31 : Nat) ≤ 10 * value + (c.toNat - '0'.toNat)
      · rw [if_pos hv]
        simp
      · rw [if_neg hv]
        have := @ih (10 * value + (c.toNat - '0'.toNat))
        revert this
        cases scanExponent (10 * value + (c.toNat - '0'.toNat)) rest <;>
          simp only [List.length_cons] <;> omega
    · simp [hc]

theorem length_splitSign (s : List Char) : (Decimal.splitSign s).2.length ≤ s.length := by
  unfold Decimal.splitSign
  split <;> simp

theorem length_readExponent {negative : Bool} {whole fraction s : List Char}
    {r : JsonNumber × List Char} (h : readExponent negative whole fraction s = .ok r) :
    r.2.length ≤ s.length := by
  have hs := length_splitSign s
  unfold readExponent at h
  simp only at h
  split at h
  · simp [failAt] at h
  · rename_i c rest heq
    split at h
    · have hscan := @length_scanExponent 0 (c :: rest)
      split at h
      · rename_i v rest' hok
        simp only [hok] at hscan
        cases hr : realNumber negative
          ⟨(keptDigits whole fraction).coefficient, (keptDigits whole fraction).exponent +
            (if (Decimal.splitSign s).1 then -(v : Int) else v)⟩ rest' with
        | error e => simp [hr, Except.map] at h
        | ok n =>
          simp only [hr, Except.map, Except.ok.injEq] at h
          subst h
          rw [heq] at hs
          exact Nat.le_trans hscan hs
      · rename_i rest' herr
        simp only [herr] at hscan
        split at h
        · simp [failAt] at h
        · cases hr : realNumber negative ⟨0, 0⟩ rest' with
          | error e => simp [hr, Except.map] at h
          | ok n =>
            simp only [hr, Except.map, Except.ok.injEq] at h
            subst h
            rw [heq] at hs
            have := length_afterDigits_le rest'
            simp only
            omega
    · simp [failBefore] at h

theorem ok_map_pair {α β ε : Type} {e : Except ε α} {b : β} {r : α × β}
    (h : e.map (·, b) = .ok r) : r.2 = b := by
  cases e with
  | error e => simp [Except.map] at h
  | ok a =>
    simp only [Except.map, Except.ok.injEq] at h
    rw [← h]

theorem length_readNumberEnd {negative : Bool} {whole fraction s : List Char}
    {r : JsonNumber × List Char} (h : readNumberEnd negative whole fraction s = .ok r) :
    r.2.length ≤ s.length := by
  unfold readNumberEnd at h
  simp only at h
  split at h
  · split at h
    · have := length_readExponent h
      simp only [List.length_cons]
      omega
    · exact Nat.le_of_eq (congrArg List.length (ok_map_pair h))
  · exact Nat.le_of_eq (congrArg List.length (ok_map_pair h))

theorem length_readNumberTail {negative : Bool} {whole s : List Char}
    {r : JsonNumber × List Char} (h : readNumberTail negative whole s = .ok r) :
    r.2.length ≤ s.length := by
  unfold readNumberTail at h
  split at h
  · rename_i rest
    have hd := length_afterDigits_le rest
    split at h
    · split at h
      · simp [failAt] at h
      · have := length_readNumberEnd h
        simp only [List.length_nil] at this
        omega
    · rename_i c rest' heq
      rw [heq] at hd
      split at h
      · simp [failBefore] at h
      · have := length_readNumberEnd h
        simp only [List.length_cons] at *
        omega
  · exact length_readNumberEnd h

theorem length_readNumber {negative : Bool} {s : List Char} {r : JsonNumber × List Char}
    (h : readNumber negative s = .ok r) : r.2.length < s.length := by
  unfold readNumber at h
  split at h
  · simp [failAt] at h
  · split at h
    · have := length_readNumberTail h
      simp only [List.length_cons, List.length_nil] at *
      omega
    · split at h
      · simp [failBefore] at h
      · have := length_readNumberTail h
        simp only [List.length_cons] at *
        omega
  · rename_i c rest _
    split at h
    · rename_i hc
      have := length_readNumberTail h
      have hrest : afterDigits (c :: rest) = afterDigits rest := by
        simp [afterDigits, hc]
      rw [hrest] at this
      have := length_afterDigits_le rest
      simp only [List.length_cons]
      omega
    · simp [failBefore] at h

end Json
end TaggedData
