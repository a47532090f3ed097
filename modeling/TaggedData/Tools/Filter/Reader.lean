import TaggedData.Tools.Filter

/-!
# Reading filters

A filter is written as a row of terms. A comma binds tighter than a bar; a term is an
atom followed by any number of selections of a name, a place or all elements. The words
are `empty` and the constants.
-/

namespace TaggedData
namespace Filter

inductive Token where
  /-- A point directly before a name. -/
  | field (name : String)
  | word (name : String)
  | string (text : String)
  | number (digits : List Char)
  | twoPoints
  | mark (c : Char)
  deriving DecidableEq

def isNameStart (c : Char) : Bool :=
  c.isAlpha || c == '_'

def isNamePart (c : Char) : Bool :=
  c.isAlphanum || c == '_'

def isMark (c : Char) : Bool :=
  "()[]\x7b\x7d:,|-".toList.contains c

/-- The digits of a number without a sign, and what follows it. -/
def splitNumber (cs : List Char) : List Char × List Char :=
  let whole := cs.takeWhile Char.isDigit
  let rest := cs.dropWhile Char.isDigit
  let (fraction, rest) : List Char × List Char :=
    match rest with
    | '.' :: after => ('.' :: after.takeWhile Char.isDigit, after.dropWhile Char.isDigit)
    | _ => ([], rest)
  let (exponent, rest) : List Char × List Char :=
    match rest with
    | c :: sign :: after =>
      if c = 'e' ∨ c = 'E' then
        if sign = '+' ∨ sign = '-' then
          (c :: sign :: after.takeWhile Char.isDigit, after.dropWhile Char.isDigit)
        else
          (c :: (sign :: after).takeWhile Char.isDigit, (sign :: after).dropWhile Char.isDigit)
      else
        ([], rest)
    | _ => ([], rest)
  (whole ++ fraction ++ exponent, rest)

/-- The tokens of a text. Blanks and comments separate tokens. Every step uses up a
character, so the length of the text bounds their number. -/
def tokens : Nat → List Char → Option (List Token)
  | _, [] => some []
  | 0, _ => none
  | fuel + 1, c :: rest =>
    if c.isWhitespace then
      tokens fuel rest
    else if c = '#' then
      tokens fuel (rest.dropWhile (· ≠ '\n'))
    else if c = '"' then
      match Json.readString rest with
      | .ok (text, after) => (tokens fuel after.val).map (.string (String.ofList text) :: ·)
      | .error _ => none
    else if c.isDigit then
      let (digits, after) := splitNumber (c :: rest)
      (tokens fuel after).map (.number digits :: ·)
    else if isNameStart c then
      let name := c :: rest.takeWhile isNamePart
      (tokens fuel (rest.dropWhile isNamePart)).map (.word (String.ofList name) :: ·)
    else if c = '.' then
      match rest with
      | '.' :: after => (tokens fuel after).map (.twoPoints :: ·)
      | d :: after =>
        if isNameStart d then
          let name := d :: after.takeWhile isNamePart
          (tokens fuel (after.dropWhile isNamePart)).map (.field (String.ofList name) :: ·)
        else
          (tokens fuel rest).map (.mark '.' :: ·)
      | [] => some [.mark '.']
    else if isMark c then
      (tokens fuel rest).map (.mark c :: ·)
    else
      none

def number? (negative : Bool) (digits : List Char) : Option Json :=
  let signed := negative && !digits.all (· == '0')
  match Json.read (if signed then '-' :: digits else digits) with
  | .ok document => some document
  | .error _ => none

def place? (negative : Bool) (digits : List Char) : Option Int :=
  match number? negative digits with
  | some (.number (.integer n _)) => some n
  | _ => none

def word? : String → Option Filter
  | "empty" => some .empty
  | "null" => some (.constant .null)
  | "true" => some (.constant (.bool true))
  | "false" => some (.constant (.bool false))
  | _ => none

/-- What a pair of brackets behind a term selects, after the opening bracket. -/
def readSelection? : List Token → Option (Filter × List Token)
  | .mark ']' :: rest => some (.each, rest)
  | .string name :: .mark ']' :: rest => some (.field name, rest)
  | .number digits :: .mark ']' :: rest => (place? false digits).map fun n => (.item n, rest)
  | .mark '-' :: .number digits :: .mark ']' :: rest =>
    (place? true digits).map fun n => (.item n, rest)
  | _ => none

def readSelections : Nat → Filter → List Token → Option (Filter × List Token)
  | 0, _, _ => none
  | fuel + 1, filter, rest =>
    match rest with
    | .field name :: rest => readSelections fuel (.pipe filter (.field name)) rest
    | .mark '.' :: .string name :: rest => readSelections fuel (.pipe filter (.field name)) rest
    | .mark '.' :: .mark '[' :: rest | .mark '[' :: rest =>
      match readSelection? rest with
      | some (selection, rest) => readSelections fuel (.pipe filter selection) rest
      | none => none
    | rest => some (filter, rest)

mutual

/-- Terms with commas and bars between them, commas only if they are allowed. -/
def readPipe : Nat → Bool → List Token → Option (Filter × List Token)
  | 0, _, _ => none
  | fuel + 1, commas, rest => do
    let (first, rest) ← if commas then readCommas fuel rest else readTerm fuel rest
    match rest with
    | .mark '|' :: rest =>
      let (second, rest) ← readPipe fuel commas rest
      return (.pipe first second, rest)
    | rest => return (first, rest)

def readCommas : Nat → List Token → Option (Filter × List Token)
  | 0, _ => none
  | fuel + 1, rest => do
    let (first, rest) ← readTerm fuel rest
    match rest with
    | .mark ',' :: rest =>
      let (second, rest) ← readCommas fuel rest
      return (.both first second, rest)
    | rest => return (first, rest)

def readTerm : Nat → List Token → Option (Filter × List Token)
  | 0, _ => none
  | fuel + 1, rest => do
    let (atom, rest) ← readAtom fuel rest
    readSelections (rest.length + 1) atom rest

def readAtom : Nat → List Token → Option (Filter × List Token)
  | 0, _ => none
  | fuel + 1, rest =>
    match rest with
    | .mark '.' :: .string name :: rest => some (.field name, rest)
    | .mark '.' :: rest => some (.identity, rest)
    | .field name :: rest => some (.field name, rest)
    | .twoPoints :: rest => some (.everything, rest)
    | .word name :: rest => (word? name).map fun filter => (filter, rest)
    | .string text :: rest => some (.constant (.string text), rest)
    | .number digits :: rest => (number? false digits).map fun n => (.constant n, rest)
    | .mark '-' :: .number digits :: rest =>
      (number? true digits).map fun n => (.constant n, rest)
    | .mark '(' :: rest =>
      match readPipe fuel true rest with
      | some (filter, .mark ')' :: rest) => some (filter, rest)
      | _ => none
    | .mark '[' :: .mark ']' :: rest => some (.list .empty, rest)
    | .mark '[' :: rest =>
      match readPipe fuel true rest with
      | some (items, .mark ']' :: rest) => some (.list items, rest)
      | _ => none
    | .mark '\x7b' :: .mark '\x7d' :: rest => some (.object [], rest)
    | .mark '\x7b' :: rest => (readEntries fuel rest).map fun (entries, rest) =>
        (.object entries, rest)
    | _ => none

/-- The entries of an object up to its closing brace. A key without a value selects the
value under this key. -/
def readEntries : Nat → List Token → Option (List (String × Filter) × List Token)
  | 0, _ => none
  | fuel + 1, rest =>
    match rest with
    | .word key :: rest | .string key :: rest => do
      let (value, rest) ←
        match rest with
        | .mark ':' :: rest => readPipe fuel false rest
        | rest => some (.field key, rest)
      match rest with
      | .mark '\x7d' :: rest => return ([(key, value)], rest)
      | .mark ',' :: rest =>
        let (entries, rest) ← readEntries fuel rest
        return ((key, value) :: entries, rest)
      | _ => none
    | _ => none

end

/-- The filter that a text denotes. An atom is at most four calls away from the token
before it. -/
def read? (text : String) : Option Filter := do
  let row ← tokens text.length text.toList
  match ← readPipe (4 * row.length + 4) true row with
  | (filter, []) => return filter
  | _ => none

end Filter
end TaggedData
