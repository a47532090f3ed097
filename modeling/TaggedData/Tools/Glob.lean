import TaggedData.Text.Split

/-!
# Patterns for file names

In a pattern a question mark stands for one character, a star for any number of them, and
brackets for one character of a set or, with an exclamation mark first, for one that is
not in it. Two stars are a whole part of a path and stand for any number of directories.
Braces have no meaning.
-/

namespace TaggedData

inductive GlobDefect where
  | tooManyStars
  | starsInsideName
  | openRange
  deriving DecidableEq, Repr

structure GlobFault where
  /-- The place of a character. -/
  position : Nat
  defect : GlobDefect
  deriving DecidableEq, Repr

namespace GlobFault

def message (f : GlobFault) : String :=
  let cause := match f.defect with
    | .tooManyStars => "wildcards are either regular `*` or recursive `**`"
    | .starsInsideName => "recursive wildcards must form a single path component"
    | .openRange => "invalid range pattern"
  "Pattern syntax error near position " ++ toString f.position ++ ": " ++ cause

end GlobFault

inductive GlobToken where
  | char (c : Char)
  | anyChar
  | anyText
  | anyDirectories
  /-- One character between the bounds of a pair, or of none of them. -/
  | range (excluded : Bool) (pairs : List (Char × Char))
  deriving DecidableEq, Repr

namespace Glob

def readPairs : List Char → List (Char × Char)
  | first :: '-' :: last :: rest => (first, last) :: readPairs rest
  | c :: rest => (c, c) :: readPairs rest
  | [] => []

def splitClosing : List Char → Option (List Char × List Char)
  | [] => none
  | ']' :: rest => some ([], rest)
  | c :: rest => (splitClosing rest).map fun (before, after) => (c :: before, after)

theorem length_splitClosing {cs before after : List Char}
    (h : splitClosing cs = some (before, after)) : after.length < cs.length := by
  fun_induction splitClosing cs generalizing before after with
  | case1 => simp at h
  | case2 rest =>
    simp only [Option.some.injEq, Prod.mk.injEq] at h
    simp [h.2]
  | case3 c rest _ ih =>
    obtain ⟨⟨b, a⟩, hs, he⟩ := Option.map_eq_some_iff.1 h
    simp only [Prod.mk.injEq] at he
    have := ih hs
    simp only [List.length_cons, ← he.2]
    omega

/-- A range, after its opening bracket. Its first character is never the closing
bracket. -/
def readRange (cs : List Char) : Option (GlobToken × List Char) :=
  match cs with
  | '!' :: first :: rest =>
    (splitClosing rest).map fun (before, after) => (.range true (readPairs (first :: before)), after)
  | '!' :: [] => none
  | first :: rest =>
    (splitClosing rest).map fun (before, after) => (.range false (readPairs (first :: before)), after)
  | [] => none

theorem length_readRange {cs : List Char} {r : GlobToken × List Char} (h : readRange cs = some r) :
    r.2.length < cs.length := by
  unfold readRange at h
  split at h
  · obtain ⟨⟨b, a⟩, hs, rfl⟩ := Option.map_eq_some_iff.1 h
    have := length_splitClosing hs
    simp only [List.length_cons]
    omega
  · simp at h
  · obtain ⟨⟨b, a⟩, hs, rfl⟩ := Option.map_eq_some_iff.1 h
    have := length_splitClosing hs
    simp only [List.length_cons]
    omega
  · simp at h

/-- The tokens of a pattern from a position on, which is the start of a part of the path
or not. -/
def readTokens (position : Nat) (atStart : Bool) (cs : List Char) :
    Except GlobFault (List GlobToken) :=
  match cs with
  | [] => .ok []
  | '?' :: rest => (readTokens (position + 1) false rest).map (.anyChar :: ·)
  | '*' :: '*' :: '*' :: _ => .error ⟨position + 2, .tooManyStars⟩
  | '*' :: '*' :: rest =>
    if !atStart then .error ⟨position - 1, .starsInsideName⟩
    else
      match rest with
      | [] => .ok [.anyDirectories]
      | c :: rest =>
        if c = '/' then (readTokens (position + 3) true rest).map (.anyDirectories :: ·)
        else .error ⟨position + 2, .starsInsideName⟩
  | '*' :: rest => (readTokens (position + 1) false rest).map (.anyText :: ·)
  | '[' :: rest =>
    match h : readRange rest with
    | none => .error ⟨position, .openRange⟩
    | some (token, after) =>
      have : after.length < rest.length := length_readRange h
      (readTokens (position + (rest.length + 1 - after.length)) false after).map (token :: ·)
  | c :: rest => (readTokens (position + 1) (c == '/') rest).map (.char c :: ·)
termination_by cs.length

def inPairs (c : Char) (pairs : List (Char × Char)) : Bool :=
  pairs.any fun (first, last) => decide (first ≤ c) && decide (c ≤ last)

def fits : List GlobToken → List Char → Bool
  | [], cs => cs.isEmpty
  | .anyText :: tokens, [] => fits tokens []
  | .anyText :: tokens, c :: cs => fits tokens (c :: cs) || fits (.anyText :: tokens) cs
  | .anyDirectories :: _, _ => true
  | _ :: _, [] => false
  | .char d :: tokens, c :: cs => c == d && fits tokens cs
  | .anyChar :: tokens, _ :: cs => fits tokens cs
  | .range excluded pairs :: tokens, c :: cs => inPairs c pairs != excluded && fits tokens cs
termination_by tokens cs => (tokens.length, cs.length)

/-- One part of the path that a pattern describes. -/
inductive Part where
  /-- A name, which is looked up and not compared. -/
  | name (text : String)
  | directories
  | form (tokens : List GlobToken)
  deriving DecidableEq, Repr

namespace Part

def ofTokens (tokens : List GlobToken) : Part :=
  if tokens = [.anyDirectories] then .directories
  else
    match tokens.mapM fun | .char c => some c | _ => none with
    | some cs => .name (String.ofList cs)
    | none => .form tokens

/-- The names of the special entries of a directory that a part describes. They have to
be meant by a point at the start. -/
def specials : Part → List String
  | .form (.char '.' :: tokens) =>
    ["..", "."].filter fun name => Glob.fits (.char '.' :: tokens) name.toList
  | _ => []

end Part
end Glob

structure Glob where
  isAbsolute : Bool
  parts : List Glob.Part
  /-- Whether it stands for directories only, which a slash at its end says. -/
  directoriesOnly : Bool
  deriving DecidableEq, Repr

namespace Glob

/-- The texts between slashes, where a slash at the end begins no new one. -/
def partTexts (cs : List Char) : List (List Char) :=
  let pieces := Text.split '/' cs
  if pieces.getLast? = some [] then pieces.dropLast else pieces

/-- Reads a pattern. The whole of it is checked before its parts, so a range may not
contain a slash, and a fault in a part gives the place in that part. -/
def read (pattern : String) : Except GlobFault Glob := do
  let cs := pattern.toList
  let _ ← readTokens 0 true cs
  let (isAbsolute, below) := match cs with
    | '/' :: rest => (true, rest)
    | _ => (false, cs)
  let parts ← (partTexts below).mapM fun text => (readTokens 0 true text).map Part.ofTokens
  return ⟨isAbsolute, parts, cs.getLast? == some '/'⟩

end Glob
end TaggedData
