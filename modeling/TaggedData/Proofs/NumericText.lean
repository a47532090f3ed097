import TaggedData.Callable
import TaggedData.Proofs.NearestNumbers

/-!
# Numbers out of texts

A text is a number if it is empty, a spelling of infinity or a decimal literal, after the blanks
around it are taken away. A literal becomes the number nearest to it. The usual reader of numbers
takes words for infinity and NaN in any letter case as well; all of these have a letter that no
literal has, so a look at the letters keeps them out and nothing else.
-/

namespace TaggedData

namespace Text

/-- The text neither starts nor ends with a blank. -/
structure Bare (cs : List Char) : Prop where
  first : ∀ c ∈ cs.head?, isBlank c = false
  last : ∀ c ∈ cs.getLast?, isBlank c = false

/-- The second text is the first one without the blanks around it. -/
structure Trimmed (cs inner : List Char) : Prop where
  bare : Bare inner
  around : ∃ before after, cs = before ++ inner ++ after ∧
    (∀ c ∈ before, isBlank c = true) ∧ ∀ c ∈ after, isBlank c = true

theorem dropWhile_spec (cs : List Char) : ∃ before, cs = before ++ cs.dropWhile isBlank ∧
    (∀ c ∈ before, isBlank c = true) ∧ ∀ c ∈ (cs.dropWhile isBlank).head?, isBlank c = false := by
  induction cs with
  | nil => exact ⟨[], rfl, nofun, nofun⟩
  | cons c rest ih =>
    by_cases hblank : isBlank c = true
    · obtain ⟨before, hrest, hbefore, hhead⟩ := ih
      rw [List.dropWhile_cons_of_pos hblank]
      refine ⟨c :: before, congrArg (c :: ·) hrest, ?_, hhead⟩
      exact List.forall_mem_cons.mpr ⟨hblank, hbefore⟩
    · rw [List.dropWhile_cons_of_neg hblank]
      refine ⟨[], rfl, nofun, ?_⟩
      intro d hd
      cases hd
      exact Bool.eq_false_iff.mpr hblank

theorem trimmed_trim (cs : List Char) : Trimmed cs (trim cs) := by
  obtain ⟨before, hcs, hbefore, hfirst⟩ := dropWhile_spec cs
  obtain ⟨after, hrest, hafter, hlast⟩ := dropWhile_spec (cs.dropWhile isBlank).reverse
  have hinner : cs.dropWhile isBlank = trim cs ++ after.reverse := by
    rw [trim, ← List.reverse_append, ← hrest, List.reverse_reverse]
  constructor
  · constructor
    · intro c hc
      apply hfirst
      rw [hinner, List.head?_append, Option.mem_def.mp hc]
      rfl
    · intro c hc
      apply hlast
      rwa [trim, List.getLast?_reverse] at hc
  · refine ⟨before, after.reverse, ?_, hbefore, ?_⟩
    · rw [List.append_assoc, ← hinner]
      exact hcs
    · intro c hc
      exact hafter c (List.mem_reverse.mp hc)

theorem dropWhile_of_head {cs : List Char} (h : ∀ c ∈ cs.head?, isBlank c = false) :
    cs.dropWhile isBlank = cs := by
  cases cs with
  | nil => rfl
  | cons c rest => simp [h c rfl]

theorem Bare.trim_eq {cs : List Char} (h : Bare cs) : trim cs = cs := by
  rw [trim, dropWhile_of_head h.first, dropWhile_of_head, List.reverse_reverse]
  rw [List.head?_reverse]
  exact h.last

theorem bare_of_forall {cs : List Char} (h : ∀ c ∈ cs, isBlank c = false) : Bare cs where
  first c hc := h c (List.mem_of_mem_head? hc)
  last c hc := h c (List.mem_of_mem_getLast? hc)

end Text

namespace Decimal

def IsLiteralChar (c : Char) : Prop :=
  c.isDigit = true ∨ c ∈ ['+', '-', '.', 'e', 'E']

theorem isLiteralChar_signText (sign : Option Sign) : ∀ c ∈ signText sign, IsLiteralChar c := by
  intro c hc
  rcases sign with _ | _ | _
  · cases hc
  · cases List.mem_singleton.mp hc
    exact .inr (by decide)
  · cases List.mem_singleton.mp hc
    exact .inr (by decide)

theorem isLiteralChar_fractionText (f : Option Digits) : ∀ c ∈ fractionText f, IsLiteralChar c := by
  cases f with
  | none => nofun
  | some digits =>
    rw [fractionText, List.forall_mem_cons]
    exact ⟨.inr (by decide), fun c hc => .inl (digits.isDigit c hc)⟩

theorem isLiteralChar_exponentText (e : Option Exponent) :
    ∀ c ∈ exponentText e, IsLiteralChar c := by
  cases e with
  | none => nofun
  | some e =>
    rw [exponentText, List.forall_mem_cons, List.forall_mem_append]
    refine ⟨.inr ?_, isLiteralChar_signText e.sign, fun c hc => .inl (e.digits.isDigit c hc)⟩
    cases e.capital <;> decide

theorem Literal.isLiteralChar (l : Literal) : ∀ c ∈ l.text, IsLiteralChar c := by
  simp only [text, List.forall_mem_append]
  exact ⟨isLiteralChar_signText l.sign, fun c hc => .inl (l.whole.isDigit c hc),
    isLiteralChar_fractionText l.fraction, isLiteralChar_exponentText l.exponent⟩

theorem Literal.text_ne_nil (l : Literal) : l.text ≠ [] := by
  intro h
  simp only [text, List.append_eq_nil_iff] at h
  obtain ⟨-, hwhole, hfraction, -⟩ := h
  rcases l.digits_ne with hne | hne
  · exact hne hwhole
  · cases hdigits : l.fraction with
    | none => exact hne (by rw [hdigits]; rfl)
    | some digits =>
      rw [hdigits] at hfraction
      cases hfraction

theorem toNat_of_isDigit {c : Char} (h : c.isDigit = true) : 48 ≤ c.toNat ∧ c.toNat ≤ 57 := by
  obtain ⟨hlower, hupper⟩ := Bool.and_eq_true_iff.mp h
  exact ⟨of_decide_eq_true hlower, of_decide_eq_true hupper⟩

theorem toNat_of_isAlpha {c : Char} (h : c.isAlpha = true) :
    65 ≤ c.toNat ∧ c.toNat ≤ 90 ∨ 97 ≤ c.toNat ∧ c.toNat ≤ 122 := by
  rcases Bool.or_eq_true_iff.mp h with hcapital | hsmall
  · exact .inl (of_decide_eq_true hcapital)
  · obtain ⟨hlower, hupper⟩ := Bool.and_eq_true_iff.mp hsmall
    exact .inr ⟨of_decide_eq_true hlower, of_decide_eq_true hupper⟩

theorem IsLiteralChar.not_blank {c : Char} (h : IsLiteralChar c) : Text.isBlank c = false := by
  rcases h with hdigit | hmem
  · have hrange := toNat_of_isDigit hdigit
    simp only [Text.isBlank, Bool.or_eq_false_iff, Bool.and_eq_false_iff, decide_eq_false_iff_not,
      beq_eq_false_iff_ne]
    omega
  · simp only [List.mem_cons, List.not_mem_nil, or_false] at hmem
    rcases hmem with rfl | rfl | rfl | rfl | rfl <;> decide

theorem IsLiteralChar.not_wordLetter {c : Char} (h : IsLiteralChar c) : isWordLetter c = false := by
  rcases h with hdigit | hmem
  · have hrange := toNat_of_isDigit hdigit
    have halpha : c.isAlpha = false := by
      apply Bool.eq_false_iff.mpr
      intro halpha
      have hletter := toNat_of_isAlpha halpha
      omega
    rw [isWordLetter, halpha]
    rfl
  · simp only [List.mem_cons, List.not_mem_nil, or_false] at hmem
    rcases hmem with rfl | rfl | rfl | rfl | rfl <;> decide

theorem Literal.not_wordLetter (l : Literal) : l.text.any isWordLetter = false := by
  rw [List.any_eq_false]
  intro c hc
  rw [(l.isLiteralChar c hc).not_wordLetter]
  exact Bool.false_ne_true

theorem Literal.bare (l : Literal) : Text.Bare l.text :=
  Text.bare_of_forall fun c hc => (l.isLiteralChar c hc).not_blank

end Decimal

namespace Binary64

open Decimal

def infinityText (sign : Option Sign) : List Char :=
  signText sign ++ "Infinity".toList

theorem readFiltered_eq (cs : List Char) : readFiltered cs =
    if cs = [] then zero false
    else if cs = infinityText none ∨ cs = infinityText (some .plus) then .infinite false
    else if cs = infinityText (some .minus) then .infinite true
    else if cs.any isWordLetter then .nan
    else (readNumeral? cs).getD .nan := by
  have hplus : "+Infinity".toList = infinityText (some .plus) := by decide
  have hminus : "-Infinity".toList = infinityText (some .minus) := by decide
  rw [readFiltered, hplus, hminus]
  rfl

/-- Every word has the letter. -/
theorem isWordLetter_of_toLower {c : Char} (h : c.toLower = 'n') : isWordLetter c = true := by
  unfold Char.toLower at h
  split at h
  · rename_i hcapital
    have hcode : (c.toNat + 32) % 2 ^ (32 : Nat) = 110 := congrArg Char.toNat h
    have hupper : c.toNat ≤ 90 := hcapital.2
    have hletter : c.toNat = 'N'.toNat := by
      change c.toNat = 78
      omega
    rw [Char.toNat_inj.mp hletter]
    decide
  · rw [h]
    decide

theorem any_wordLetter_of_word {cs : List Char} (h : 'n' ∈ (splitSign cs).2.map Char.toLower) :
    cs.any isWordLetter = true := by
  obtain ⟨c, hc, hlower⟩ := List.mem_map.mp h
  obtain ⟨sign, hcs, -⟩ := exists_sign cs
  rw [List.any_eq_true]
  refine ⟨c, ?_, isWordLetter_of_toLower hlower⟩
  rw [hcs]
  exact List.mem_append_right _ hc

theorem readNumeral?_of_not_wordLetter {cs : List Char} (h : cs.any isWordLetter = false) :
    readNumeral? cs = (readLiteral? cs).map fun (negative, d) => ofDecimal negative d := by
  have hword : ∀ word : List Char, 'n' ∈ word → (splitSign cs).2.map Char.toLower ≠ word := by
    rintro word hn rfl
    rw [any_wordLetter_of_word hn] at h
    cases h
  rw [readNumeral?]
  simp only
  rw [if_neg, if_neg]
  · exact hword _ (by decide)
  · rintro (heq | heq)
    · exact hword _ (by decide) heq
    · exact hword _ (by decide) heq

theorem readLiteral?_of_wordLetter {cs : List Char} (h : cs.any isWordLetter = true) :
    readLiteral? cs = none := by
  apply readLiteral?_eq_none_iff.mpr
  rintro l rfl
  rw [l.not_wordLetter] at h
  cases h

theorem readFiltered_infinityText (sign : Option Sign) :
    readFiltered (infinityText sign) = .infinite (isMinus sign) := by
  rcases sign with _ | _ | _ <;> decide

theorem any_wordLetter_infinityText (sign : Option Sign) :
    (infinityText sign).any isWordLetter = true := by
  rcases sign with _ | _ | _ <;> decide

theorem literal_ne_infinityText (l : Literal) (sign : Option Sign) :
    l.text ≠ infinityText sign := by
  intro h
  have hletter := any_wordLetter_infinityText sign
  rw [← h, l.not_wordLetter] at hletter
  cases hletter

theorem readFiltered_of_ne {cs : List Char} (hne : cs ≠ [])
    (hword : ∀ sign, cs ≠ infinityText sign) : readFiltered cs =
      ((readLiteral? cs).map fun (negative, d) => ofDecimal negative d).getD .nan := by
  rw [readFiltered_eq, if_neg hne, if_neg (not_or.mpr ⟨hword none, hword (some .plus)⟩),
    if_neg (hword (some .minus))]
  cases hletter : cs.any isWordLetter with
  | true =>
    rw [readLiteral?_of_wordLetter hletter]
    rfl
  | false =>
    rw [readNumeral?_of_not_wordLetter hletter]
    rfl

theorem readFiltered_literal (l : Literal) :
    readFiltered l.text = ofDecimal l.negative l.decimal := by
  rw [readFiltered_of_ne l.text_ne_nil (literal_ne_infinityText l), readLiteral?_text]
  rfl

theorem signed_value (l : Literal) : signed l.negative l.decimal.value = l.value := by
  rw [← l.value_decimal, signed]
  split <;> simp

theorem ofDecimal_ne_nan (negative : Bool) (d : Decimal) : ofDecimal negative d ≠ .nan := by
  intro h
  have hnearest := nearestTo_ofDecimal negative d
  rw [h] at hnearest
  cases hnearest

/-- What a text without blanks around it is as a number. -/
structure Denotes (cs : List Char) (x : Binary64) : Prop where
  filtered : x = readFiltered cs
  accepted : x ≠ .nan ↔ cs = [] ∨ (∃ sign, cs = infinityText sign) ∨ ∃ l : Literal, cs = l.text
  empty : cs = [] → x = zero false
  infinity : ∀ sign, cs = infinityText sign → x = .infinite (isMinus sign)
  nearest : ∀ l : Literal, cs = l.text → NearestTo l.value x ∧ x.isNegative = l.negative
  range : ∀ l : Literal, cs = l.text → (x.isFinite = true ↔ |l.value| < overflowBound) ∧
    (x.isZero = true ↔ |l.value| ≤ underflowBound)
  /-- Words, and digits that are not decimal. -/
  refused : cs.any isWordLetter = true → (∀ sign, cs ≠ infinityText sign) → x = .nan

theorem readFiltered_ne_nan_iff {cs : List Char} : readFiltered cs ≠ .nan ↔
    cs = [] ∨ (∃ sign, cs = infinityText sign) ∨ ∃ l : Literal, cs = l.text := by
  constructor
  · intro h
    by_contra hnone
    simp only [not_or, not_exists] at hnone
    obtain ⟨hne, hword, hliteral⟩ := hnone
    apply h
    have hread : readLiteral? cs = none :=
      readLiteral?_eq_none_iff.mpr fun l heq => hliteral l heq.symm
    rw [readFiltered_of_ne hne hword, hread]
    rfl
  · rintro (rfl | ⟨sign, rfl⟩ | ⟨l, rfl⟩)
    · decide
    · rw [readFiltered_infinityText]
      nofun
    · rw [readFiltered_literal]
      exact ofDecimal_ne_nan _ _

theorem nearestTo_readFiltered (l : Literal) : NearestTo l.value (readFiltered l.text) := by
  rw [readFiltered_literal, ← signed_value]
  exact nearestTo_ofDecimal l.negative l.decimal

theorem denotes_readFiltered (cs : List Char) : Denotes cs (readFiltered cs) := by
  constructor
  · rfl
  · exact readFiltered_ne_nan_iff
  · rintro rfl
    rfl
  · rintro sign rfl
    exact readFiltered_infinityText sign
  · rintro l rfl
    refine ⟨nearestTo_readFiltered l, ?_⟩
    rw [readFiltered_literal]
    exact isNegative_ofDecimal _ _
  · rintro l rfl
    exact ⟨(nearestTo_readFiltered l).isFinite_iff, (nearestTo_readFiltered l).isZero_iff⟩
  · intro hletter hword
    have hne : cs ≠ [] := by
      rintro rfl
      cases hletter
    rw [readFiltered_of_ne hne hword, readLiteral?_of_wordLetter hletter]
    rfl

end Binary64

/-- A text given to the number type is what it denotes without the blanks around it. -/
theorem Primitive.number_of_text (nextSymbol : Nat) (text : String) (rest : List Value) :
    ∃ cs x, Text.Trimmed text.toList cs ∧
      Primitive.number.call nextSymbol (.string text :: rest) = .ok (.number x) ∧
      Binary64.Denotes cs x := by
  exact ⟨_, _, Text.trimmed_trim _, rfl, Binary64.denotes_readFiltered _⟩

/-- A word that is read as NaN or as infinity by the usual reader, and a literal with blanks. -/
example : Binary64.readNumeral? "-iNf".toList = some (.infinite true) ∧
    Binary64.parse "-iNf" = .nan ∧ Binary64.parse " -0.e7 " = .zero true := by
  decide

end TaggedData
