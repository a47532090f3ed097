import Mathlib.Data.List.TakeWhile
import Mathlib.Tactic.FieldSimp
import Mathlib.Tactic.Positivity
import Mathlib.Tactic.Ring
import TaggedData.Decimal.Literal

/-!
# The grammar of decimal literals

A literal is given by its parts: a sign, digits before and behind the point, of which there must
be some, and an exponent. Reading a text finds the literal that it is written from, if there is
one, and its decimal has the exact value of the literal.
-/

namespace TaggedData
namespace Decimal

def value (d : Decimal) : ℚ :=
  d.coefficient * 10 ^ d.exponent

inductive Sign where
  | plus
  | minus
  deriving DecidableEq

def signText : Option Sign → List Char
  | none => []
  | some .plus => ['+']
  | some .minus => ['-']

def isMinus (sign : Option Sign) : Bool :=
  sign = some .minus

structure Digits where
  chars : List Char
  isDigit : ∀ c ∈ chars, c.isDigit = true

structure Exponent where
  capital : Bool
  sign : Option Sign
  digits : Digits
  digits_ne : digits.chars ≠ []

def fractionText : Option Digits → List Char
  | none => []
  | some digits => '.' :: digits.chars

def fractionDigits : Option Digits → List Char
  | none => []
  | some digits => digits.chars

def exponentText : Option Exponent → List Char
  | none => []
  | some e => (if e.capital then 'E' else 'e') :: (signText e.sign ++ e.digits.chars)

def exponentPower : Option Exponent → Int
  | none => 0
  | some e =>
    if isMinus e.sign then -(natOfDigits e.digits.chars : Int) else natOfDigits e.digits.chars

/-- An optional sign, digits with an optional fraction and an optional exponent. The digits may
all stand on one side of the point. -/
structure Literal where
  sign : Option Sign
  whole : Digits
  fraction : Option Digits
  exponent : Option Exponent
  digits_ne : whole.chars ≠ [] ∨ fractionDigits fraction ≠ []

namespace Literal

def negative (l : Literal) : Bool :=
  isMinus l.sign

def text (l : Literal) : List Char :=
  signText l.sign ++ (l.whole.chars ++ (fractionText l.fraction ++ exponentText l.exponent))

def value (l : Literal) : ℚ :=
  (if l.negative then -1 else 1) *
    (natOfDigits l.whole.chars +
      natOfDigits (fractionDigits l.fraction) / (10 ^ (fractionDigits l.fraction).length : Nat)) *
    10 ^ exponentPower l.exponent

def decimal (l : Literal) : Decimal :=
  ⟨natOfDigits (l.whole.chars ++ fractionDigits l.fraction),
    exponentPower l.exponent - (fractionDigits l.fraction).length⟩

end Literal

theorem foldl_digits (digits : List Char) (n : Nat) :
    digits.foldl (fun n c => 10 * n + (c.toNat - '0'.toNat)) n =
      n * 10 ^ digits.length + natOfDigits digits := by
  induction digits generalizing n with
  | nil => simp [natOfDigits]
  | cons c rest ih =>
    rw [natOfDigits, List.foldl_cons, List.foldl_cons, ih, ih (10 * 0 + _), List.length_cons,
      pow_succ]
    ring

theorem natOfDigits_append (digits more : List Char) :
    natOfDigits (digits ++ more) =
      natOfDigits digits * 10 ^ more.length + natOfDigits more := by
  rw [natOfDigits, List.foldl_append, foldl_digits]
  rfl

theorem Literal.value_decimal (l : Literal) :
    (if l.negative then -1 else 1) * l.decimal.value = l.value := by
  have hten : ((10 ^ (fractionDigits l.fraction).length : Nat) : ℚ) ≠ 0 := by positivity
  have hpower : (10 : ℚ) ^ (exponentPower l.exponent - (fractionDigits l.fraction).length) =
      10 ^ exponentPower l.exponent / (10 ^ (fractionDigits l.fraction).length : Nat) := by
    rw [zpow_sub₀ (by norm_num), zpow_natCast, Nat.cast_pow, Nat.cast_ofNat]
  rw [Decimal.value, decimal, value, hpower, natOfDigits_append, Nat.cast_add, Nat.cast_mul]
  field_simp

section Reading

variable {cs digits rest : List Char}

/-- The text goes on with something else than a digit, or ends. -/
def Stops (rest : List Char) : Prop :=
  ∀ c t, rest = c :: t → c.isDigit = false

theorem stops_exponentText (e : Option Exponent) : Stops (exponentText e) := by
  cases e with
  | none => nofun
  | some e =>
    intro c t heq
    cases heq
    split <;> decide

theorem stops_fractionText (f : Option Digits) (h : Stops rest) :
    Stops (fractionText f ++ rest) := by
  cases f with
  | none => exact h
  | some digits =>
    intro c t heq
    cases heq
    decide

theorem takeWhile_append (hdigits : ∀ c ∈ digits, c.isDigit = true) (h : Stops rest) :
    (digits ++ rest).takeWhile Char.isDigit = digits := by
  rw [List.takeWhile_append_of_pos hdigits]
  cases rest with
  | nil => simp
  | cons c t => simp [h c t rfl]

theorem dropWhile_append (hdigits : ∀ c ∈ digits, c.isDigit = true) (h : Stops rest) :
    (digits ++ rest).dropWhile Char.isDigit = rest := by
  rw [List.dropWhile_append_of_pos hdigits]
  cases rest with
  | nil => rfl
  | cons c t => simp [h c t rfl]

def Unsigned (rest : List Char) : Prop :=
  ∀ c t, rest = c :: t → c ≠ '+' ∧ c ≠ '-'

theorem splitSign_of_unsigned (h : Unsigned rest) : splitSign rest = (false, rest) := by
  unfold splitSign
  split
  · exact absurd rfl (h _ _ rfl).2
  · exact absurd rfl (h _ _ rfl).1
  · rfl

theorem splitSign_signText (sign : Option Sign) (h : Unsigned rest) :
    splitSign (signText sign ++ rest) = (isMinus sign, rest) := by
  rcases sign with _ | _ | _
  · exact splitSign_of_unsigned h
  · rfl
  · rfl

/-- Every text is a sign, or none, and what follows it. -/
theorem exists_sign (cs : List Char) : ∃ sign : Option Sign,
    cs = signText sign ++ (splitSign cs).2 ∧ isMinus sign = (splitSign cs).1 := by
  unfold splitSign
  split
  · exact ⟨some .minus, rfl, rfl⟩
  · exact ⟨some .plus, rfl, rfl⟩
  · exact ⟨none, rfl, rfl⟩

theorem unsigned_of_isDigit (hdigits : ∀ c ∈ digits, c.isDigit = true) (hne : digits ≠ []) :
    Unsigned (digits ++ rest) := by
  intro c t heq
  obtain ⟨d, ds, rfl⟩ := List.exists_cons_of_ne_nil hne
  cases heq
  have hdigit : c.isDigit = true := hdigits c List.mem_cons_self
  constructor
  · rintro rfl
    exact absurd hdigit (by decide)
  · rintro rfl
    exact absurd hdigit (by decide)

theorem Literal.unsigned (l : Literal) :
    Unsigned (l.whole.chars ++ (fractionText l.fraction ++ exponentText l.exponent)) := by
  by_cases hwhole : l.whole.chars = []
  · obtain ⟨digits, hdigits⟩ : ∃ digits, l.fraction = some digits := by
      cases hfraction : l.fraction with
      | none => simpa [hwhole, hfraction, fractionDigits] using l.digits_ne
      | some digits => exact ⟨digits, rfl⟩
    rw [hwhole, hdigits]
    intro c t heq
    cases heq
    decide
  · exact unsigned_of_isDigit l.whole.isDigit hwhole

theorem splitFraction_text (f : Option Digits) (e : Option Exponent) :
    splitFraction (fractionText f ++ exponentText e) = (fractionDigits f, exponentText e) := by
  cases f with
  | some digits =>
    rw [fractionText, List.cons_append, splitFraction,
      takeWhile_append digits.isDigit (stops_exponentText e),
      dropWhile_append digits.isDigit (stops_exponentText e), fractionDigits]
  | none =>
    cases e with
    | none => rfl
    | some e =>
      cases hcapital : e.capital <;>
        simp [fractionText, exponentText, hcapital, splitFraction, fractionDigits]

theorem readExponent?_text (e : Option Exponent) :
    readExponent? (exponentText e) = some (exponentPower e) := by
  cases e with
  | none => rfl
  | some e =>
    have hsplit : splitSign (signText e.sign ++ e.digits.chars) =
        (isMinus e.sign, e.digits.chars) := by
      have hunsigned : Unsigned (e.digits.chars ++ []) :=
        unsigned_of_isDigit e.digits.isDigit e.digits_ne
      rw [List.append_nil] at hunsigned
      exact splitSign_signText e.sign hunsigned
    have hall : e.digits.chars.all Char.isDigit = true := List.all_eq_true.mpr e.digits.isDigit
    have hletter : (if e.capital then 'E' else 'e') = 'e' ∨
        (if e.capital then 'E' else 'e') = 'E' := by
      cases e.capital <;> simp
    rw [exponentText, readExponent?, hsplit]
    simp only
    rw [if_pos ⟨hletter, e.digits_ne, hall⟩, exponentPower]

theorem readLiteral?_text (l : Literal) : readLiteral? l.text = some (l.negative, l.decimal) := by
  have hstops : Stops (fractionText l.fraction ++ exponentText l.exponent) :=
    stops_fractionText l.fraction (stops_exponentText l.exponent)
  have hne : ¬ (l.whole.chars = [] ∧ fractionDigits l.fraction = []) := by
    rw [not_and_or]
    exact l.digits_ne
  rw [readLiteral?, Literal.text, splitSign_signText l.sign l.unsigned]
  simp only
  rw [takeWhile_append l.whole.isDigit hstops, dropWhile_append l.whole.isDigit hstops,
    splitFraction_text]
  simp only
  rw [if_neg hne, readExponent?_text]
  rfl

theorem isDigit_takeWhile (cs : List Char) : ∀ c ∈ cs.takeWhile Char.isDigit, c.isDigit = true :=
  fun _ => List.mem_takeWhile_imp

theorem exists_fraction (cs : List Char) : ∃ f : Option Digits,
    cs = fractionText f ++ (splitFraction cs).2 ∧ fractionDigits f = (splitFraction cs).1 := by
  unfold splitFraction
  split
  · rename_i rest
    refine ⟨some ⟨_, isDigit_takeWhile rest⟩, ?_, rfl⟩
    simp [fractionText, List.takeWhile_append_dropWhile]
  · exact ⟨none, rfl, rfl⟩

theorem exists_exponent {power : Int} (h : readExponent? cs = some power) :
    ∃ e : Option Exponent, exponentText e = cs ∧ exponentPower e = power := by
  cases cs with
  | nil => exact ⟨none, rfl, Option.some.inj h⟩
  | cons c rest =>
    obtain ⟨sign, hrest, hsign⟩ := exists_sign rest
    rw [readExponent?] at h
    simp only at h
    rw [Option.ite_none_right_eq_some] at h
    obtain ⟨⟨hletter, hne, hall⟩, hpower⟩ := h
    refine ⟨some ⟨c = 'E', sign, ⟨_, List.all_eq_true.mp hall⟩, hne⟩, ?_, ?_⟩
    · have hcapital : (if decide (c = 'E') then 'E' else 'e') = c := by
        rcases hletter with rfl | rfl <;> rfl
      rw [exponentText, hcapital]
      exact congrArg (c :: ·) hrest.symm
    · rw [exponentPower, hsign]
      exact Option.some.inj hpower

/-- What is read is the sign and the decimal of a literal with this text. -/
theorem readLiteral?_eq_some_iff {negative : Bool} {d : Decimal} :
    readLiteral? cs = some (negative, d) ↔
      ∃ l : Literal, l.text = cs ∧ l.negative = negative ∧ l.decimal = d := by
  constructor
  · intro h
    obtain ⟨sign, hcs, hsign⟩ := exists_sign cs
    rw [readLiteral?] at h
    simp only at h
    split_ifs at h with hnone
    obtain ⟨fraction, hrest, hfraction⟩ :=
      exists_fraction ((splitSign cs).2.dropWhile Char.isDigit)
    obtain ⟨power, hpower, heq⟩ := Option.map_eq_some_iff.mp h
    obtain ⟨exponent, htext, rfl⟩ := exists_exponent hpower
    rw [not_and_or, ← hfraction] at hnone
    refine ⟨⟨sign, ⟨_, isDigit_takeWhile (splitSign cs).2⟩, fraction, exponent, hnone⟩, ?_, ?_, ?_⟩
    · rw [Literal.text, htext, ← hrest, List.takeWhile_append_dropWhile, ← hcs]
    · exact hsign.trans (Prod.mk.inj heq).1
    · rw [Literal.decimal, hfraction]
      exact (Prod.mk.inj heq).2
  · rintro ⟨l, rfl, rfl, rfl⟩
    exact readLiteral?_text l

theorem readLiteral?_eq_none_iff : readLiteral? cs = none ↔ ∀ l : Literal, l.text ≠ cs := by
  constructor
  · rintro h l rfl
    cases h.symm.trans (readLiteral?_text l)
  · intro h
    cases hread : readLiteral? cs with
    | none => rfl
    | some result =>
      obtain ⟨l, hl, -⟩ := readLiteral?_eq_some_iff.mp hread
      exact absurd hl (h l)

end Reading

end Decimal
end TaggedData
