import TaggedData.Proofs.EqualTexts
import TaggedData.Proofs.NumericText
import TaggedData.Proofs.ReadingSteps

/-!
# Numbers to texts and back

The text of a number is a word or a literal of the number itself: an integer digit by digit, and
otherwise the shortest decimal that reads back, with all its digits in place. So a number comes
back from its text, also through lists of one item, and two numbers of one text are the same up
to the sign of zero.
-/

namespace TaggedData
namespace Decimal

variable {digits : List Char}

theorem isDigit_digitsOf (n : Nat) : ∀ c ∈ digitsOf n, c.isDigit = true :=
  fun _ hc => Nat.isDigit_of_mem_toDigits (by decide) (by decide) hc

theorem isDigit_replicate (n : Nat) : ∀ c ∈ List.replicate n '0', c.isDigit = true := by
  intro c hc
  rw [List.eq_of_mem_replicate hc]
  decide

theorem natOfDigits_replicate (n : Nat) : natOfDigits (List.replicate n '0') = 0 := by
  induction n with
  | zero => rfl
  | succ n ih =>
    rw [List.replicate_succ', natOfDigits_append, ih]
    rfl

theorem natOfDigits_digitsOf (n : Nat) : natOfDigits (digitsOf n) = n :=
  Json.natOfDigits_toDigits n

theorem digitsOf_ne_nil (n : Nat) : digitsOf n ≠ [] :=
  Nat.toDigits_ne_nil

def digitLiteral (negative : Bool) (whole : List Char) (fraction : Option Digits)
    (isDigit : ∀ c ∈ whole, c.isDigit = true) (ne : whole ≠ []) : Literal where
  sign := if negative then some .minus else none
  whole := ⟨whole, isDigit⟩
  fraction := fraction
  exponent := none
  digits_ne := .inl ne

theorem text_digitLiteral {negative : Bool} {whole : List Char} {fraction : Option Digits}
    (isDigit : ∀ c ∈ whole, c.isDigit = true) (ne : whole ≠ []) :
    (digitLiteral negative whole fraction isDigit ne).text =
      (if negative then ['-'] else []) ++ (whole ++ fractionText fraction) := by
  cases negative <;> simp [digitLiteral, Literal.text, signText, exponentText]

theorem negative_digitLiteral {negative : Bool} {whole : List Char} {fraction : Option Digits}
    (isDigit : ∀ c ∈ whole, c.isDigit = true) (ne : whole ≠ []) :
    (digitLiteral negative whole fraction isDigit ne).negative = negative := by
  cases negative <;> rfl

/-- The digits of an integer are a literal of it. -/
theorem exists_literal_digits (negative : Bool) (n zeros : Nat) : ∃ l : Literal,
    l.text = (if negative then ['-'] else []) ++ (digitsOf n ++ List.replicate zeros '0') ∧
      l.negative = negative ∧ l.decimal = ⟨n * 10 ^ zeros, 0⟩ := by
  have hdigits : ∀ c ∈ digitsOf n ++ List.replicate zeros '0', c.isDigit = true :=
    List.forall_mem_append.mpr ⟨isDigit_digitsOf n, isDigit_replicate zeros⟩
  have hne : digitsOf n ++ List.replicate zeros '0' ≠ [] := by
    simp [digitsOf_ne_nil]
  refine ⟨digitLiteral negative _ none hdigits hne, ?_, negative_digitLiteral hdigits hne, ?_⟩
  · rw [text_digitLiteral, fractionText, List.append_nil]
  · simp [Literal.decimal, digitLiteral, fractionDigits, exponentPower, natOfDigits_append,
      natOfDigits_digitsOf, natOfDigits_replicate]

/-- The digits with as many zeros in front as it takes to have one before the point. -/
def padded (d : Decimal) : List Char :=
  List.replicate ((-d.exponent).toNat + 1 - (digitsOf d.coefficient).length) '0' ++
    digitsOf d.coefficient

theorem isDigit_padded (d : Decimal) : ∀ c ∈ padded d, c.isDigit = true :=
  List.forall_mem_append.mpr ⟨isDigit_replicate _, isDigit_digitsOf _⟩

theorem natOfDigits_padded (d : Decimal) : natOfDigits (padded d) = d.coefficient := by
  rw [padded, natOfDigits_append, natOfDigits_replicate, natOfDigits_digitsOf, Nat.zero_mul,
    Nat.zero_add]

theorem lt_length_padded (d : Decimal) : (-d.exponent).toNat < (padded d).length := by
  rw [padded, List.length_append, List.length_replicate]
  omega

theorem exists_literal_point (negative : Bool) {d : Decimal} (h : d.exponent < 0) :
    ∃ l : Literal, l.text = (if negative then ['-'] else []) ++ d.positional ∧
      l.negative = negative ∧ l.decimal = d := by
  have hlength := lt_length_padded d
  have hpositional : d.positional = (padded d).take ((padded d).length - (-d.exponent).toNat) ++
      '.' :: (padded d).drop ((padded d).length - (-d.exponent).toNat) := by
    rw [positional, if_neg (by omega)]
    rfl
  have hwhole : ∀ c ∈ (padded d).take ((padded d).length - (-d.exponent).toNat),
      c.isDigit = true :=
    fun c hc => isDigit_padded d c (List.mem_of_mem_take hc)
  have hfraction : ∀ c ∈ (padded d).drop ((padded d).length - (-d.exponent).toNat),
      c.isDigit = true :=
    fun c hc => isDigit_padded d c (List.mem_of_mem_drop hc)
  have hne : (padded d).take ((padded d).length - (-d.exponent).toNat) ≠ [] := by
    rw [← List.length_pos_iff, List.length_take]
    omega
  have hplaces : ((padded d).drop ((padded d).length - (-d.exponent).toNat)).length =
      (-d.exponent).toNat := by
    rw [List.length_drop]
    omega
  refine ⟨digitLiteral negative _ (some ⟨_, hfraction⟩) hwhole hne, ?_,
    negative_digitLiteral hwhole hne, ?_⟩
  · rw [text_digitLiteral, fractionText, hpositional]
  · have hexponent : (0 : Int) - (-d.exponent).toNat = d.exponent := by omega
    simp only [Literal.decimal, digitLiteral, fractionDigits, exponentPower,
      List.take_append_drop, natOfDigits_padded, hplaces, hexponent]

end Decimal

namespace Binary64

open Decimal

variable {x y z : Binary64} {e : Fin 2047} {f : Fin (2 ^ (52 : Nat))}

theorem significand_eq_zero_iff : significand e f = 0 ↔ e = 0 ∧ f = 0 := by
  rw [significand, Fin.ext_iff, Fin.ext_iff]
  split_ifs with he
  · simp [he]
  · simp [he]

theorem ofQuotient_of_ne_zero {negative : Bool} {num den : Nat} (h : num ≠ 0) :
    ofQuotient negative num den = ofMagnitude negative
      ((gridScale 53 (-1074) num den + 1074).toNat * 2 ^ (52 : Nat) +
        gridSteps (gridScale 53 (-1074) num den) num den) := by
  simp only [ofQuotient, h, ↓reduceIte]

/-- The sign has no part in rounding. -/
theorem ofQuotient_of_positive {num den : Nat} (negative : Bool)
    (h : ofQuotient false num den = .finite false e f) :
    ofQuotient negative num den = .finite negative e f := by
  by_cases hnum : num = 0
  · simp only [ofQuotient, hnum, ↓reduceIte] at h ⊢
    cases h
    rfl
  · rw [ofQuotient_of_ne_zero hnum, ofMagnitude] at h ⊢
    split_ifs at h ⊢
    cases h
    rfl

theorem ofDecimal_of_positive {d : Decimal} (negative : Bool)
    (h : ofDecimal false d = .finite false e f) : ofDecimal negative d = .finite negative e f := by
  unfold ofDecimal at h ⊢
  split_ifs at h ⊢
  · cases h
    rfl
  · cases h
    rfl
  · exact ofQuotient_of_positive negative h

/-- The exact expansion has enough digits to be worth a look. -/
theorem exactDecimal_bounds (h : significand e f ≠ 0) :
    (exactDecimal (significand e f) (scale e)).coefficient ≠ 0 ∧
      (exactDecimal (significand e f) (scale e)).exponent ≤ 0 ∧
      0 ≤ (exactDecimal (significand e f) (scale e)).exponent +
        ((exactDecimal (significand e f) (scale e)).coefficient.log2 + 1) := by
  simp only [exactDecimal]
  have hne : significand e f * 2 ^ (scale e).toNat * 5 ^ (-scale e).toNat ≠ 0 := by positivity
  have hlog : 2 * (-scale e).toNat ≤
      (significand e f * 2 ^ (scale e).toNat * 5 ^ (-scale e).toNat).log2 := by
    rw [Nat.le_log2 hne]
    calc 2 ^ (2 * (-scale e).toNat) = 4 ^ (-scale e).toNat := Nat.pow_mul 2 2 _
      _ ≤ 5 ^ (-scale e).toNat := Nat.pow_le_pow_left (by decide) _
      _ ≤ significand e f * 2 ^ (scale e).toNat * 5 ^ (-scale e).toNat := by
        apply Nat.le_mul_of_pos_left
        positivity
  refine ⟨hne, by omega, by omega⟩

theorem value_exactDecimal :
    (exactDecimal (significand e f) (scale e)).value = magnitude e f := by
  have hexponent : min (scale e) 0 = -((-scale e).toNat : Int) := by omega
  have hten : (10 : ℚ) ^ ((-scale e).toNat : Int) =
      (2 ^ (-scale e).toNat : Nat) * (5 ^ (-scale e).toNat : Nat) := by
    rw [← Nat.cast_mul, ← Nat.mul_pow, zpow_natCast, Nat.cast_pow]
    norm_num
  rw [Decimal.value, exactDecimal, magnitude, zpow_two_eq_div]
  simp only
  rw [hexponent, zpow_neg, hten, Nat.cast_mul, Nat.cast_mul]
  have htwo : ((2 ^ (-scale e).toNat : Nat) : ℚ) ≠ 0 := by positivity
  have hfive : ((5 ^ (-scale e).toNat : Nat) : ℚ) ≠ 0 := by positivity
  field_simp

theorem ofDecimal_exactDecimal (h : significand e f ≠ 0) :
    ofDecimal false (exactDecimal (significand e f) (scale e)) = .finite false e f := by
  obtain ⟨hne, hupper, hlower⟩ := exactDecimal_bounds h
  rw [ofDecimal, if_neg hne, if_neg (by omega), if_neg (by omega)]
  apply ofQuotient_of_magnitude false (by positivity) (by positivity)
  rw [← value_eq_div, value_exactDecimal]

theorem ofDecimal_shortest (tie : Tie) (e : Fin 2047) (f : Fin (2 ^ (52 : Nat))) :
    ofDecimal false (shortest tie e f) = .finite false e f := by
  unfold shortest
  simp only
  split_ifs with hzero
  · obtain ⟨rfl, rfl⟩ := significand_eq_zero_iff.mp hzero
    rfl
  · generalize hfound : List.findSome? _ (List.range 17) = found
    cases found with
    | none => exact ofDecimal_exactDecimal hzero
    | some d =>
      obtain ⟨digits, -, hfind⟩ := List.exists_of_findSome?_eq_some hfound
      have hreads := List.find?_some hfind
      exact of_decide_eq_true hreads

/-- Zeros that are written out do not count, unless the number is too large for all its digits to
be looked at. -/
theorem ofDecimal_zeros {d : Decimal} (hexponent : 0 ≤ d.exponent)
    (h : ofDecimal false d = .finite false e f) :
    ofDecimal false ⟨d.coefficient * 10 ^ d.exponent.toNat, 0⟩ = .finite false e f := by
  by_cases hzero : d.coefficient = 0
  · rw [← h]
    simp [ofDecimal, hzero]
  · have hle : d.exponent ≤ 310 := by
      by_contra hlarge
      rw [ofDecimal, if_neg hzero, if_pos (by omega)] at h
      cases h
    have hone : (10 : Nat) ^ (-d.exponent).toNat = 10 ^ (0 : Nat) := by
      congr 1
      omega
    rw [ofDecimal, if_neg hzero, if_neg (by omega), if_neg (by omega), hone] at h
    rw [ofDecimal, if_neg (by positivity), if_neg (by simp only; omega),
      if_neg (by simp only; omega)]
    exact (congrArg (ofQuotient false · _) (Nat.mul_one _)).trans h

/-- The same number, up to the sign of zero. -/
def Same (x y : Binary64) : Prop :=
  x = y ∨ x.isZero = true ∧ y.isZero = true

theorem Same.symm (h : Same x y) : Same y x := by
  rcases h with rfl | ⟨hx, hy⟩
  · exact .inl rfl
  · exact .inr ⟨hy, hx⟩

theorem Same.trans (h : Same x y) (h' : Same y z) : Same x z := by
  rcases h with rfl | ⟨hx, hy⟩
  · exact h'
  · rcases h' with rfl | ⟨-, hz⟩
    · exact .inr ⟨hx, hy⟩
    · exact .inr ⟨hx, hz⟩

theorem same_of_equals (h : x.equals y = true) : Same x y :=
  (equals_eq_true_iff.mp h).2

/-- A literal of its own has no blanks around it. -/
theorem parse_of_literal {text : String} {l : Literal} (h : l.text = text.toList) :
    parse text = ofDecimal l.negative l.decimal := by
  rw [parse, ← h, l.bare.trim_eq, readFiltered_literal]

theorem ofDecimal_integer (negative : Bool) (n : Nat) :
    ofDecimal negative ⟨n, 0⟩ = ofQuotient negative n 1 := by
  unfold ofDecimal
  split_ifs with hzero hlarge hsmall
  · rw [ofQuotient, if_pos hzero]
  · simp only at hlarge
    omega
  · simp only at hsmall
    omega
  · simp

theorem toList_toString (n : Int) :
    (toString n).toList = (if decide (n < 0) then ['-'] else []) ++ digitsOf n.natAbs := by
  cases n with
  | ofNat m => simp [digitsOf, Int.toString_eq_repr, Int.repr_eq_if, Nat.repr]
  | negSucc m =>
    change ("-" ++ Nat.repr (m + 1)).toList = _
    simp [digitsOf]

theorem parse_toString (n : Int) : parse (toString n) = ofInt n := by
  obtain ⟨l, htext, hnegative, hdecimal⟩ := exists_literal_digits (decide (n < 0)) n.natAbs 0
  have hl : l.text = (toString n).toList := by
    rw [htext, toList_toString, List.replicate_zero, List.append_nil]
  rw [parse_of_literal hl, hnegative, hdecimal, pow_zero, Nat.mul_one, ofDecimal_integer, ofInt]

theorem exists_literal_magnitude (negative : Bool) (e : Fin 2047) (f : Fin (2 ^ (52 : Nat))) :
    ∃ l : Literal, l.text = (if negative then ['-'] else []) ++ Style.plain.magnitude e f ∧
      l.negative = negative ∧ ofDecimal false l.decimal = .finite false e f := by
  have hreads := ofDecimal_shortest .awayFromZero e f
  have hmagnitude : Style.plain.magnitude e f = (shortest .awayFromZero e f).positional := by
    simp [Style.magnitude, Style.plain]
  rw [hmagnitude]
  generalize shortest .awayFromZero e f = d at hreads
  by_cases hexponent : 0 ≤ d.exponent
  · obtain ⟨l, htext, hnegative, hdecimal⟩ :=
      exists_literal_digits negative d.coefficient d.exponent.toNat
    refine ⟨l, ?_, hnegative, ?_⟩
    · rw [htext, positional, if_pos hexponent]
    · rw [hdecimal]
      exact ofDecimal_zeros hexponent hreads
  · obtain ⟨l, htext, hnegative, hdecimal⟩ := exists_literal_point negative (not_le.mp hexponent)
    exact ⟨l, htext, hnegative, by rw [hdecimal, hreads]⟩

theorem parse_plain (negative : Bool) (e : Fin 2047) (f : Fin (2 ^ (52 : Nat))) :
    parse (Style.plain.text "NaN" "Infinity" (.finite negative e f)) = .finite negative e f := by
  obtain ⟨l, htext, hnegative, hreads⟩ := exists_literal_magnitude negative e f
  have hl : l.text = (Style.plain.text "NaN" "Infinity" (.finite negative e f)).toList := by
    rw [htext, Style.text, String.toList_ofList]
  rw [parse_of_literal hl, hnegative]
  exact ofDecimal_of_positive negative hreads

/-- Reading the text of a number gives the number. -/
theorem parse_render (x : Binary64) : Same (parse x.render) x := by
  cases hinteger : x.asInteger? with
  | some n =>
    obtain ⟨m, hm, -⟩ := asInteger?_eq_some_iff.mp hinteger
    rw [render_of_asInteger? hinteger, parse_toString]
    exact same_of_equals (equals_of_value? ((value?_ofInt_asInteger? hinteger).trans hm) hm)
  | none =>
    have hrender : x.render = Style.plain.text "NaN" "Infinity" x := by
      simp [render, hinteger]
    left
    rw [hrender]
    cases x with
    | nan => decide
    | infinite negative => cases negative <;> decide
    | finite negative e f => exact parse_plain negative e f

theorem render_eq_of_same (h : Same x y) : x.render = y.render := by
  rcases h with rfl | ⟨hx, hy⟩
  · rfl
  · rw [render_of_asInteger? (asInteger?_of_isZero hx),
      render_of_asInteger? (asInteger?_of_isZero hy)]

theorem render_eq_iff : x.render = y.render ↔ Same x y := by
  constructor
  · intro h
    have hx := parse_render x
    rw [h] at hx
    exact hx.symm.trans (parse_render y)
  · exact render_eq_of_same

end Binary64

namespace Value

def wrapped (v : Value) : Nat → Value
  | 0 => v
  | k + 1 => .list [wrapped v k]

theorem hostText_wrapped (x : Binary64) (k : Nat) :
    (wrapped (.number x) k).hostText = x.render := by
  induction k with
  | zero => simp [wrapped, hostText]
  | succ k ih =>
    have hitems : hostTexts [wrapped (.number x) k] = [(wrapped (.number x) k).hostText] := by
      cases k <;> simp [wrapped, hostTexts]
    rw [wrapped, hostText, hitems, ih]
    simp

theorem toNumber_wrapped (x : Binary64) (k : Nat) :
    Binary64.Same (wrapped (.number x) k).toNumber x := by
  cases k with
  | zero => exact .inl rfl
  | succ k =>
    have hnumber : (wrapped (.number x) (k + 1)).toNumber = Binary64.parse x.render := by
      rw [← hostText_wrapped x (k + 1)]
      rfl
    rw [hnumber]
    exact Binary64.parse_render x

end Value

/-- A number comes back from its text, through the two primitive types and through lists of one
item. So its text tells the number apart from all others. -/
theorem Binary64.number_inverts_text (x : Binary64) :
    Same (parse x.render) x ∧
    (∀ next next', ∃ text z, Primitive.string.call next [.number x] = .ok (.string text) ∧
      Primitive.number.call next' [.string text] = .ok (.number z) ∧ Same z x) ∧
    (∀ k next, ∃ z, Primitive.number.call next [Value.wrapped (.number x) k] = .ok (.number z) ∧
      Same z x) ∧
    ∀ y, x.render = y.render ↔ Same x y := by
  refine ⟨parse_render x, ?_, ?_, fun y => render_eq_iff⟩
  · intro next next'
    exact ⟨x.render, parse x.render, by simp [Primitive.call, Value.hostText], rfl, parse_render x⟩
  · intro k next
    refine ⟨_, ?_, Value.toNumber_wrapped x k⟩
    cases k <;> rfl

/-- The first number that is too large for its own digits is written as the largest integer that is
not, and is the number nearest to this one too. -/
example : (Binary64.ofInt (2 ^ (63 : Nat))).render = "9223372036854775807" ∧
    Binary64.parse "9223372036854775807" = .ofInt (2 ^ (63 : Nat)) := by
  decide +kernel

end TaggedData
