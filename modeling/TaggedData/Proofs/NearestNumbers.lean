import TaggedData.Proofs.Literals
import TaggedData.Proofs.RoundingGrid
import TaggedData.Proofs.WholeNumbers

/-!
# Rounding gives the nearest number

No finite number is nearer to a decimal than the one that it is read as, and one that is as near
leaves it to the even one. From the middle between the largest number and the next power of two
on the result is infinite, and up to the middle between zero and the smallest number it is zero.
-/

namespace TaggedData
namespace Binary64

variable {num den : Nat} {t : ℚ}

def signed (negative : Bool) (a : ℚ) : ℚ :=
  if negative then -a else a

section Signed

variable {negative negative' : Bool} {a b : ℚ}

theorem value?_finite (negative : Bool) (e : Fin 2047) (f : Fin (2 ^ (52 : Nat))) :
    (finite negative e f).value? = some (signed negative (magnitude e f)) :=
  rfl

theorem exists_of_value? {x : Binary64} {w : ℚ} (h : x.value? = some w) :
    ∃ negative e f, x = finite negative e f ∧ w = signed negative (magnitude e f) := by
  cases x with
  | finite negative e f => exact ⟨negative, e, f, rfl, (Option.some.inj h).symm⟩
  | _ => cases h

theorem abs_signed (negative : Bool) (ha : 0 ≤ a) : |signed negative a| = a := by
  cases negative
  · exact abs_of_nonneg ha
  · exact (abs_neg a).trans (abs_of_nonneg ha)

theorem abs_signed_sub (negative : Bool) (a b : ℚ) :
    |signed negative a - signed negative b| = |a - b| := by
  cases negative
  · rfl
  · simp only [signed, ↓reduceIte, neg_sub_neg]
    exact abs_sub_comm b a

theorem abs_sub_le_signed (ha : 0 ≤ a) (hb : 0 ≤ b) :
    |a - b| ≤ |signed negative a - signed negative' b| := by
  calc |a - b| = |(|signed negative a| - |signed negative' b|)| := by
        rw [abs_signed negative ha, abs_signed negative' hb]
    _ ≤ |signed negative a - signed negative' b| := abs_abs_sub_abs_le _ _

/-- With opposite signs they are farther apart, unless one of them is zero. -/
theorem eq_zero_of_opposite (ha : 0 ≤ a) (hb : 0 ≤ b)
    (h : |signed (!negative) a - signed negative b| = |a - b|) : a = 0 ∨ b = 0 := by
  have hsum : |signed (!negative) a - signed negative b| = a + b := by
    cases negative
    · simp only [signed, Bool.not_false, ↓reduceIte, Bool.false_eq_true]
      rw [← neg_add', abs_neg, abs_of_nonneg (add_nonneg ha hb)]
    · simp only [signed, Bool.not_true, ↓reduceIte, Bool.false_eq_true]
      rw [sub_neg_eq_add, abs_of_nonneg (add_nonneg ha hb)]
  rw [hsum] at h
  rcases abs_cases (a - b) with ⟨habs, -⟩ | ⟨habs, -⟩
  · right
    linarith
  · left
    linarith

/-- The opposite number is not as near. -/
theorem signed_eq_of_abs_sub_eq (ha : 0 ≤ a) (hb : 0 ≤ b) (hzero : b = 0 → a = 0)
    (h : |signed negative' a - signed negative b| = |a - b|) :
    signed negative' a = signed negative a := by
  by_cases hsign : negative' = negative
  · rw [hsign]
  · rw [Bool.eq_not_of_ne hsign] at h
    have hvalue : a = 0 := (eq_zero_of_opposite ha hb h).elim id hzero
    simp [hvalue, signed]

theorem signed_abs (q : ℚ) : q = signed (decide (q < 0)) |q| := by
  by_cases hq : q < 0
  · simp [signed, hq, abs_of_neg hq]
  · simp [signed, hq, abs_of_nonneg (not_lt.mp hq)]

theorem decide_signed_lt_zero (negative : Bool) (ha : 0 < a) :
    decide (signed negative a < 0) = negative := by
  cases negative
  · simpa [signed] using ha.le
  · simpa [signed] using ha

end Signed

/-- The number for an exact value: no finite number is nearer, one that is as near leaves it to
the even one, and from the bound on it is infinite. -/
inductive NearestTo (q : ℚ) : Binary64 → Prop
  | finite {negative e f} (small : |q| < overflowBound)
      (nearest : ∀ (y : Binary64) (w : ℚ), y.value? = some w →
        |signed negative (magnitude e f) - q| ≤ |w - q|)
      (even : ∀ (y : Binary64) (w : ℚ), y.value? = some w → w ≠ signed negative (magnitude e f) →
        |w - q| = |signed negative (magnitude e f) - q| → f.val % 2 = 0) :
      NearestTo q (.finite negative e f)
  | infinite (large : overflowBound ≤ |q|) : NearestTo q (.infinite (decide (q < 0)))

theorem NearestTo.of_magnitude {negative : Bool} {e : Fin 2047} {f : Fin (2 ^ (52 : Nat))}
    (ht : 0 ≤ t) (small : t < overflowBound)
    (nearest : ∀ e' f', |magnitude e f - t| ≤ |magnitude e' f' - t|)
    (even : ∀ e' f', magnitude e' f' ≠ magnitude e f →
      |magnitude e' f' - t| = |magnitude e f - t| → f.val % 2 = 0) :
    NearestTo (signed negative t) (.finite negative e f) := by
  have hzero : t = 0 → magnitude e f = 0 := by
    rintro rfl
    have hle := nearest 0 0
    simpa [magnitude, significand] using hle
  apply NearestTo.finite
  · rwa [abs_signed negative ht]
  · intro y w hw
    obtain ⟨negative', e', f', -, rfl⟩ := exists_of_value? hw
    rw [abs_signed_sub]
    exact (nearest e' f').trans (abs_sub_le_signed (magnitude_nonneg e' f') ht)
  · intro y w hw hne heq
    obtain ⟨negative', e', f', -, rfl⟩ := exists_of_value? hw
    rw [abs_signed_sub] at heq
    have hle : |magnitude e' f' - t| ≤ |magnitude e f - t| :=
      (abs_sub_le_signed (magnitude_nonneg e' f') ht).trans_eq heq
    have htie : |magnitude e' f' - t| = |magnitude e f - t| := le_antisymm hle (nearest e' f')
    by_cases hsame : magnitude e' f' = magnitude e f
    · rw [hsame] at hne heq
      exact absurd (signed_eq_of_abs_sub_eq (magnitude_nonneg e f) ht hzero heq) hne
    · exact even e' f' hsame htie

theorem nearestTo_ofQuotient (negative : Bool) (hnum : num ≠ 0) (hden : den ≠ 0) :
    NearestTo (signed negative (num / den)) (ofQuotient negative num den) := by
  have hpos : (0 : ℚ) < num / den := by positivity
  have hround := roundsTo_gridSteps hnum hden
  simp only [ofQuotient, hnum, ↓reduceIte]
  generalize gridScale 53 (-1074) num den = s at *
  by_cases hfits : s < 971 ∨ s = 971 ∧ gridSteps s num den < 2 ^ (53 : Nat)
  · obtain ⟨e, f, hplace, hvalue, hparity⟩ := hround.exists_ofMagnitude negative hfits
    rw [hplace]
    apply NearestTo.of_magnitude hpos.le (hround.fits_iff.mp hfits)
    · intro e' f'
      rw [hvalue]
      exact (hround.abs_le_magnitude e' f').1
    · intro e' f' hne heq
      rw [hvalue] at hne heq
      exact hparity ((hround.abs_le_magnitude e' f').2 hne heq)
  · have hlarge : overflowBound ≤ num / den := not_lt.mp fun hlt => hfits (hround.fits_iff.mpr hlt)
    rw [hround.ofMagnitude_eq_infinite negative hfits]
    nth_rewrite 2 [← decide_signed_lt_zero negative hpos]
    apply NearestTo.infinite
    rwa [abs_signed negative hpos.le]

theorem le_magnitude {e : Fin 2047} {f : Fin (2 ^ (52 : Nat))} (h : magnitude e f ≠ 0) :
    (2 : ℚ) ^ (-1074 : Int) ≤ magnitude e f := by
  have hsignificand : significand e f ≠ 0 := by
    intro hzero
    simp [magnitude, hzero] at h
  calc (2 : ℚ) ^ (-1074 : Int) ≤ 2 ^ scale e := zpow_le_zpow_right₀ one_le_two (le_scale e)
    _ ≤ significand e f * 2 ^ scale e := by
      apply le_mul_of_one_le_left (by positivity)
      exact_mod_cast Nat.one_le_iff_ne_zero.mpr hsignificand

/-- Half of the smallest number that is not zero. -/
def underflowBound : ℚ :=
  2 ^ (-1075 : Int)

theorem two_mul_underflowBound : 2 * underflowBound = 2 ^ (-1074 : Int) := by
  rw [underflowBound, mul_comm, ← zpow_add_one₀ two_ne_zero]
  rfl

theorem underflowBound_lt : underflowBound < overflowBound := by
  have hstep : (1 : ℚ) ≤ 2 ^ (971 : Int) := one_le_zpow₀ one_le_two (by decide)
  have hsmall : underflowBound ≤ 1 := zpow_le_one_of_nonpos₀ one_le_two (by decide)
  rw [overflowBound_eq]
  generalize (2 : ℚ) ^ (971 : Int) = step at *
  norm_num
  linarith

theorem isZero_iff_magnitude {negative : Bool} {e : Fin 2047} {f : Fin (2 ^ (52 : Nat))} :
    (finite negative e f).isZero = true ↔ magnitude e f = 0 := by
  constructor
  · intro h
    rw [magnitude, eq_of_beq h, Nat.cast_zero, zero_mul]
  · intro h
    exact isZero_of_magnitude h negative

theorem magnitude_zero : magnitude 0 0 = 0 := by
  simp [magnitude, significand]

theorem nearestTo_zero (negative : Bool) (ht : 0 ≤ t) (hle : t ≤ underflowBound) :
    NearestTo (signed negative t) (zero negative) := by
  apply NearestTo.of_magnitude ht (hle.trans_lt underflowBound_lt)
  · intro e' f'
    rw [magnitude_zero, zero_sub, abs_neg, abs_of_nonneg ht]
    by_cases hzero : magnitude e' f' = 0
    · rw [hzero, zero_sub, abs_neg, abs_of_nonneg ht]
    · have hge := le_magnitude hzero
      rw [← two_mul_underflowBound] at hge
      apply le_trans ?_ (le_abs_self _)
      linarith
  · intro _ _ _ _
    rfl

theorem value_eq_div (d : Decimal) :
    d.value = (d.coefficient * 10 ^ d.exponent.toNat : Nat) / (10 ^ (-d.exponent).toNat : Nat) := by
  have hpower := zpow_eq_div 10 d.exponent
  rw [Nat.cast_ofNat] at hpower
  rw [Decimal.value, hpower, Nat.cast_mul, mul_div_assoc]

theorem value_nonneg (d : Decimal) : 0 ≤ d.value := by
  unfold Decimal.value
  positivity

theorem zpow_le_zpow_of_pow_le {a b m n : Nat} (h : a ^ m ≤ b ^ n) :
    (a : ℚ) ^ (m : Int) ≤ (b : ℚ) ^ (n : Int) := by
  exact_mod_cast h

/-- What is infinite without a look at its digits. -/
theorem overflowBound_le_value {d : Decimal} (hne : d.coefficient ≠ 0) (h : 310 < d.exponent) :
    overflowBound ≤ d.value := by
  have hpow : (2 : ℚ) ^ (1024 : Int) ≤ 10 ^ (311 : Int) := by
    have hpowers : 2 ^ (1024 : Nat) ≤ 10 ^ (311 : Nat) := by decide +kernel
    have hpows := zpow_le_zpow_of_pow_le hpowers
    simpa only [Nat.cast_ofNat] using hpows
  calc overflowBound ≤ 2 ^ (1024 : Int) := by
        unfold overflowBound
        exact sub_le_self _ (by positivity)
    _ ≤ 10 ^ (311 : Int) := hpow
    _ ≤ 10 ^ d.exponent := zpow_le_zpow_right₀ (by norm_num) (by omega)
    _ ≤ d.value := by
      unfold Decimal.value
      apply le_mul_of_one_le_left (by positivity)
      exact_mod_cast Nat.one_le_iff_ne_zero.mpr hne

/-- What is zero without a look at its digits. -/
theorem value_le_underflowBound {d : Decimal}
    (h : d.exponent + (d.coefficient.log2 + 1) < -330) : d.value ≤ underflowBound := by
  have hpow : (10 : ℚ) ^ (-331 : Int) ≤ 2 ^ (-1075 : Int) := by
    have hpowers : 2 ^ (1075 : Nat) ≤ 10 ^ (331 : Nat) := by decide +kernel
    have hpows := zpow_le_zpow_of_pow_le hpowers
    simp only [Nat.cast_ofNat] at hpows
    rw [zpow_neg, zpow_neg]
    exact inv_anti₀ (by positivity) hpows
  have hcoefficient : (d.coefficient : ℚ) ≤ 10 ^ ((d.coefficient.log2 : Int) + 1) := by
    have hnat : d.coefficient ≤ 10 ^ (d.coefficient.log2 + 1) :=
      Nat.lt_log2_self.le.trans (Nat.pow_le_pow_left (by decide) _)
    exact_mod_cast hnat
  calc d.value ≤ 10 ^ ((d.coefficient.log2 : Int) + 1) * 10 ^ d.exponent := by
        unfold Decimal.value
        gcongr
    _ = 10 ^ (d.exponent + (d.coefficient.log2 + 1)) := by
      rw [← zpow_add₀ (by norm_num), add_comm]
    _ ≤ 10 ^ (-331 : Int) := zpow_le_zpow_right₀ (by norm_num) (by omega)
    _ ≤ underflowBound := hpow

theorem nearestTo_ofDecimal (negative : Bool) (d : Decimal) :
    NearestTo (signed negative d.value) (ofDecimal negative d) := by
  unfold ofDecimal
  split_ifs with hzero hlarge hsmall
  · have hvalue : d.value = 0 := by rw [Decimal.value, hzero, Nat.cast_zero, zero_mul]
    rw [hvalue]
    apply nearestTo_zero negative le_rfl
    unfold underflowBound
    positivity
  · have hge := overflowBound_le_value hzero hlarge
    have hpos : 0 < d.value := by
      apply lt_of_lt_of_le ?_ hge
      exact underflowBound_lt.trans_le' (by unfold underflowBound; positivity)
    nth_rewrite 2 [← decide_signed_lt_zero negative hpos]
    apply NearestTo.infinite
    rwa [abs_signed negative hpos.le]
  · exact nearestTo_zero negative (value_nonneg d) (value_le_underflowBound hsmall)
  · rw [value_eq_div]
    exact nearestTo_ofQuotient negative (by positivity) (by positivity)

theorem isNegative_ofMagnitude (negative : Bool) (place : Nat) :
    (ofMagnitude negative place).isNegative = negative := by
  unfold ofMagnitude
  split <;> rfl

theorem isNegative_ofQuotient (negative : Bool) (num den : Nat) :
    (ofQuotient negative num den).isNegative = negative := by
  unfold ofQuotient
  split
  · rfl
  · exact isNegative_ofMagnitude negative _

theorem isNegative_ofDecimal (negative : Bool) (d : Decimal) :
    (ofDecimal negative d).isNegative = negative := by
  unfold ofDecimal
  split_ifs
  · rfl
  · rfl
  · rfl
  · exact isNegative_ofQuotient negative _ _

namespace NearestTo

variable {q : ℚ} {x : Binary64}

theorem isFinite_iff (h : NearestTo q x) : x.isFinite = true ↔ |q| < overflowBound := by
  cases h with
  | finite small => exact iff_of_true rfl small
  | infinite large => exact iff_of_false Bool.false_ne_true (not_lt.mpr large)

theorem magnitude_one : magnitude 0 1 = 2 * underflowBound := by
  rw [two_mul_underflowBound]
  simp [magnitude, significand, scale]

section Zero

variable {negative : Bool} {e : Fin 2047} {f : Fin (2 ^ (52 : Nat))}

/-- Otherwise the smallest number of its sign would be nearer. -/
theorem abs_le_of_zero (h : NearestTo q (.finite negative e f)) (hzero : magnitude e f = 0) :
    |q| ≤ underflowBound := by
  cases h with
  | finite small nearest even =>
    have hleast := nearest (.finite (decide (q < 0)) 0 1) _ (value?_finite _ _ _)
    have hsigned : signed negative 0 = 0 := by simp [signed]
    have hdistance := abs_signed_sub (decide (q < 0)) (2 * underflowBound) |q|
    rw [← signed_abs] at hdistance
    rw [hzero, hsigned, zero_sub, abs_neg, magnitude_one, hdistance] at hleast
    have hnonneg := abs_nonneg q
    rcases abs_cases (2 * underflowBound - |q|) with ⟨habs, -⟩ | ⟨habs, hneg⟩
    · linarith
    · have hpos : 0 < underflowBound := by
        unfold underflowBound
        positivity
      linarith

/-- The smallest number is not even, so zero has the middle between the two. -/
theorem magnitude_eq_zero (h : NearestTo q (.finite negative e f)) (hle : |q| ≤ underflowBound) :
    magnitude e f = 0 := by
  cases h with
  | finite small nearest even =>
    by_contra hne
    have hvalue : |signed negative (magnitude e f)| = magnitude e f :=
      abs_signed negative (magnitude_nonneg e f)
    have hge : 2 * underflowBound ≤ magnitude e f := by
      rw [two_mul_underflowBound]
      exact le_magnitude hne
    have hzero : (zero false).value? = some 0 := by
      rw [zero, value?_finite, magnitude_zero]
      rfl
    have hnear := nearest (zero false) 0 hzero
    have htriangle := abs_sub_abs_le_abs_sub (signed negative (magnitude e f)) q
    rw [hvalue] at htriangle
    rw [zero_sub, abs_neg] at hnear
    have hleast : magnitude e f = magnitude 0 1 := by
      rw [magnitude_one]
      linarith
    have hparity : f.val % 2 = 0 := by
      apply even (zero false) 0 hzero
      · intro heq
        rw [← heq, abs_zero] at hvalue
        exact hne hvalue.symm
      · rw [zero_sub, abs_neg]
        linarith
    obtain ⟨-, rfl⟩ := magnitude_inj hne hleast
    cases hparity

end Zero

/-- What is at most half of the smallest number is rounded to zero, and nothing else is. -/
theorem isZero_iff (h : NearestTo q x) : x.isZero = true ↔ |q| ≤ underflowBound := by
  cases x with
  | nan => cases h
  | infinite negative =>
    cases h with
    | infinite large =>
      exact iff_of_false Bool.false_ne_true (not_le.mpr (underflowBound_lt.trans_le large))
  | finite negative e f =>
    rw [isZero_iff_magnitude]
    constructor
    · intro hzero
      exact h.abs_le_of_zero hzero
    · intro hle
      exact h.magnitude_eq_zero hle

end NearestTo

end Binary64
end TaggedData
