import Mathlib.Algebra.Order.Field.Power
import Mathlib.Data.Int.Log
import Mathlib.Data.Rat.Floor
import Mathlib.Tactic.Linarith
import Mathlib.Tactic.NormNum
import Mathlib.Tactic.Positivity
import TaggedData.Binary64.Rounding

/-!
# The exact values of numbers

A finite number stands for a rational one, its significand times a power of two. The integer
that a number is equal to is this value. A number lies on the grid for quotients of its own
size, so rounding takes the value of a number to the number itself.
-/

namespace TaggedData
namespace Binary64

/-- The exact value of a finite number without its sign. -/
def magnitude (exponent : Fin 2047) (fraction : Fin (2 ^ (52 : Nat))) : ℚ :=
  significand exponent fraction * 2 ^ scale exponent

def value? : Binary64 → Option ℚ
  | .finite negative e f => some (if negative then -magnitude e f else magnitude e f)
  | _ => none

variable {e : Fin 2047} {f : Fin (2 ^ (52 : Nat))}

theorem magnitude_nonneg (e : Fin 2047) (f : Fin (2 ^ (52 : Nat))) : 0 ≤ magnitude e f := by
  unfold magnitude
  positivity

/-- The whole number that a magnitude is, if it is one. -/
def wholeMagnitude? (exponent : Fin 2047) (fraction : Fin (2 ^ (52 : Nat))) : Option Nat :=
  match scale exponent with
  | .ofNat k => some (significand exponent fraction * 2 ^ k)
  | .negSucc k =>
    if significand exponent fraction % 2 ^ (k + 1) = 0 then
      some (significand exponent fraction / 2 ^ (k + 1))
    else none

theorem wholeMagnitude?_eq_some_iff {n : Nat} :
    wholeMagnitude? e f = some n ↔ magnitude e f = n := by
  unfold wholeMagnitude? magnitude
  split
  · rename_i k hscale
    rw [hscale, Int.ofNat_eq_natCast, zpow_natCast, Option.some.injEq]
    norm_cast
  · rename_i k hscale
    have hpow : (0 : ℚ) < 2 ^ (k + 1) := by positivity
    rw [hscale, zpow_negSucc, ← div_eq_mul_inv, div_eq_iff hpow.ne']
    split_ifs with hmod
    · have hdvd := Nat.dvd_of_mod_eq_zero hmod
      rw [Option.some.injEq, Nat.div_eq_iff_eq_mul_left (Nat.two_pow_pos _) hdvd]
      norm_cast
    · simp only [false_iff]
      intro heq
      have hnat : significand e f = n * 2 ^ (k + 1) := by exact_mod_cast heq
      exact hmod (hnat ▸ Nat.mul_mod_left n _)

theorem toInt?_finite (negative : Bool) (e : Fin 2047) (f : Fin (2 ^ (52 : Nat))) :
    (finite negative e f).toInt? =
      (wholeMagnitude? e f).map fun (n : Nat) => if negative then -(n : Int) else n := by
  change (wholeMagnitude? e f >>= fun n => some (n : Int)).map _ = _
  cases wholeMagnitude? e f <;> rfl

theorem toInt?_eq_some_iff {x : Binary64} {n : Int} :
    x.toInt? = some n ↔ x.value? = some (n : ℚ) := by
  cases x with
  | nan => simp [toInt?, value?]
  | infinite negative => simp [toInt?, value?]
  | finite negative e f =>
    have hnonneg := magnitude_nonneg e f
    rw [toInt?_finite, value?, Option.map_eq_some_iff, Option.some.injEq]
    simp only [wholeMagnitude?_eq_some_iff]
    constructor
    · rintro ⟨q, hq, rfl⟩
      rw [hq]
      split <;> simp
    · intro h
      -- A magnitude is not negative, so the sign of the integer is the sign of the number.
      split_ifs at h with hneg
      · have hn : magnitude e f = (-n : Int) := by
          rw [Int.cast_neg, ← h, neg_neg]
        have hle : 0 ≤ -n := by exact_mod_cast hn ▸ hnonneg
        obtain ⟨q, hq⟩ := Int.eq_ofNat_of_zero_le hle
        refine ⟨q, by rw [hn, hq, Int.cast_natCast], ?_⟩
        rw [if_pos hneg]
        omega
      · have hle : 0 ≤ n := by exact_mod_cast h ▸ hnonneg
        obtain ⟨q, rfl⟩ := Int.eq_ofNat_of_zero_le hle
        exact ⟨q, by rw [h, Int.cast_natCast], if_neg hneg⟩

variable {num den : Nat}

/-- A power as the factors that stand on either side of a quotient. -/
theorem zpow_eq_div (b : Nat) (k : Int) :
    (b : ℚ) ^ k = ((b ^ k.toNat : Nat) : ℚ) / ((b ^ (-k).toNat : Nat) : ℚ) := by
  cases k with
  | ofNat n => simp
  | negSucc n => simp [zpow_negSucc]

theorem zpow_two_eq_div (k : Int) :
    (2 : ℚ) ^ k = ((2 ^ k.toNat : Nat) : ℚ) / ((2 ^ (-k).toNat : Nat) : ℚ) :=
  zpow_eq_div 2 k

theorem pow_mul_le_iff (hden : den ≠ 0) (k : Int) :
    den * 2 ^ k.toNat ≤ num * 2 ^ (-k).toNat ↔ (2 : ℚ) ^ k ≤ num / den := by
  have hden : (0 : ℚ) < den := by positivity
  have hpow : (0 : ℚ) < ((2 ^ (-k).toNat : Nat) : ℚ) := by positivity
  rw [zpow_two_eq_div, div_le_div_iff₀ hpow hden, mul_comm]
  norm_cast

/-- The two powers of two around a quotient decide its logarithm. -/
theorem log_two_eq {q : ℚ} {k : Int} (hq : 0 < q) (hle : (2 : ℚ) ^ k ≤ q) (hlt : q < 2 ^ (k + 1)) :
    Int.log 2 q = k := by
  have hlower := (Int.zpow_le_iff_le_log (b := 2) one_lt_two hq).mp hle
  have hupper := (Int.lt_zpow_iff_log_lt (b := 2) one_lt_two hq).mp hlt
  omega

theorem quotient_lt (hden : den ≠ 0) :
    (num / den : ℚ) < 2 ^ ((num.log2 : Int) - den.log2 + 1) := by
  have hpos : (0 : ℚ) < den := by positivity
  have hnum : (num : ℚ) < 2 ^ ((num.log2 : Int) + 1) := by exact_mod_cast Nat.lt_log2_self
  have hle : (2 : ℚ) ^ (den.log2 : Int) ≤ den := by exact_mod_cast Nat.log2_self_le hden
  rw [div_lt_iff₀ hpos]
  calc (num : ℚ) < 2 ^ ((num.log2 : Int) + 1) := hnum
    _ = 2 ^ ((num.log2 : Int) - den.log2 + 1) * 2 ^ (den.log2 : Int) := by
      rw [← zpow_add₀ two_ne_zero]
      congr 1
      omega
    _ ≤ 2 ^ ((num.log2 : Int) - den.log2 + 1) * den := by gcongr

theorem le_quotient (hnum : num ≠ 0) (hden : den ≠ 0) :
    (2 : ℚ) ^ ((num.log2 : Int) - den.log2 - 1) ≤ num / den := by
  have hpos : (0 : ℚ) < den := by positivity
  have hle : (2 : ℚ) ^ (num.log2 : Int) ≤ num := by exact_mod_cast Nat.log2_self_le hnum
  have hlt : (den : ℚ) < 2 ^ ((den.log2 : Int) + 1) := by exact_mod_cast Nat.lt_log2_self
  rw [le_div_iff₀ hpos]
  calc (2 : ℚ) ^ ((num.log2 : Int) - den.log2 - 1) * den
      ≤ 2 ^ ((num.log2 : Int) - den.log2 - 1) * 2 ^ ((den.log2 : Int) + 1) := by gcongr
    _ = 2 ^ (num.log2 : Int) := by
      rw [← zpow_add₀ two_ne_zero]
      congr 1
      omega
    _ ≤ num := hle

theorem floorLog2_eq_log (hnum : num ≠ 0) (hden : den ≠ 0) :
    floorLog2 num den = Int.log 2 (num / den : ℚ) := by
  have hpos : (0 : ℚ) < num / den := by positivity
  unfold floorLog2
  simp only [pow_mul_le_iff hden]
  split_ifs with h
  · exact (log_two_eq hpos h (quotient_lt hden)).symm
  · refine (log_two_eq hpos (le_quotient hnum hden) ?_).symm
    rw [sub_add_cancel]
    exact not_le.mp h

theorem log_magnitude (h : significand e f ≠ 0) :
    Int.log 2 (magnitude e f) = (significand e f).log2 + scale e := by
  have hpos : 0 < magnitude e f := by
    unfold magnitude
    positivity
  refine log_two_eq hpos ?_ ?_
  · rw [zpow_add₀ two_ne_zero, magnitude]
    gcongr
    exact_mod_cast Nat.log2_self_le h
  · rw [add_right_comm, zpow_add₀ two_ne_zero, magnitude]
    gcongr
    exact_mod_cast Nat.lt_log2_self

theorem gridScale_of_magnitude (hnum : num ≠ 0) (hden : den ≠ 0)
    (h : (num / den : ℚ) = magnitude e f) : gridScale 53 (-1074) num den = scale e := by
  have hsig : significand e f ≠ 0 := by
    intro hzero
    have hne : (num / den : ℚ) ≠ 0 := by positivity
    simp [h, magnitude, hzero] at hne
  have hf := f.isLt
  rw [gridScale, floorLog2_eq_log hnum hden, h, log_magnitude hsig]
  by_cases he : e.val = 0
  · -- A subnormal number is too small for its leading bit to count.
    have hlog : (significand e f).log2 < 52 := by
      rw [Nat.log2_lt hsig, significand, if_pos he]
      exact hf
    unfold scale
    omega
  · have hlog : (significand e f).log2 = 52 := by
      rw [Nat.log2_eq_iff hsig, significand, if_neg he]
      omega
    unfold scale
    omega

theorem roundHalfEven_mul (n den : Nat) (hden : den ≠ 0) : roundHalfEven (n * den) den = n := by
  have hpos : 0 < den := Nat.pos_of_ne_zero hden
  simp [roundHalfEven, Nat.mul_mod_left, Nat.mul_div_cancel _ hpos, Nat.compare_eq_lt.mpr hpos]

theorem gridSteps_of_magnitude (hden : den ≠ 0) (h : (num / den : ℚ) = magnitude e f) :
    gridSteps (scale e) num den = significand e f := by
  have hsplit : num * 2 ^ (-scale e).toNat = significand e f * (den * 2 ^ (scale e).toNat) := by
    have hden : (den : ℚ) ≠ 0 := by positivity
    have hpow : ((2 ^ (-scale e).toNat : Nat) : ℚ) ≠ 0 := by positivity
    rw [magnitude, zpow_two_eq_div, ← mul_div_assoc, div_eq_div_iff hden hpow] at h
    rw [Nat.mul_comm den, ← Nat.mul_assoc]
    exact_mod_cast h
  rw [gridSteps, hsplit]
  exact roundHalfEven_mul _ _ (by positivity)

/-- The steps to a number and the scale of its grid give its place among the magnitudes. -/
theorem place_eq (e : Fin 2047) (f : Fin (2 ^ (52 : Nat))) :
    (scale e + 1074).toNat * 2 ^ (52 : Nat) + significand e f =
      e.val * 2 ^ (52 : Nat) + f.val := by
  unfold scale significand
  split_ifs with he
  · simp [he]
  · omega

theorem ofQuotient_of_magnitude (negative : Bool) (hnum : num ≠ 0) (hden : den ≠ 0)
    (h : (num / den : ℚ) = magnitude e f) : ofQuotient negative num den = .finite negative e f := by
  simp only [ofQuotient, hnum, ↓reduceIte, gridScale_of_magnitude hnum hden h,
    gridSteps_of_magnitude hden h, place_eq, ofMagnitude_place]

theorem exists_magnitude {x : Binary64} {n : Nat} (h : x.value? = some (n : ℚ)) :
    ∃ e f, magnitude e f = n := by
  cases x with
  | nan => cases h
  | infinite negative => cases h
  | finite negative e f =>
    have hnonneg := magnitude_nonneg e f
    rw [value?, Option.some.injEq] at h
    split_ifs at h
    · -- The opposite of a magnitude is a whole number if both are zero.
      have hn : (0 : ℚ) ≤ n := by positivity
      exact ⟨e, f, by linarith⟩
    · exact ⟨e, f, h⟩

/-- A whole number is kept if it is the value of any number at all. -/
theorem value?_ofNat {n : Nat} {x : Binary64} (h : x.value? = some (n : ℚ)) :
    (ofNat n).value? = some (n : ℚ) := by
  obtain ⟨e, f, hvalue⟩ := exists_magnitude h
  by_cases hn : n = 0
  · subst hn
    simp [ofNat, ofQuotient, zero, value?, magnitude, significand]
  · have hquotient : (n : ℚ) / ((1 : Nat) : ℚ) = magnitude e f := by
      rw [hvalue, Nat.cast_one, div_one]
    rw [ofNat, ofQuotient_of_magnitude false hn one_ne_zero hquotient, value?, hvalue]
    rfl

theorem dvd_of_magnitude {n : Nat} (h : magnitude e f = n) : 2 ^ (n.log2 - 52) ∣ n := by
  by_cases hn : n.log2 ≤ 52
  · rw [Nat.sub_eq_zero_of_le hn, pow_zero]
    exact one_dvd n
  have hne : n ≠ 0 := by
    rintro rfl
    exact hn (by decide)
  have hsig : significand e f ≠ 0 := by
    intro hzero
    rw [magnitude, hzero, Nat.cast_zero, zero_mul] at h
    exact hne (by exact_mod_cast h.symm)
  have hlog : (n.log2 : Int) = (significand e f).log2 + scale e := by
    rw [← log_magnitude hsig, h, Int.log_natCast, Nat.log2_eq_log_two]
  have hsmall : (significand e f).log2 < 53 := (Nat.log2_lt hsig).mpr (significand_lt e f)
  -- The significand is too small for a number of this size, so the step of its grid is whole.
  obtain ⟨k, hk⟩ := Int.eq_ofNat_of_zero_le (show 0 ≤ scale e by omega)
  rw [magnitude, hk, zpow_natCast] at h
  have hdvd : 2 ^ k ∣ n := ⟨significand e f, by exact_mod_cast (mul_comm _ _).trans h |>.symm⟩
  exact (Nat.pow_dvd_pow 2 (by omega)).trans hdvd

theorem exists_significand_eq {q : Nat} (he : e.val ≠ 0) (hle : 2 ^ (52 : Nat) ≤ q)
    (hlt : q < 2 ^ (53 : Nat)) : ∃ f, significand e f = q := by
  refine ⟨⟨q - 2 ^ (52 : Nat), by omega⟩, ?_⟩
  rw [significand, if_neg he]
  simp only
  omega

theorem exists_magnitude_of_dvd {n : Nat} (hne : n ≠ 0) (hlog : n.log2 < 1024)
    (h : 2 ^ (n.log2 - 52) ∣ n) : ∃ e f, magnitude e f = n := by
  obtain ⟨m, hm⟩ := h
  have hsteps : m * 2 ^ (52 - n.log2) * 2 ^ (n.log2 - 52) = n * 2 ^ (52 - n.log2) := by
    rw [Nat.mul_right_comm, Nat.mul_comm m, ← hm]
  have hsize : ∀ k, 2 ^ (52 + k) * 2 ^ (n.log2 - 52) = 2 ^ (n.log2 + k) * 2 ^ (52 - n.log2) := by
    intro k
    rw [← pow_add, ← pow_add]
    congr 1
    omega
  have hle : 2 ^ (52 : Nat) ≤ m * 2 ^ (52 - n.log2) := by
    refine Nat.le_of_mul_le_mul_right ?_ (Nat.two_pow_pos (n.log2 - 52))
    rw [hsteps]
    exact (hsize 0).trans_le (Nat.mul_le_mul_right _ (Nat.log2_self_le hne))
  have hlt : m * 2 ^ (52 - n.log2) < 2 ^ (53 : Nat) := by
    refine Nat.lt_of_mul_lt_mul_right (a := 2 ^ (n.log2 - 52)) ?_
    rw [hsteps]
    exact (Nat.mul_lt_mul_of_pos_right Nat.lt_log2_self (Nat.two_pow_pos _)).trans_eq (hsize 1).symm
  obtain ⟨e, he⟩ : ∃ e : Fin 2047, e.val = n.log2 + 1023 := ⟨⟨_, by omega⟩, rfl⟩
  obtain ⟨f, hf⟩ := exists_significand_eq (show e.val ≠ 0 by omega) hle hlt
  refine ⟨e, f, ?_⟩
  have hscale : scale e = (n.log2 : Int) - 52 := by
    unfold scale
    omega
  have hpow : ((2 ^ (52 - n.log2) : Nat) : ℚ) ≠ 0 := by positivity
  have hnum : ((n.log2 : Int) - 52).toNat = n.log2 - 52 := by omega
  have hden : (-((n.log2 : Int) - 52)).toNat = 52 - n.log2 := by omega
  rw [magnitude, hf, hscale, zpow_two_eq_div, hnum, hden, ← mul_div_assoc, div_eq_iff hpow]
  exact_mod_cast hsteps

/-- The whole numbers that are exact: those of at most 53 significant bits. -/
theorem exists_value?_iff {n : Nat} (hlog : n.log2 < 1024) :
    (∃ x : Binary64, x.value? = some (n : ℚ)) ↔ 2 ^ (n.log2 - 52) ∣ n := by
  constructor
  · rintro ⟨x, hx⟩
    obtain ⟨e, f, hvalue⟩ := exists_magnitude hx
    exact dvd_of_magnitude hvalue
  · intro h
    by_cases hne : n = 0
    · subst hne
      exact ⟨zero false, by simp [zero, value?, magnitude, significand]⟩
    · obtain ⟨e, f, hvalue⟩ := exists_magnitude_of_dvd hne hlog h
      exact ⟨.finite false e f, congrArg some hvalue⟩

end Binary64
end TaggedData
