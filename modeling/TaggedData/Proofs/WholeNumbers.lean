import TaggedData.Binary64.Text
import TaggedData.Proofs.ExactValues

/-!
# Whole numbers in documents

A number is written to a document as an integer if it is one between the bounds, and the upper
bound itself as the integer below it. The number nearest to what was written has the value of
the number that was written: an exact integer is kept, and the integer below the upper bound is
not exact, so it is rounded up to the bound again.
-/

namespace TaggedData
namespace Binary64

variable {x y : Binary64} {e e' : Fin 2047} {f f' : Fin (2 ^ (52 : Nat))}

/-- A magnitude that is not zero has one representation. -/
theorem magnitude_inj (hne : magnitude e f ≠ 0) (h : magnitude e f = magnitude e' f') :
    e = e' ∧ f = f' := by
  obtain ⟨num, den, hnum, hden, hquotient⟩ : ∃ num den : Nat, num ≠ 0 ∧ den ≠ 0 ∧
      (num / den : ℚ) = magnitude e f := by
    have hpos : 0 < magnitude e f := lt_of_le_of_ne (magnitude_nonneg e f) hne.symm
    have hnum : 0 < (magnitude e f).num := Rat.num_pos.mpr hpos
    refine ⟨(magnitude e f).num.toNat, (magnitude e f).den, by omega, (magnitude e f).den_nz, ?_⟩
    have hcast : (((magnitude e f).num.toNat : Nat) : ℚ) = (magnitude e f).num := by
      exact_mod_cast Int.toNat_of_nonneg hnum.le
    rw [hcast, Rat.num_div_den]
  have hleft := ofQuotient_of_magnitude false hnum hden hquotient
  have hright := ofQuotient_of_magnitude false hnum hden (hquotient.trans h)
  cases hleft.symm.trans hright
  exact ⟨rfl, rfl⟩

theorem isZero_of_magnitude (h : magnitude e f = 0) (negative : Bool) :
    (finite negative e f).isZero = true := by
  have hpow : (2 : ℚ) ^ scale e ≠ 0 := by positivity
  have hsignificand : significand e f = 0 := by
    exact_mod_cast (mul_eq_zero.mp h).resolve_right hpow
  simp [isZero, hsignificand]

/-- Numbers of one value are equal; only the sign of a zero does not show in the value. -/
theorem equals_of_value? {q : ℚ} (hx : x.value? = some q) (hy : y.value? = some q) :
    x.equals y = true := by
  cases x with
  | nan => cases hx
  | infinite negative => cases hx
  | finite negative e f =>
    cases y with
    | nan => cases hy
    | infinite negative' => cases hy
    | finite negative' e' f' =>
      have hnonneg := magnitude_nonneg e f
      have hnonneg' := magnitude_nonneg e' f'
      simp only [value?, Option.some.injEq] at hx hy
      by_cases hzero : magnitude e f = 0
      · have hzero' : magnitude e' f' = 0 := by
          rw [← hx, hzero] at hy
          split_ifs at hy <;> linarith
        simp [equals, isZero_of_magnitude hzero, isZero_of_magnitude hzero']
      · -- The sign of the value is the sign of both numbers.
        have hpos : 0 < magnitude e f := lt_of_le_of_ne hnonneg (Ne.symm hzero)
        rw [← hx] at hy
        cases negative <;> cases negative' <;>
          simp only [Bool.false_eq_true, ↓reduceIte] at hy
        · obtain ⟨rfl, rfl⟩ := magnitude_inj hzero hy.symm
          simp [equals]
        · linarith
        · linarith
        · obtain ⟨rfl, rfl⟩ := magnitude_inj hzero (neg_inj.mp hy).symm
          simp [equals]

theorem exists_magnitude_of_int {n : Int} (h : x.value? = some (n : ℚ)) :
    ∃ e f, magnitude e f = (n.natAbs : ℚ) := by
  cases x with
  | nan => cases h
  | infinite negative => cases h
  | finite negative e f =>
    have hnonneg := magnitude_nonneg e f
    rw [value?, Option.some.injEq] at h
    refine ⟨e, f, ?_⟩
    rw [Nat.cast_natAbs, Int.cast_abs, ← h]
    split_ifs
    · rw [abs_neg, abs_of_nonneg hnonneg]
    · rw [abs_of_nonneg hnonneg]

/-- An integer is kept if it is the value of any number at all. -/
theorem value?_ofInt {n : Int} (h : x.value? = some (n : ℚ)) : (ofInt n).value? = some (n : ℚ) := by
  obtain ⟨e, f, hvalue⟩ := exists_magnitude_of_int h
  by_cases hn : n = 0
  · subst hn
    simp [ofInt, ofQuotient, zero, value?, magnitude, significand]
  · have hquotient : (n.natAbs : ℚ) / ((1 : Nat) : ℚ) = magnitude e f := by
      rw [hvalue, Nat.cast_one, div_one]
    rw [ofInt, ofQuotient_of_magnitude _ (Int.natAbs_ne_zero.mpr hn) one_ne_zero hquotient, value?,
      hvalue, Nat.cast_natAbs, Int.cast_abs]
    rcases lt_or_gt_of_ne hn with hneg | hpos
    · have hcast : (n : ℚ) < 0 := by exact_mod_cast hneg
      simp [hneg, abs_of_neg hcast]
    · have hcast : (0 : ℚ) < n := by exact_mod_cast hpos
      simp [hpos.not_gt, abs_of_pos hcast]

theorem roundHalfEven_le (num den : Nat) : roundHalfEven num den ≤ num / den + 1 := by
  unfold roundHalfEven
  simp only
  split <;> omega

theorem isFinite_ofInt {n : Int} (h : n.natAbs < 2 ^ (64 : Nat)) : (ofInt n).isFinite = true := by
  unfold ofInt ofQuotient
  split_ifs with hzero
  · rfl
  · generalize n.natAbs = num at h hzero ⊢
    have hlog : num.log2 < 64 := (Nat.log2_lt hzero).mpr h
    have hscale : gridScale 53 (-1074) num 1 = (num.log2 : Int) - 52 := by
      rw [gridScale, floorLog2_eq_log hzero one_ne_zero, Nat.cast_one, div_one, Int.log_natCast,
        ← Nat.log2_eq_log_two]
      omega
    have hsteps : gridSteps (num.log2 - 52) num 1 ≤ 2 ^ (53 : Nat) + 1 := by
      refine (roundHalfEven_le _ _).trans (Nat.add_le_add_right ?_ 1)
      refine Nat.div_le_of_le_mul ?_
      have hpow : 2 ^ (num.log2 + 1) * 2 ^ (-((num.log2 : Int) - 52)).toNat =
          2 ^ ((num.log2 : Int) - 52).toNat * 2 ^ (53 : Nat) := by
        rw [← pow_add, ← pow_add]
        congr 1
        omega
      rw [one_mul, ← hpow]
      exact Nat.mul_le_mul_right _ Nat.lt_log2_self.le
    have hplace : ((num.log2 : Int) - 52 + 1074).toNat ≤ 1085 := by omega
    simp only [hscale, ofMagnitude]
    rw [dif_pos (by omega)]
    rfl

theorem asInteger?_eq_some_iff {n : Int} : x.asInteger? = some n ↔ ∃ m : Int,
    x.value? = some (m : ℚ) ∧ -integerBound ≤ m ∧ m ≤ integerBound ∧
      n = min m (integerBound - 1) := by
  simp only [asInteger?, Option.bind_eq_some_iff, toInt?_eq_some_iff]
  refine exists_congr fun m => and_congr_right fun _ => ?_
  split_ifs with hbounds
  · simp only [Bool.and_eq_true, decide_eq_true_eq] at hbounds
    simp [hbounds, eq_comm]
  · simp only [Bool.and_eq_true, decide_eq_true_eq, not_and] at hbounds
    simp only [false_iff, not_and]
    exact fun hlower hupper => absurd hupper (hbounds hlower)

/-- The integer below the upper bound has 63 significant bits, and the bound is the number
nearest to it. -/
theorem value?_ofInt_belowBound :
    (ofInt (integerBound - 1)).value? = some ((integerBound : Int) : ℚ) := by
  have hround : (ofInt (integerBound - 1)).toInt? = some (integerBound : Int) := by decide +kernel
  exact toInt?_eq_some_iff.mp hround

/-- The number nearest to the integer that is written has the value of the number. -/
theorem value?_ofInt_asInteger? {n : Int} (h : x.asInteger? = some n) :
    (ofInt n).value? = x.value? := by
  obtain ⟨m, hm, -, hupper, rfl⟩ := asInteger?_eq_some_iff.mp h
  rcases hupper.lt_or_eq with hlt | rfl
  · rw [min_eq_left (by omega), value?_ofInt hm, hm]
  · rw [min_eq_right (by omega), value?_ofInt_belowBound, hm]

theorem asInteger?_congr (h : x.value? = y.value?) : x.asInteger? = y.asInteger? := by
  refine Option.ext fun n => ?_
  rw [asInteger?_eq_some_iff, asInteger?_eq_some_iff, h]

theorem isFinite_of_value? {q : ℚ} (h : x.value? = some q) : x.isFinite = true := by
  cases x with
  | finite => rfl
  | _ => cases h

end Binary64

end TaggedData
