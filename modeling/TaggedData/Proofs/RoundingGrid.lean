import TaggedData.Proofs.ExactValues

/-!
# The grid that quotients are rounded to

A positive quotient lies on the grid of the numbers of its own size, or between two points of
it. Rounding goes to the nearer point, and to the even one from the middle. Every finite number
is a point of this grid or is too small to be nearer than its first point. The point that was
chosen is a number unless it is too large for one, which depends on the quotient alone.
-/

namespace TaggedData
namespace Binary64

variable {num den : Nat} {t : ℚ} {s : Int} {n : Nat}

theorem div_eq_floor_add (hden : den ≠ 0) :
    (num / den : ℚ) = (num / den : Nat) + (num % den : Nat) / den := by
  have hden : (den : ℚ) ≠ 0 := by positivity
  have hsplit : (den : ℚ) * (num / den : Nat) + (num % den : Nat) = num := by
    exact_mod_cast Nat.div_add_mod num den
  rw [← hsplit]
  field_simp

/-- The whole number is at most half a step away, and if it is half a step then it is even. -/
theorem abs_roundHalfEven_sub (num : Nat) (hden : den ≠ 0) :
    |(roundHalfEven num den : ℚ) - num / den| ≤ 1 / 2 ∧
      (|(roundHalfEven num den : ℚ) - num / den| = 1 / 2 → roundHalfEven num den % 2 = 0) := by
  have hpos : (0 : ℚ) < den := by positivity
  have hlt : ((num % den : Nat) : ℚ) / den < 1 := by
    rw [div_lt_one hpos]
    exact_mod_cast Nat.mod_lt num (Nat.pos_of_ne_zero hden)
  have hnonneg : (0 : ℚ) ≤ ((num % den : Nat) : ℚ) / den := by positivity
  have hhalf : ((num % den : Nat) : ℚ) / den * 2 = (2 * (num % den) : Nat) / den := by
    push_cast
    ring
  rw [div_eq_floor_add hden, roundHalfEven]
  generalize ((num % den : Nat) : ℚ) / den = part at *
  split
  · rename_i hcompare
    have hless : part * 2 < 1 := by
      rw [hhalf, div_lt_one hpos]
      exact_mod_cast Nat.compare_eq_lt.mp hcompare
    rw [sub_add_cancel_left, abs_neg, abs_of_nonneg hnonneg]
    constructor
    · linarith
    · intro heq
      linarith
  · rename_i hcompare
    have hmore : 1 < part * 2 := by
      rw [hhalf, one_lt_div hpos]
      exact_mod_cast Nat.compare_eq_gt.mp hcompare
    have habs : |((num / den + 1 : Nat) : ℚ) - ((num / den : Nat) + part)| = 1 - part := by
      rw [Nat.cast_add, Nat.cast_one, add_sub_add_left_eq_sub, abs_of_pos (by linarith)]
    rw [habs]
    constructor
    · linarith
    · intro heq
      linarith
  · rename_i hcompare
    have heq : part = 1 / 2 := by
      have hone : part * 2 = 1 := by
        rw [hhalf, div_eq_one_iff_eq hpos.ne']
        exact_mod_cast Nat.compare_eq_eq.mp hcompare
      linarith
    refine ⟨?_, fun _ => by omega⟩
    rcases Nat.mod_two_eq_zero_or_one (num / den) with hmod | hmod
    · rw [hmod, heq, add_zero, sub_add_cancel_left, abs_neg]
      norm_num
    · rw [hmod, heq, Nat.cast_add, add_sub_add_left_eq_sub]
      norm_num

/-- On the grid of step `2 ^ s`, which is the grid of the numbers of its size, a positive number
is nearest to the point `n`. -/
structure RoundsTo (t : ℚ) (s : Int) (n : Nat) : Prop where
  le_step : -1074 ≤ s
  near : |n * 2 ^ s - t| ≤ 2 ^ s / 2
  even : |n * 2 ^ s - t| = 2 ^ s / 2 → n % 2 = 0
  upper : t < 2 ^ (s + 53)
  lower : s = -1074 ∨ 2 ^ (s + 52) ≤ t

theorem gridSteps_quotient (s : Int) (num den : Nat) :
    ((num * 2 ^ (-s).toNat : Nat) : ℚ) / (den * 2 ^ s.toNat : Nat) = num / den / 2 ^ s := by
  rw [zpow_two_eq_div, Nat.cast_mul, Nat.cast_mul]
  field_simp

theorem roundsTo_gridSteps (hnum : num ≠ 0) (hden : den ≠ 0) :
    RoundsTo (num / den) (gridScale 53 (-1074) num den)
      (gridSteps (gridScale 53 (-1074) num den) num den) := by
  have hpos : (0 : ℚ) < num / den := by positivity
  have hscale : gridScale 53 (-1074) num den = max (Int.log 2 (num / den : ℚ) - 52) (-1074) := by
    rw [gridScale, floorLog2_eq_log hnum hden]
    rfl
  generalize gridScale 53 (-1074) num den = s at *
  have hstep : (0 : ℚ) < 2 ^ s := by positivity
  have hscaled : den * 2 ^ s.toNat ≠ 0 := by positivity
  obtain ⟨hnear, heven⟩ := abs_roundHalfEven_sub (num * 2 ^ (-s).toNat) hscaled
  have hdist : |(gridSteps s num den : ℚ) * 2 ^ s - num / den| =
      |(roundHalfEven (num * 2 ^ (-s).toNat) (den * 2 ^ s.toNat) : ℚ) -
        (num * 2 ^ (-s).toNat : Nat) / (den * 2 ^ s.toNat : Nat)| * 2 ^ s := by
    rw [gridSteps_quotient, gridSteps]
    nth_rewrite 3 [← abs_of_pos hstep]
    rw [← abs_mul, sub_mul, div_mul_cancel₀ _ hstep.ne']
  constructor
  · omega
  · rw [hdist]
    nlinarith
  · intro heq
    rw [hdist] at heq
    apply heven
    exact mul_right_cancel₀ hstep.ne' (heq.trans (by ring))
  · calc (num / den : ℚ) < 2 ^ (Int.log 2 (num / den : ℚ) + 1) :=
        Int.lt_zpow_succ_log_self one_lt_two _
      _ ≤ 2 ^ (s + 53) := zpow_le_zpow_right₀ one_le_two (by omega)
  · by_cases hs : s = -1074
    · exact .inl hs
    · right
      calc (2 : ℚ) ^ (s + 52) ≤ 2 ^ Int.log 2 (num / den : ℚ) :=
            zpow_le_zpow_right₀ one_le_two (by omega)
        _ ≤ num / den := Int.zpow_log_le_self one_lt_two hpos

namespace RoundsTo

theorem le_carry (h : RoundsTo t s n) : n ≤ 2 ^ (53 : Nat) := by
  have hstep : (0 : ℚ) < 2 ^ s := by positivity
  have hnear : n * 2 ^ s - t ≤ 2 ^ s / 2 := (le_abs_self _).trans h.near
  have hupper : t < 2 ^ (53 : Int) * 2 ^ s := by
    rw [← zpow_add₀ two_ne_zero, add_comm]
    exact h.upper
  have hlt : (n : ℚ) < ((2 ^ (53 : Nat) + 1 : Nat) : ℚ) := by
    push_cast
    apply lt_of_mul_lt_mul_right ?_ hstep.le
    norm_num at hupper ⊢
    linarith
  exact Nat.le_of_lt_succ (by exact_mod_cast hlt)

/-- No point of the grid is nearer, and from the middle it is the even one that is chosen. -/
theorem abs_le_point (h : RoundsTo t s n) (k : Nat) :
    |n * 2 ^ s - t| ≤ |k * 2 ^ s - t| ∧
      (k ≠ n → |k * 2 ^ s - t| = |n * 2 ^ s - t| → n % 2 = 0) := by
  have hstep : (0 : ℚ) < 2 ^ s := by positivity
  by_cases hk : k = n
  · subst hk
    exact ⟨le_rfl, fun hne => absurd rfl hne⟩
  · -- Other points are at least one step apart.
    have hapart : (2 : ℚ) ^ s ≤ |(k : ℚ) * 2 ^ s - n * 2 ^ s| := by
      have hone : (1 : ℚ) ≤ |(k : ℚ) - n| := by
        have hint : (1 : Int) ≤ |(k : Int) - n| := Int.one_le_abs (by omega)
        exact_mod_cast hint
      rw [← sub_mul, abs_mul, abs_of_pos hstep]
      nlinarith
    have htriangle : |(k : ℚ) * 2 ^ s - n * 2 ^ s| ≤ |k * 2 ^ s - t| + |n * 2 ^ s - t| := by
      rw [abs_sub_comm (n * 2 ^ s : ℚ) t]
      exact abs_sub_le _ _ _
    have hnear := h.near
    constructor
    · linarith
    · intro _ heq
      apply h.even
      linarith

theorem le_of_normal (h : RoundsTo t s n) (hs : s ≠ -1074) : 2 ^ (52 : Nat) ≤ n := by
  have hstep : (0 : ℚ) < 2 ^ s := by positivity
  have hlower : 2 ^ (52 : Int) * 2 ^ s ≤ t := by
    rw [← zpow_add₀ two_ne_zero, add_comm]
    exact h.lower.resolve_left hs
  have hnear : -(2 ^ s / 2) ≤ n * 2 ^ s - t := (abs_le.mp h.near).1
  have hlt : ((2 ^ (52 : Nat) : Nat) : ℚ) < ((n + 1 : Nat) : ℚ) := by
    push_cast
    apply lt_of_mul_lt_mul_right ?_ hstep.le
    norm_num at hlower ⊢
    linarith
  exact Nat.le_of_lt_succ (by exact_mod_cast hlt)

/-- What is below the first point of this size is farther away than that point. -/
theorem abs_lt_below (h : RoundsTo t s n) (hs : s ≠ -1074) {w : ℚ} (hw : w < 2 ^ (s + 52)) :
    |n * 2 ^ s - t| < |w - t| := by
  have hlower : (2 : ℚ) ^ (s + 52) ≤ t := h.lower.resolve_left hs
  have hfirst : ((2 ^ (52 : Nat) : Nat) : ℚ) * 2 ^ s = 2 ^ (s + 52) := by
    rw [zpow_add₀ two_ne_zero, mul_comm]
    norm_num
  calc |n * 2 ^ s - t| ≤ |((2 ^ (52 : Nat) : Nat) : ℚ) * 2 ^ s - t| := (h.abs_le_point _).1
    _ = t - 2 ^ (s + 52) := by rw [hfirst, abs_sub_comm, abs_of_nonneg (by linarith)]
    _ < t - w := by linarith
    _ ≤ |w - t| := by
      rw [abs_sub_comm]
      exact le_abs_self _

end RoundsTo

/-- A finite number is a point of the grid or less than all points of full size. -/
theorem magnitude_point_or_lt (s : Int) (e : Fin 2047) (f : Fin (2 ^ (52 : Nat))) :
    (∃ k : Nat, magnitude e f = k * 2 ^ s) ∨ s ≠ -1074 ∧ magnitude e f < 2 ^ (s + 52) := by
  by_cases hle : s ≤ scale e
  · left
    refine ⟨significand e f * 2 ^ (scale e - s).toNat, ?_⟩
    have hsplit : (2 : ℚ) ^ scale e = (2 ^ (scale e - s).toNat : Nat) * 2 ^ s := by
      rw [Nat.cast_pow, Nat.cast_ofNat, ← zpow_natCast, ← zpow_add₀ two_ne_zero]
      congr 1
      omega
    rw [magnitude, hsplit, Nat.cast_mul, mul_assoc]
  · right
    have hscale := le_scale e
    refine ⟨by omega, ?_⟩
    calc magnitude e f < 2 ^ (53 : Int) * 2 ^ scale e := by
          rw [magnitude]
          gcongr
          exact_mod_cast significand_lt e f
      _ = 2 ^ (scale e + 53) := by rw [← zpow_add₀ two_ne_zero, add_comm]
      _ ≤ 2 ^ (s + 52) := zpow_le_zpow_right₀ one_le_two (by omega)

/-- No finite number is nearer than the point of the grid. -/
theorem RoundsTo.abs_le_magnitude (h : RoundsTo t s n) (e : Fin 2047) (f : Fin (2 ^ (52 : Nat))) :
    |n * 2 ^ s - t| ≤ |magnitude e f - t| ∧
      (magnitude e f ≠ n * 2 ^ s → |magnitude e f - t| = |n * 2 ^ s - t| → n % 2 = 0) := by
  rcases magnitude_point_or_lt s e f with ⟨k, hk⟩ | ⟨hs, hlt⟩
  · rw [hk]
    obtain ⟨hle, heven⟩ := h.abs_le_point k
    refine ⟨hle, fun hne => heven ?_⟩
    rintro rfl
    exact hne rfl
  · have hfar := h.abs_lt_below hs hlt
    exact ⟨hfar.le, fun _ heq => absurd heq hfar.ne'⟩

/-- The least value that is infinite: the middle between the largest number and the power of two
after it. -/
def overflowBound : ℚ :=
  2 ^ (1024 : Int) - 2 ^ (970 : Int)

theorem exists_ofMagnitude (negative : Bool) (hle : -1074 ≤ s) (hs : s ≤ 971)
    (hlt : n < 2 ^ (53 : Nat)) (hnormal : s = -1074 ∨ 2 ^ (52 : Nat) ≤ n) :
    ∃ e f, ofMagnitude negative ((s + 1074).toNat * 2 ^ (52 : Nat) + n) = .finite negative e f ∧
      magnitude e f = n * 2 ^ s ∧ f.val % 2 = n % 2 := by
  obtain ⟨e, f, hscale, hsteps⟩ : ∃ e f, scale e = s ∧ significand e f = n := by
    by_cases hsmall : n < 2 ^ (52 : Nat)
    · refine ⟨0, ⟨n, hsmall⟩, ?_, rfl⟩
      rcases hnormal with rfl | hge
      · rfl
      · omega
    · obtain ⟨e, he⟩ : ∃ e : Fin 2047, e.val = (s + 1075).toNat :=
        ⟨⟨(s + 1075).toNat, by omega⟩, rfl⟩
      obtain ⟨f, hf⟩ := exists_significand_eq (e := e) (by omega) (not_lt.mp hsmall) hlt
      refine ⟨e, f, ?_, hf⟩
      unfold scale
      omega
  refine ⟨e, f, ?_, ?_, ?_⟩
  · rw [← hscale, ← hsteps, place_eq, ofMagnitude_place]
  · rw [magnitude, hscale, hsteps]
  · rw [← hsteps, significand]
    split <;> omega

/-- After the carry into the next size the steps are halved. -/
theorem RoundsTo.exists_ofMagnitude (h : RoundsTo t s n) (negative : Bool)
    (hfits : s < 971 ∨ s = 971 ∧ n < 2 ^ (53 : Nat)) :
    ∃ e f, ofMagnitude negative ((s + 1074).toNat * 2 ^ (52 : Nat) + n) = .finite negative e f ∧
      magnitude e f = n * 2 ^ s ∧ (n % 2 = 0 → f.val % 2 = 0) := by
  have hle := h.le_step
  rcases h.le_carry.lt_or_eq with hlt | hcarry
  · have hnormal : s = -1074 ∨ 2 ^ (52 : Nat) ≤ n := or_iff_not_imp_left.mpr h.le_of_normal
    obtain ⟨e, f, hplace, hvalue, hparity⟩ :=
      Binary64.exists_ofMagnitude negative hle (by omega) hlt hnormal
    exact ⟨e, f, hplace, hvalue, fun heven => hparity.trans heven⟩
  · obtain ⟨e, f, hplace, hvalue, hparity⟩ :=
      Binary64.exists_ofMagnitude (s := s + 1) (n := 2 ^ (52 : Nat)) negative (by omega) (by omega)
        (by decide) (.inr le_rfl)
    have hsame : (s + 1074).toNat * 2 ^ (52 : Nat) + n =
        (s + 1 + 1074).toNat * 2 ^ (52 : Nat) + 2 ^ (52 : Nat) := by omega
    refine ⟨e, f, ?_, ?_, fun _ => hparity⟩
    · rw [hsame, hplace]
    · rw [hvalue, hcarry, zpow_add_one₀ two_ne_zero]
      push_cast
      ring

theorem RoundsTo.ofMagnitude_eq_infinite (h : RoundsTo t s n) (negative : Bool)
    (hfits : ¬ (s < 971 ∨ s = 971 ∧ n < 2 ^ (53 : Nat))) :
    ofMagnitude negative ((s + 1074).toNat * 2 ^ (52 : Nat) + n) = .infinite negative := by
  have hnormal : 2 ^ (52 : Nat) ≤ n := h.le_of_normal (by omega)
  rw [ofMagnitude, dif_neg (by omega)]

theorem overflowBound_eq : overflowBound = ((2 ^ (53 : Nat) : Nat) - 1 / 2) * 2 ^ (971 : Int) := by
  have hlarge : (2 : ℚ) ^ (1024 : Int) = 2 ^ (53 : Int) * 2 ^ (971 : Int) := by
    rw [← zpow_add₀ two_ne_zero]
    rfl
  have hsmall : (2 : ℚ) ^ (971 : Int) = 2 ^ (970 : Int) * 2 := by
    rw [← zpow_add_one₀ two_ne_zero]
    rfl
  rw [overflowBound, hlarge, hsmall]
  generalize (2 : ℚ) ^ (970 : Int) = half
  norm_num
  ring

theorem RoundsTo.lt_carry_iff (h : RoundsTo t s n) :
    n < 2 ^ (53 : Nat) ↔ t < ((2 ^ (53 : Nat) : Nat) - 1 / 2) * 2 ^ s := by
  have hstep : (0 : ℚ) < 2 ^ s := by positivity
  obtain ⟨hlower, hupper⟩ := abs_le.mp h.near
  constructor
  · intro hlt
    by_contra hge
    rw [not_lt] at hge
    have hle : (n : ℚ) ≤ (2 ^ (53 : Nat) : Nat) - 1 := by
      rw [le_sub_iff_add_le]
      exact_mod_cast hlt
    have hlast : (n : ℚ) = (2 ^ (53 : Nat) : Nat) - 1 := by
      apply le_antisymm hle
      apply le_of_mul_le_mul_right ?_ hstep
      generalize (2 : ℚ) ^ s = step at *
      generalize ((2 ^ (53 : Nat) : Nat) : ℚ) = top at *
      linarith
    have hodd : n % 2 = 1 := by
      have hsum : (n : ℚ) + 1 = (2 ^ (53 : Nat) : Nat) := by rw [hlast, sub_add_cancel]
      have hnat : n + 1 = 2 ^ (53 : Nat) := by exact_mod_cast hsum
      omega
    have heven : n % 2 = 0 := by
      apply h.even
      apply le_antisymm h.near
      rw [abs_sub_comm]
      apply le_trans ?_ (le_abs_self _)
      rw [hlast]
      linarith
    omega
  · intro hlt
    by_contra hge
    have hcarry : n = 2 ^ (53 : Nat) := le_antisymm h.le_carry (not_lt.mp hge)
    rw [hcarry] at hupper
    linarith

/-- The point of the grid is too large for a number from the bound on. -/
theorem RoundsTo.fits_iff (h : RoundsTo t s n) :
    (s < 971 ∨ s = 971 ∧ n < 2 ^ (53 : Nat)) ↔ t < overflowBound := by
  have hstep : (0 : ℚ) < 2 ^ (971 : Int) := by positivity
  rcases lt_trichotomy s 971 with hs | rfl | hs
  · have hupper : t < 2 ^ (52 : Int) * 2 ^ (971 : Int) := by
      rw [← zpow_add₀ two_ne_zero]
      exact h.upper.trans_le (zpow_le_zpow_right₀ one_le_two (by omega))
    apply iff_of_true (.inl hs)
    rw [overflowBound_eq]
    generalize (2 : ℚ) ^ (971 : Int) = step at *
    norm_num at hupper ⊢
    linarith
  · rw [overflowBound_eq, ← h.lt_carry_iff]
    simp
  · have hlower : 2 ^ (53 : Int) * 2 ^ (971 : Int) ≤ t := by
      rw [← zpow_add₀ two_ne_zero]
      exact (zpow_le_zpow_right₀ one_le_two (by omega)).trans (h.lower.resolve_left (by omega))
    apply iff_of_false (by omega)
    rw [overflowBound_eq, not_lt]
    generalize (2 : ℚ) ^ (971 : Int) = step at *
    norm_num at hlower ⊢
    linarith

end Binary64
end TaggedData
