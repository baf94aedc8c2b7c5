import PaperVenue.Proofs.Decimal.Grid

/-!
# Rounded results

A finite result is rounded on the grid of results, or it overflows.  `Decimal.rounded` looks at
coefficients and exponents to find out, and this module says what it does to numbers.

* `rounded_cases`: a number that `Overflows` has no result, and any other has the one that
  `RoundsOn resultGrid` says, with its sign.  What overflows is said with 28 digits alone; the
  finest grid makes no difference to it (`overflows_iff`).
* `roundsOn_resultGrid_mono`: rounding keeps the order.
* `Normal`: the numbers that are rounded at their 28th digit.  `Normal.abs_sub_le` says how far the
  result is from the number.
* `Fits`: the numbers that are results already.  They are not changed by rounding
  (`Fits.roundsOn`), and rounding leads to nothing else (`fits_of_roundsOn`).
-/

namespace PaperVenue

namespace Decimal

/-! ## The nearest result -/

/-- **Rounding finds the nearest number** on the grid of results. -/
theorem roundsOn_roundMagnitude {c : Nat} (hc : c ≠ 0) (e : Int) :
    RoundsOn resultGrid (magnitude c e)
      (magnitude (roundMagnitude c e).1 (roundMagnitude c e).2) := by
  rw [roundsOn_iff hc, resultGrid, digitGrid, adjusted]
  unfold roundMagnitude
  dsimp only
  by_cases hfit : quantum c e ≤ e
  · rw [if_pos hfit]
    rw [quantum] at hfit
    exact nearestEven_self (by omega) c
  · have hgrid : max (e + digitCount c - 1 + 1 - precision) minQuantum = quantum c e := by
      rw [quantum] at hfit ⊢
      omega
    have hround := nearestEven_roundQuotient (by omega : e ≤ quantum c e) c
    rw [if_neg hfit, hgrid, roundShift_eq]
    split
    · exact hround
    · rename_i hdigits
      -- the only number of 29 digits that comes out is the power of ten
      have hbound : c ≤ 10 ^ precision * 10 ^ (quantum c e - e).toNat := by
        rw [← Nat.pow_add]
        refine (lt_ten_pow_digitCount c).le.trans (Nat.pow_le_pow_right (by decide) ?_)
        unfold quantum
        omega
      have hhigh := roundQuotient_le (Nat.pow_pos (by decide)) hbound
      rw [digitCount_le_iff (by decide), Nat.not_lt] at hdigits
      have hcarry := Nat.le_antisymm hhigh hdigits
      rw [hcarry] at hround ⊢
      rw [ten_pow_precision, Nat.mul_div_cancel _ (by decide), magnitude_ten_pow]
      rw [magnitude_ten_pow] at hround
      have hsame : quantum c e + 1 + (precision - 1 : Nat) = quantum c e + precision := by
        have hprecision : 0 < precision := by decide
        omega
      rw [hsame]
      exact hround

/-! ## Overflows -/

/-- Rounded to 28 digits, the number has its leading digit above the range. -/
def Overflows (x : ℚ) : Prop := ∃ y, RoundsOn digitGrid x y ∧ (10 : ℚ) ^ (maxLead + 1) ≤ y

theorem not_overflows_zero : ¬ Overflows 0 := by
  rintro ⟨y, hy, hle⟩
  rw [roundsOn_zero_iff.1 hy] at hle
  exact absurd hle (not_le.2 (ten_zpow_pos _))

/-- The power of ten of a leading digit has 28 digits on the grid that belongs to it. -/
theorem magnitude_ten_pow_digitGrid (l : Int) :
    magnitude (10 ^ (precision - 1)) (digitGrid l) = (10 : ℚ) ^ l := by
  rw [magnitude_ten_pow, digitGrid]
  congr 1
  have hprecision : 0 < precision := by decide
  omega

/-- A number rounded on the grid of results ends where its leading digit stands, or just above. -/
theorem le_of_roundsOn_resultGrid {x y : ℚ} {l : Int} (hlead : HasLead x l)
    (hy : NearestEven (resultGrid l) x y) :
    y ≤ magnitude (10 ^ precision) (resultGrid l) := by
  refine hy.le_multiple ?_
  rw [magnitude_ten_pow]
  refine hlead.2.le.trans (ten_zpow_le ?_)
  unfold resultGrid digitGrid
  omega

/-- **An overflow can be told from the result too**: on the finest grid there is none. -/
theorem overflows_iff {x y : ℚ} (hy : RoundsOn resultGrid x y) :
    Overflows x ↔ (10 : ℚ) ^ (maxLead + 1) ≤ y := by
  rcases hy with ⟨rfl, rfl⟩ | ⟨l, hlead, hy⟩
  · exact iff_of_false not_overflows_zero (not_le.2 (ten_zpow_pos _))
  · by_cases hfine : minQuantum ≤ digitGrid l
    · have hgrid : resultGrid l = digitGrid l := max_eq_left hfine
      rw [hgrid] at hy
      have hround : RoundsOn digitGrid x y := Or.inr ⟨l, hlead, hy⟩
      constructor
      · rintro ⟨y', hy', hle⟩
        rwa [hround.unique hy']
      · intro hle
        exact ⟨y, hround, hle⟩
    · have hgrid : resultGrid l = minQuantum := max_eq_right (by omega)
      have hsmall : y < (10 : ℚ) ^ (maxLead + 1) := by
        refine (le_of_roundsOn_resultGrid hlead hy).trans_lt ?_
        rw [hgrid, magnitude_ten_pow]
        exact zpow_lt_zpow_right₀ (by norm_num) (by decide)
      refine iff_of_false ?_ (not_le.2 hsmall)
      rintro ⟨y', ⟨hzero, -⟩ | ⟨l', hlead', hy'⟩, hle⟩
      · exact absurd hzero hlead.pos.ne'
      · obtain rfl := hlead.unique hlead'
        have hhigh : y' ≤ magnitude (10 ^ precision) (digitGrid l) := by
          refine hy'.le_multiple ?_
          rw [magnitude_ten_pow, digitGrid, Int.sub_add_cancel]
          exact hlead.2.le
        rw [magnitude_ten_pow] at hhigh
        have hlt := lt_of_ten_zpow_lt ((hle.trans hhigh).trans_lt
          (zpow_lt_zpow_right₀ (by norm_num) (Int.lt_succ _)))
        have hrange : minQuantum + precision < maxLead := by decide
        omega

/-- **Rounding keeps the order.** -/
theorem roundsOn_resultGrid_mono {x x' y y' : ℚ} (h : RoundsOn resultGrid x y)
    (h' : RoundsOn resultGrid x' y') (hx : x ≤ x') : y ≤ y' := by
  rcases h with ⟨-, rfl⟩ | ⟨l, hlead, hy⟩
  · exact h'.nonneg
  · rcases h' with ⟨rfl, -⟩ | ⟨l', hlead', hy'⟩
    · exact absurd hx (not_le.2 hlead.pos)
    · by_cases hsame : resultGrid l = resultGrid l'
      · rw [hsame] at hy
        exact hy.mono hy' hx
      · -- the larger number is rounded on a coarser grid, and stands beyond the finer one's end
        have hle : l ≤ l' := by
          have hlt := lt_of_ten_zpow_lt ((hlead.1.trans hx).trans_lt hlead'.2)
          omega
        have hcoarse : resultGrid l' = digitGrid l' ∧ resultGrid l + precision ≤ l' := by
          unfold resultGrid digitGrid at *
          omega
        have hhigh := le_of_roundsOn_resultGrid hlead hy
        have hlow : magnitude (10 ^ (precision - 1)) (resultGrid l') ≤ y' := by
          refine hy'.multiple_le (le_trans (le_of_eq ?_) hlead'.1)
          rw [hcoarse.1, magnitude_ten_pow_digitGrid]
        rw [magnitude_ten_pow] at hhigh
        rw [hcoarse.1, magnitude_ten_pow_digitGrid] at hlow
        exact (hhigh.trans (ten_zpow_le hcoarse.2)).trans hlow

/-- **What is rounded to zero**: a number up to half a step of the finest grid, this included. -/
theorem roundsOn_resultGrid_zero_iff {x y : ℚ} (hx : 0 ≤ x) (h : RoundsOn resultGrid x y) :
    y = 0 ↔ 2 * x ≤ (10 : ℚ) ^ minQuantum := by
  rcases h with ⟨rfl, rfl⟩ | ⟨l, hlead, hy⟩
  · rw [mul_zero]
    exact iff_of_true rfl (ten_zpow_pos _).le
  · by_cases hfine : resultGrid l = minQuantum
    · rw [hfine] at hy
      obtain ⟨-, hlow⟩ := hy.bounds
      obtain ⟨n, rfl, hnear, heven⟩ := hy
      have hpos := ten_zpow_pos minQuantum
      constructor
      · intro hzero
        rwa [hzero, sub_zero, abs_of_nonneg hx] at hnear
      · intro hsmall
        have htwo : n < 2 := by
          refine Nat.lt_of_not_le fun hle => ?_
          have hstep := magnitude_le hle minQuantum
          have hdouble : magnitude 2 minQuantum = 2 * (10 : ℚ) ^ minQuantum := rfl
          linarith
        obtain rfl | rfl : n = 0 ∨ n = 1 := by omega
        · exact magnitude_zero _
        · -- at one step from zero the number would be in the middle, where the even multiple wins
          have hone : magnitude 1 minQuantum = (10 : ℚ) ^ minQuantum := by
            rw [magnitude, Nat.cast_one, one_mul]
          rw [hone] at hnear heven
          have hfar : (10 : ℚ) ^ minQuantum ≤ 2 * |x - (10 : ℚ) ^ minQuantum| := by
            rw [abs_of_nonpos (by linarith)]
            linarith
          exact absurd (heven (le_antisymm hnear hfar)) (by decide)
    · have hcoarse : resultGrid l = digitGrid l ∧ minQuantum ≤ l := by
        have hprecision : 0 < precision := by decide
        unfold resultGrid digitGrid at *
        omega
      have hlow : magnitude (10 ^ (precision - 1)) (resultGrid l) ≤ y := by
        refine hy.multiple_le (le_trans (le_of_eq ?_) hlead.1)
        rw [hcoarse.1, magnitude_ten_pow_digitGrid]
      rw [hcoarse.1, magnitude_ten_pow_digitGrid] at hlow
      have hquantum := ten_zpow_le hcoarse.2
      have hpos := ten_zpow_pos minQuantum
      refine iff_of_false ((ten_zpow_pos l).trans_le hlow).ne' (not_le.2 ?_)
      linarith [hlead.1]

theorem snd_roundMagnitude_le {c : Nat} {e : Int} (h : adjusted c e ≤ maxLead) :
    (roundMagnitude c e).2 ≤ maxLead := by
  have hpos := digitCount_pos c
  have hrange : minQuantum < maxLead := by decide
  have hprecision : 1 < precision := by decide
  unfold adjusted at h
  unfold roundMagnitude
  dsimp only
  by_cases hfit : quantum c e ≤ e
  · rw [if_pos hfit]
    dsimp only
    omega
  · rw [if_neg hfit]
    rw [quantum] at hfit ⊢
    split <;> dsimp only <;> omega

/-- **What stops the rounding** is an overflow, before rounding or after it. -/
theorem maxLead_lt_iff_overflows {c : Nat} {e : Int} (hc : c ≠ 0) :
    maxLead < adjusted c e ∨
      maxLead < adjusted (roundMagnitude c e).1 (roundMagnitude c e).2 ↔
      Overflows (magnitude c e) := by
  have hround := roundsOn_roundMagnitude hc e
  rw [overflows_iff hround]
  by_cases hlead : maxLead < adjusted c e
  · refine iff_of_true (Or.inl hlead) ?_
    have hgrid : resultGrid (adjusted c e) = digitGrid (adjusted c e) := by
      have hrange : minQuantum ≤ maxLead + 1 - precision := by decide
      unfold resultGrid digitGrid
      omega
    have hlow := magnitude_ten_pow_digitGrid (adjusted c e)
    have hnear := (roundsOn_iff hc).1 hround
    rw [hgrid] at hnear
    have hreach := hnear.multiple_le (hlow.le.trans (ten_zpow_adjusted_le hc e))
    rw [hlow] at hreach
    exact (ten_zpow_le (by omega)).trans hreach
  · rw [or_iff_right hlead]
    by_cases hzero : (roundMagnitude c e).1 = 0
    · have hexponent := snd_roundMagnitude_le (Int.not_lt.1 hlead)
      have hcount : digitCount 0 = 1 := by decide
      rw [hzero, magnitude_zero, adjusted, hcount]
      exact iff_of_false (by omega) (not_le.2 (ten_zpow_pos _))
    · exact (hasLead_adjusted hzero _).lt_iff

/-- **A finite result**: it overflows, or it is rounded and keeps its sign. -/
theorem rounded_cases (negative : Bool) (c : Nat) (e : Int) :
    rounded negative c e = .error .overflow ∧ Overflows (magnitude c e) ∨
      ∃ c' e', rounded negative c e = .ok (finite negative c' e') ∧
        RoundsOn resultGrid (magnitude c e) (magnitude c' e') ∧ ¬ Overflows (magnitude c e) := by
  unfold rounded
  by_cases hc : c = 0
  · rw [if_pos hc, hc, magnitude_zero]
    exact Or.inr ⟨_, _, rfl, roundsOn_zero_iff.2 (magnitude_zero _), not_overflows_zero⟩
  · have hiff := maxLead_lt_iff_overflows hc (e := e)
    rw [if_neg hc]
    dsimp only
    by_cases hlead : maxLead < adjusted c e
    · rw [if_pos hlead]
      exact Or.inl ⟨rfl, hiff.1 (Or.inl hlead)⟩
    · rw [if_neg hlead]
      split
      · rename_i hround
        exact Or.inl ⟨rfl, hiff.1 (Or.inr hround)⟩
      · rename_i hround
        refine Or.inr ⟨_, _, rfl, roundsOn_roundMagnitude hc e, ?_⟩
        intro hover
        exact (hiff.2 hover).elim hlead hround

/-- To overflow is to be too large, which the coefficient and the exponent tell without any
rounding. -/
theorem tooLarge_iff_overflows (c : Nat) (e : Int) : TooLarge c e ↔ Overflows (magnitude c e) := by
  rcases rounded_cases false c e with ⟨herror, hover⟩ | ⟨c', e', hok, -, hover⟩
  · refine iff_of_true ?_ hover
    by_contra h
    obtain ⟨c', e', hok⟩ := rounded_of_not_tooLarge h false
    exact absurd (herror.symm.trans hok) (by simp)
  · refine iff_of_false ?_ hover
    intro h
    exact absurd ((rounded_of_tooLarge h false).symm.trans hok) (by simp)

/-! ## Numbers that are not rounded -/

/-- The number has at most 28 digits, apart from zeros at its ends, is a multiple of the last place
of all, and is in range. -/
structure Fits (x : ℚ) : Prop where
  digits : ∃ a j, a < 10 ^ precision ∧ x = magnitude a j
  multiple : ∃ n, x = magnitude n minQuantum
  range : x < (10 : ℚ) ^ (maxLead + 1)

/-- A decimal of up to 28 digits with exponents in range is such a number. -/
theorem fits_of_digitCount_le {c : Nat} {e : Int} (hdigits : digitCount c ≤ precision)
    (he : minQuantum ≤ e) (hlead : adjusted c e ≤ maxLead) : Fits (magnitude c e) where
  digits := ⟨c, e, (digitCount_le_iff (by decide)).1 hdigits, rfl⟩
  multiple := ⟨_, magnitude_eq_of_le he c⟩
  range := (magnitude_lt_ten_zpow c e).trans_le (ten_zpow_le (by omega))

namespace Fits

variable {x : ℚ}

/-- **Such a number is not changed by rounding.** -/
theorem roundsOn (h : Fits x) : RoundsOn resultGrid x x := by
  obtain ⟨a, j, ha, rfl⟩ := h.digits
  by_cases hzero : a = 0
  · rw [hzero, magnitude_zero]
    exact roundsOn_zero_iff.2 rfl
  · rw [roundsOn_iff hzero]
    by_cases hfine : minQuantum ≤ digitGrid (adjusted a j)
    · have hgrid : resultGrid (adjusted a j) = digitGrid (adjusted a j) := max_eq_left hfine
      have hcount : digitCount a ≤ precision := (digitCount_le_iff (by decide)).2 ha
      rw [hgrid]
      refine nearestEven_self ?_ a
      unfold digitGrid adjusted
      omega
    · have hgrid : resultGrid (adjusted a j) = minQuantum := max_eq_right (by omega)
      obtain ⟨n, hn⟩ := h.multiple
      rw [hgrid, hn]
      exact nearestEven_self le_rfl n

theorem not_overflows (h : Fits x) : ¬ Overflows x := by
  rw [overflows_iff h.roundsOn]
  exact not_le.2 h.range

end Fits

/-- **Rounding leads to such a number**, if there is no overflow. -/
theorem fits_of_roundsOn {x y : ℚ} (hy : RoundsOn resultGrid x y) (h : ¬ Overflows x) : Fits y := by
  have hrange : y < (10 : ℚ) ^ (maxLead + 1) := by
    rw [overflows_iff hy] at h
    exact not_le.1 h
  rcases hy with ⟨-, rfl⟩ | ⟨l, hlead, hy⟩
  · exact ⟨⟨0, 0, by decide, (magnitude_zero 0).symm⟩, ⟨0, (magnitude_zero _).symm⟩, hrange⟩
  · have hhigh := le_of_roundsOn_resultGrid hlead hy
    obtain ⟨n, rfl, -, -⟩ := hy
    refine ⟨?_, ⟨_, magnitude_eq_of_le (le_max_right _ _) n⟩, hrange⟩
    by_cases hn : n < 10 ^ precision
    · exact ⟨n, _, hn, rfl⟩
    · -- rounded up to 29 digits, the number is a power of ten
      have hsame := le_antisymm hhigh (magnitude_le (Nat.le_of_not_lt hn) _)
      have hone : magnitude 1 (resultGrid l + precision) =
          magnitude (10 ^ precision) (resultGrid l) := by
        rw [magnitude_ten_pow, magnitude, Nat.cast_one, one_mul]
      exact ⟨1, _, by decide, hsame.trans hone.symm⟩

/-! ## Numbers that keep 28 digits -/

/-- The least exponent of a leading digit that has 28 digits on the grid of results. -/
def minLead : Int := minQuantum + precision - 1

/-- The number is not below the least one that is rounded at its 28th digit, and not above the
largest result: it stands from `1E-999999` to `9.99…9E+999999`, of 28 digits. -/
structure Normal (x : ℚ) : Prop where
  ten_zpow_le : (10 : ℚ) ^ minLead ≤ x
  le_magnitude : x ≤ magnitude (10 ^ precision - 1) (digitGrid maxLead)

example : minLead = -999999 ∧ 10 ^ precision - 1 = 9999999999999999999999999999 ∧
    digitGrid maxLead + 27 = 999999 := by decide

/-- The largest result is in range. -/
theorem magnitude_largest_lt :
    magnitude (10 ^ precision - 1) (digitGrid maxLead) < (10 : ℚ) ^ (maxLead + 1) := by
  have hlt := magnitude_add_le (by decide : 10 ^ precision - 1 < 10 ^ precision) (digitGrid maxLead)
  have hpos := ten_zpow_pos (digitGrid maxLead)
  rw [magnitude_ten_pow, digitGrid, Int.sub_add_cancel] at hlt
  rw [digitGrid] at hpos ⊢
  linarith

/-- A number is such a one if its leading digit stands in the range, and not at the upper edge. -/
theorem normal_of_hasLead {x : ℚ} {l : Int} (h : HasLead x l) (hlow : minLead ≤ l)
    (hhigh : l < maxLead) : Normal x where
  ten_zpow_le := (ten_zpow_le hlow).trans h.1
  le_magnitude := by
    refine (h.2.le.trans (ten_zpow_le (by omega : l + 1 ≤ maxLead))).trans ?_
    rw [← magnitude_ten_pow_digitGrid]
    exact magnitude_le (by decide) _

namespace Normal

variable {x y : ℚ}

theorem pos (h : Normal x) : 0 < x := (ten_zpow_pos _).trans_le h.ten_zpow_le

/-- It is rounded to 28 digits. -/
theorem nearestEven (h : Normal x) (hy : RoundsOn resultGrid x y) :
    ∃ l, HasLead x l ∧ NearestEven (digitGrid l) x y := by
  rcases hy with ⟨hzero, -⟩ | ⟨l, hlead, hy⟩
  · exact absurd hzero h.pos.ne'
  · have hlt := lt_of_ten_zpow_lt (h.ten_zpow_le.trans_lt hlead.2)
    have hgrid : resultGrid l = digitGrid l := by
      refine max_eq_left ?_
      unfold minLead at hlt
      unfold digitGrid
      omega
    rw [hgrid] at hy
    exact ⟨l, hlead, hy⟩

/-- **Rounding errs by half a unit of the 28th digit at most**, so by `5E-28` of the number. -/
theorem abs_sub_le (h : Normal x) (hy : RoundsOn resultGrid x y) :
    |x - y| ≤ 5 * (10 : ℚ) ^ (-28 : Int) * x := by
  obtain ⟨l, hlead, n, -, hnear, -⟩ := h.nearestEven hy
  have h10 : (10 : ℚ) ≠ 0 := by norm_num
  have hunit : (10 : ℚ) ^ digitGrid l = 10 * ((10 : ℚ) ^ (-28 : Int) * (10 : ℚ) ^ l) := by
    rw [← zpow_add₀ h10, ← zpow_one_add₀ h10]
    congr 1
    unfold digitGrid precision
    omega
  have hscaled : (10 : ℚ) ^ (-28 : Int) * (10 : ℚ) ^ l ≤ (10 : ℚ) ^ (-28 : Int) * x :=
    mul_le_mul_of_nonneg_left hlead.1 (ten_zpow_pos _).le
  linarith

theorem not_overflows (h : Normal x) : ¬ Overflows x := by
  rintro ⟨y, ⟨hzero, -⟩ | ⟨l, hlead, hy⟩, hle⟩
  · exact absurd hzero h.pos.ne'
  · have hl := lt_of_ten_zpow_lt
      (hlead.1.trans_lt (h.le_magnitude.trans_lt magnitude_largest_lt))
    by_cases hedge : l = maxLead
    · subst hedge
      exact absurd hle (not_le.2 ((hy.le_multiple h.le_magnitude).trans_lt magnitude_largest_lt))
    · have hhigh : y ≤ magnitude (10 ^ precision) (digitGrid l) := by
        refine hy.le_multiple ?_
        rw [magnitude_ten_pow, digitGrid, Int.sub_add_cancel]
        exact hlead.2.le
      rw [magnitude_ten_pow, digitGrid, Int.sub_add_cancel] at hhigh
      refine absurd (hle.trans hhigh) (not_le.2 ?_)
      exact zpow_lt_zpow_right₀ (by norm_num) (by omega)

/-- With 28 digits at most it is not changed by rounding. -/
theorem fits (h : Normal x) (hshort : ∃ a j, a < 10 ^ precision ∧ x = magnitude a j) : Fits x where
  digits := hshort
  multiple := by
    obtain ⟨a, j, ha, rfl⟩ := hshort
    have hlt : magnitude a j < (10 : ℚ) ^ (j + precision) := by
      rw [← magnitude_ten_pow]
      exact mul_lt_mul_of_pos_right (Nat.cast_lt.2 ha) (ten_zpow_pos j)
    have hj := lt_of_ten_zpow_lt (h.ten_zpow_le.trans_lt hlt)
    refine ⟨_, magnitude_eq_of_le ?_ a⟩
    unfold minLead at hj
    omega
  range := h.le_magnitude.trans_lt magnitude_largest_lt

end Normal

end Decimal

end PaperVenue
