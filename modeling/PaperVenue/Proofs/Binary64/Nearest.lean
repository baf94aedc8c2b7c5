import PaperVenue.Proofs.Decimal.Value
import PaperVenue.Binary64.Shortest

/-!
# Which numbers are read as a double

`Binary64.nearest` rounds a decimal literal to a double.  Seen from the double it is an interval:
the literals that become `± m · 2^e` are those of magnitude from `m - 1/2` to `m + 1/2` steps `2^e`,
with the ends exactly if `m` is even.  Only below the least mantissa the steps are half as long, and
the interval ends a quarter step below.  This interval is `ReadsBack`, and `nearest_eq_finite_iff`
says that it is the right one, for every double but zero.

The proof goes through one equivalence for each part of the algorithm: `two_zpow_log2Quotient_le`
and `lt_two_zpow_log2Quotient` for the logarithm, `roundQuotient_eq_iff` for the rounding.  What is
left is the carry, where the mantissa `2^53` is written as `2^52` with the next exponent.
-/

namespace PaperVenue

/-! ## Rounding, seen from the result -/

/-- A number lies between two ends, which count exactly if `m` is even. -/
def Within (m : Nat) (low high w : ℚ) : Prop :=
  low ≤ w ∧ w ≤ high ∧ (m % 2 = 1 → w ≠ low ∧ w ≠ high)

/-- What lies between two such numbers is one as well. -/
theorem Within.convex {m : Nat} {low high a b w : ℚ} (ha : Within m low high a)
    (hb : Within m low high b) (haw : a ≤ w) (hwb : w ≤ b) : Within m low high w := by
  refine ⟨ha.1.trans haw, hwb.trans hb.2.1, fun hm => ⟨?_, ?_⟩⟩
  · rintro rfl
    exact (ha.2.2 hm).1 (le_antisymm haw ha.1)
  · rintro rfl
    exact (hb.2.2 hm).2 (le_antisymm hb.2.1 hwb)

/-- Numbers strictly between the ends are within them. -/
theorem Within.of_lt {m : Nat} {low high w : ℚ} (hlow : low < w) (hhigh : w < high) :
    Within m low high w :=
  ⟨hlow.le, hhigh.le, fun _ => ⟨hlow.ne', hhigh.ne⟩⟩

/-- A number is nearest to one natural number only, if half way counts for the even one. -/
theorem Within.unique {m m' : Nat} {w : ℚ} (h : Within m (m - 1 / 2) (m + 1 / 2) w)
    (h' : Within m' (m' - 1 / 2) (m' + 1 / 2) w) : m = m' := by
  -- of two different ones the numbers half way between them are the common ends, and one is odd
  have hlt : ∀ {a b : Nat}, Within a (a - 1 / 2) (a + 1 / 2) w →
      Within b (b - 1 / 2) (b + 1 / 2) w → ¬ a < b := by
    intro a b ha hb hab
    have hle : ((a + 1 : Nat) : ℚ) ≤ (b : ℚ) := Nat.cast_le.2 hab
    rw [Nat.cast_add, Nat.cast_one] at hle
    have hbw := hb.1
    have hwa := ha.2.1
    have hsucc : b = a + 1 := by
      have hcast : (b : ℚ) = ((a + 1 : Nat) : ℚ) := by
        rw [Nat.cast_add, Nat.cast_one]
        linarith
      exact Nat.cast_injective hcast
    have hend : w = (a : ℚ) + 1 / 2 := by linarith
    have hend' : w = (b : ℚ) - 1 / 2 := by linarith
    rcases Nat.mod_two_eq_zero_or_one a with hpar | hpar
    · exact (hb.2.2 (by omega)).1 hend'
    · exact (ha.2.2 hpar).2 hend
  exact Nat.le_antisymm (Nat.le_of_not_lt (hlt h' h)) (Nat.le_of_not_lt (hlt h h'))

/-- **A quotient is rounded to the natural number that it is nearest to.** -/
theorem roundQuotient_eq_iff {n d m : Nat} (hd : 0 < d) :
    roundQuotient n d = m ↔ Within m (m - 1 / 2) (m + 1 / 2) ((n : ℚ) / d) := by
  have hd' : (0 : ℚ) < d := Nat.cast_pos.2 hd
  have hwithin : Within (roundQuotient n d) (roundQuotient n d - 1 / 2) (roundQuotient n d + 1 / 2)
      ((n : ℚ) / d) := by
    obtain ⟨hup, hdown, htie, htie'⟩ := roundQuotient_spec n hd
    generalize roundQuotient n d = q at *
    have hup' : 2 * (n : ℚ) ≤ (2 * q + 1) * d := by exact_mod_cast hup
    have hdown' : (2 * q : ℚ) * d ≤ 2 * n + d := by exact_mod_cast hdown
    refine ⟨?_, ?_, fun hodd => ⟨fun hend => ?_, fun hend => ?_⟩⟩
    · rw [le_div_iff₀ hd']
      linarith
    · rw [div_le_iff₀ hd']
      linarith
    · rw [div_eq_iff hd'.ne'] at hend
      have heq : 2 * (n : ℚ) + d = (2 * q) * d := by linarith
      have heven := htie' (by exact_mod_cast heq)
      omega
    · rw [div_eq_iff hd'.ne'] at hend
      have heq : 2 * (n : ℚ) = (2 * q + 1) * d := by linarith
      have heven := htie (by exact_mod_cast heq)
      omega
  constructor
  · rintro rfl
    exact hwithin
  · exact hwithin.unique

namespace Binary64

/-! ## Binary logarithms -/

section Logarithm

variable {n d : Nat}

/-- The test by which the logarithm is adjusted, as a comparison of numbers. -/
theorem mul_two_pow_le_iff (hd : d ≠ 0) (k : Int) :
    d * 2 ^ k.toNat ≤ n * 2 ^ (-k).toNat ↔ (2 : ℚ) ^ k ≤ (n : ℚ) / d := by
  have hd' : (0 : ℚ) < d := Nat.cast_pos.2 (Nat.pos_of_ne_zero hd)
  have hpow : (0 : ℚ) < ((2 ^ (-k).toNat : Nat) : ℚ) := Nat.cast_pos.2 (Nat.pow_pos (by decide))
  have h2 := zpow_eq_toNat_div (b := 2) (by decide) k
  rw [Nat.cast_ofNat] at h2
  rw [h2, div_le_div_iff₀ hpow hd', ← Nat.cast_mul, ← Nat.cast_mul, Nat.cast_le, Nat.mul_comm d]

theorem two_zpow_log2_le (hn : n ≠ 0) : (2 : ℚ) ^ (Nat.log2 n : Int) ≤ n := by
  rw [zpow_natCast]
  exact_mod_cast Nat.log2_self_le hn

theorem lt_two_zpow_log2 (n : Nat) : (n : ℚ) < (2 : ℚ) ^ ((Nat.log2 n : Int) + 1) := by
  have h : n < 2 ^ (Nat.log2 n + 1) := Nat.lt_log2_self
  have hcast : ((Nat.log2 n : Int) + 1) = ((Nat.log2 n + 1 : Nat) : Int) := by omega
  rw [hcast, zpow_natCast]
  exact_mod_cast h

/-- A quotient reaches the power of two that its logarithm names. -/
theorem two_zpow_log2Quotient_le (hn : n ≠ 0) (hd : d ≠ 0) :
    (2 : ℚ) ^ log2Quotient n d ≤ (n : ℚ) / d := by
  have hd' : (0 : ℚ) < d := Nat.cast_pos.2 (Nat.pos_of_ne_zero hd)
  rw [log2Quotient]
  split
  · rename_i h
    exact (mul_two_pow_le_iff hd _).1 h
  · have hexp : (Nat.log2 n : Int) - Nat.log2 d - 1 = Nat.log2 n - (Nat.log2 d + 1) := by omega
    rw [hexp, zpow_sub₀ two_ne_zero]
    exact div_le_div₀ (Nat.cast_nonneg n) (two_zpow_log2_le hn) hd' (lt_two_zpow_log2 d).le

/-- And it stays below the next one. -/
theorem lt_two_zpow_log2Quotient (hd : d ≠ 0) :
    (n : ℚ) / d < (2 : ℚ) ^ (log2Quotient n d + 1) := by
  have hd' : (0 : ℚ) < d := Nat.cast_pos.2 (Nat.pos_of_ne_zero hd)
  rw [log2Quotient]
  split
  · have hexp : (Nat.log2 n : Int) - Nat.log2 d + 1 = Nat.log2 n + 1 - Nat.log2 d := by omega
    rw [hexp, zpow_sub₀ two_ne_zero]
    exact div_lt_div₀ (lt_two_zpow_log2 n) (two_zpow_log2_le hd) (two_zpow_pos _).le
      (two_zpow_pos _)
  · rename_i h
    rw [mul_two_pow_le_iff hd, not_le] at h
    rwa [sub_add_cancel]

end Logarithm

/-! ## Doubles -/

/-- The mantissas and exponents of doubles other than zero: the mantissa fills its digits, unless
the exponent is the least one. -/
structure Canonical (m : Nat) (e : Int) : Prop where
  lt : m < 2 ^ mantissaBits
  minExponent_le : minExponent ≤ e
  le_maxExponent : e ≤ maxExponent
  full : 2 ^ (mantissaBits - 1) ≤ m ∨ e = minExponent

/-- Is it a finite double?  A zero may be written with any exponent. -/
def IsDouble : Binary64 → Prop
  | finite _ m e => m = 0 ∨ Canonical m e
  | _ => False

/-- The lower end of what reads back, in steps of `2^e`. -/
def lowEnd (m : Nat) (e : Int) : ℚ :=
  if m = 2 ^ (mantissaBits - 1) ∧ minExponent < e then m - 1 / 4 else m - 1 / 2

/-- The numbers that read back as `m · 2^e`. -/
def ReadsBack (m : Nat) (e : Int) (v : ℚ) : Prop :=
  Within m (lowEnd m e) (m + 1 / 2) (v / (2 : ℚ) ^ e)

theorem le_lowEnd (m : Nat) (e : Int) : (m : ℚ) - 1 / 2 ≤ lowEnd m e := by
  rw [lowEnd]
  split <;> linarith

theorem lowEnd_le (m : Nat) (e : Int) : lowEnd m e ≤ (m : ℚ) - 1 / 4 := by
  rw [lowEnd]
  split <;> linarith

/-- What reads back rounds to the mantissa. -/
theorem ReadsBack.within {m : Nat} {e : Int} {v : ℚ} (h : ReadsBack m e v) :
    Within m (m - 1 / 2) (m + 1 / 2) (v / (2 : ℚ) ^ e) := by
  refine ⟨(le_lowEnd m e).trans h.1, h.2.1, fun hm => ⟨fun hend => ?_, (h.2.2 hm).2⟩⟩
  exact (h.2.2 hm).1 (le_antisymm (hend.trans_le (le_lowEnd m e)) h.1)

/-! ## Mantissas -/

section Mantissa

variable {v : ℚ} {e : Int} {m : Nat}

/-- A number rounded on its grid, without a carry, reads back. -/
theorem readsBack_of_within (hm : Within m (m - 1 / 2) (m + 1 / 2) (v / (2 : ℚ) ^ e))
    (hfull : (2 : ℚ) ^ (e + 52) ≤ v ∨ e = minExponent) : ReadsBack m e v := by
  rw [ReadsBack, lowEnd]
  split
  · rename_i hleast
    -- below the least mantissa there is nothing on this grid
    have hv : (2 : ℚ) ^ (e + 52) ≤ v := hfull.resolve_right (by have := hleast.2; omega)
    have hw : (m : ℚ) ≤ v / (2 : ℚ) ^ e := by
      rw [le_div_iff₀ (two_zpow_pos e), hleast.1]
      rw [zpow_add₀ two_ne_zero, mul_comm] at hv
      exact_mod_cast hv
    exact ⟨by linarith, hm.2.1, fun hodd => ⟨by linarith, (hm.2.2 hodd).2⟩⟩
  · exact hm

/-- With a carry, it reads back as the least mantissa of the next exponent. -/
theorem readsBack_of_carry (hlow : (2 : ℚ) ^ 53 - 1 / 2 ≤ v / (2 : ℚ) ^ e)
    (hhigh : v / (2 : ℚ) ^ e ≤ (2 : ℚ) ^ 53) (he : minExponent ≤ e) :
    ReadsBack (2 ^ (mantissaBits - 1)) (e + 1) v := by
  have hhalf : v / (2 : ℚ) ^ (e + 1) = v / (2 : ℚ) ^ e / 2 := by
    rw [zpow_add_one₀ two_ne_zero, div_div]
  have hcast : ((2 ^ (mantissaBits - 1) : Nat) : ℚ) = 2 ^ 52 := by norm_num [mantissaBits]
  rw [ReadsBack, lowEnd, if_pos ⟨rfl, by omega⟩, hhalf, hcast]
  refine ⟨by linarith, by linarith, fun hodd => absurd hodd (by decide)⟩

/-- A number that reads back lies below the end of its binary digits. -/
theorem ReadsBack.lt (h : ReadsBack m e v) (hm : Canonical m e) : v < (2 : ℚ) ^ (e + 53) := by
  have hcast : (m : ℚ) + 1 ≤ 2 ^ 53 := by exact_mod_cast hm.lt
  have hw := h.2.1
  rw [div_le_iff₀ (two_zpow_pos e)] at hw
  rw [zpow_add₀ two_ne_zero, mul_comm]
  refine hw.trans_lt ?_
  have hlt : (m : ℚ) + 1 / 2 < 2 ^ 53 := by linarith
  exact_mod_cast mul_lt_mul_of_pos_right hlt (two_zpow_pos e)

/-- A number that reads back although it lies below its binary digits belongs to the least
mantissa. -/
theorem ReadsBack.of_lt (h : ReadsBack m e v) (hm : Canonical m e) (he : minExponent < e)
    (hv : v < (2 : ℚ) ^ (e + 52)) :
    m = 2 ^ (mantissaBits - 1) ∧ (2 : ℚ) ^ 53 - 1 / 2 ≤ v / (2 : ℚ) ^ (e - 1) ∧
      v / (2 : ℚ) ^ (e - 1) < (2 : ℚ) ^ 53 := by
  have hdouble : v / (2 : ℚ) ^ (e - 1) = v / (2 : ℚ) ^ e * 2 := by
    rw [zpow_sub_one₀ two_ne_zero, ← div_div, div_inv_eq_mul]
  have hw : v / (2 : ℚ) ^ e < 2 ^ 52 := by
    rw [div_lt_iff₀ (two_zpow_pos e)]
    rw [zpow_add₀ two_ne_zero, mul_comm] at hv
    exact_mod_cast hv
  have hfull : 2 ^ 52 ≤ m := hm.full.resolve_right he.ne'
  have hleast : m = 2 ^ (mantissaBits - 1) := by
    refine Nat.le_antisymm (Nat.le_of_not_lt fun hlt => ?_) hfull
    have hcast : (2 : ℚ) ^ 52 + 1 ≤ m := by exact_mod_cast hlt
    have hlow := h.within.1
    linarith
  have hlow := h.1
  rw [lowEnd, if_pos ⟨hleast, he⟩] at hlow
  have hcast : (2 : ℚ) ^ 52 ≤ m := by exact_mod_cast hfull
  rw [hdouble]
  exact ⟨hleast, by linarith, by linarith⟩

end Mantissa

/-! ## Rounding a quotient -/

section Quotient

variable {n d : Nat}

/-- The exponent of the grid on which a quotient is rounded. -/
def gridExponent (n d : Nat) : Int := max (log2Quotient n d - 52) minExponent

/-- A quotient measured in steps of its grid. -/
theorem scaled_eq_div (e : Int) :
    ((n * 2 ^ (-e).toNat : Nat) : ℚ) / ((d * 2 ^ e.toNat : Nat) : ℚ) =
      (n : ℚ) / d / (2 : ℚ) ^ e := by
  have h2 := zpow_eq_toNat_div (b := 2) (by decide) e
  rw [Nat.cast_ofNat] at h2
  rw [h2, Nat.cast_mul, Nat.cast_mul, mul_div_mul_comm, div_div_eq_mul_div, mul_div_assoc]

/-- What a quotient is rounded to, in terms of the mantissa that its rounding gives. -/
theorem nearestQuotient_of_within (negative : Bool) (hd : d ≠ 0) {m : Nat}
    (hm : Within m (m - 1 / 2) (m + 1 / 2) ((n : ℚ) / d / (2 : ℚ) ^ gridExponent n d)) :
    nearestQuotient negative n d =
      if m = 2 ^ mantissaBits then
        if maxExponent < gridExponent n d + 1 then infinity negative
        else finite negative (2 ^ (mantissaBits - 1)) (gridExponent n d + 1)
      else if maxExponent < gridExponent n d then infinity negative
        else finite negative m (gridExponent n d) := by
  have hd' : 0 < d * 2 ^ (gridExponent n d).toNat :=
    Nat.mul_pos (Nat.pos_of_ne_zero hd) (Nat.pow_pos (by decide))
  rw [← scaled_eq_div] at hm
  have hround := (roundQuotient_eq_iff hd').2 hm
  have hgrid : max (log2Quotient n d - (mantissaBits - 1 : Nat)) minExponent =
      gridExponent n d := rfl
  rw [nearestQuotient, hgrid, hround]
  by_cases hcarry : m = 2 ^ mantissaBits
  · rw [if_pos hcarry, if_pos hcarry]
  · rw [if_neg hcarry, if_neg hcarry]

/-- A quotient has a mantissa on its grid. -/
theorem exists_mantissa (n : Nat) (hd : d ≠ 0) : ∃ m : Nat,
    Within m (m - 1 / 2) (m + 1 / 2) ((n : ℚ) / d / (2 : ℚ) ^ gridExponent n d) := by
  rw [← scaled_eq_div]
  refine ⟨_, (roundQuotient_eq_iff ?_).1 rfl⟩
  exact Nat.mul_pos (Nat.pos_of_ne_zero hd) (Nat.pow_pos (by decide))

/-- The grid is the one of the quotient's 53 binary digits, or the finest one. -/
theorem gridExponent_spec (hn : n ≠ 0) (hd : d ≠ 0) :
    minExponent ≤ gridExponent n d ∧ (n : ℚ) / d < (2 : ℚ) ^ (gridExponent n d + 53) ∧
      ((2 : ℚ) ^ (gridExponent n d + 52) ≤ (n : ℚ) / d ∨ gridExponent n d = minExponent) := by
  refine ⟨le_max_right _ _, (lt_two_zpow_log2Quotient hd).trans_le (two_zpow_le ?_), ?_⟩
  · have hle : log2Quotient n d - 52 ≤ gridExponent n d := le_max_left _ _
    omega
  · rcases max_choice (log2Quotient n d - 52) minExponent with h | h
    · refine Or.inl ?_
      rw [gridExponent, h, sub_add_cancel]
      exact two_zpow_log2Quotient_le hn hd
    · exact Or.inr h

/-- **A quotient is rounded to the double that it reads back as**, if that is not zero. -/
theorem nearestQuotient_eq_finite_iff (negative : Bool) {m : Nat} (e : Int) (hn : n ≠ 0)
    (hd : d ≠ 0) (hm : m ≠ 0) :
    nearestQuotient negative n d = finite negative m e ↔
      Canonical m e ∧ ReadsBack m e ((n : ℚ) / d) := by
  obtain ⟨hmin, hlt, hfull⟩ := gridExponent_spec hn hd
  have hvpos : (0 : ℚ) < (n : ℚ) / d :=
    div_pos (Nat.cast_pos.2 (Nat.pos_of_ne_zero hn)) (Nat.cast_pos.2 (Nat.pos_of_ne_zero hd))
  generalize hv : (n : ℚ) / d = v at *
  generalize hg : gridExponent n d = g at *
  have hwlt : v / (2 : ℚ) ^ g < 2 ^ 53 := by
    rw [div_lt_iff₀ (two_zpow_pos g)]
    rw [zpow_add₀ two_ne_zero, mul_comm] at hlt
    exact_mod_cast hlt
  constructor
  · intro h
    obtain ⟨m', hm'⟩ := exists_mantissa n hd
    have hnear := nearestQuotient_of_within negative hd hm'
    rw [h, hg] at hnear
    rw [hv, hg] at hm'
    split at hnear
    · rename_i hcarry
      split at hnear
      · exact absurd hnear (by simp)
      · rename_i hmax
        obtain ⟨-, rfl, rfl⟩ := finite.inj hnear
        have hcast : (m' : ℚ) = 2 ^ 53 := by
          rw [hcarry]
          norm_num [mantissaBits]
        have hlow := hm'.1
        rw [hcast] at hlow
        refine ⟨⟨by decide, by omega, by omega, Or.inl le_rfl⟩,
          readsBack_of_carry hlow hwlt.le hmin⟩
    · rename_i hcarry
      split at hnear
      · exact absurd hnear (by simp)
      · rename_i hmax
        obtain ⟨-, rfl, rfl⟩ := finite.inj hnear
        refine ⟨⟨?_, hmin, by omega, ?_⟩, readsBack_of_within hm' hfull⟩
        · refine Nat.lt_of_le_of_ne (Nat.le_of_not_lt fun hlt' => ?_) hcarry
          have hcast : (2 : ℚ) ^ 53 + 1 ≤ m := by exact_mod_cast hlt'
          have hlow := hm'.1
          linarith
        · refine hfull.imp_left fun hge => ?_
          refine Nat.le_of_not_lt fun hlt' => ?_
          have hcast : (m : ℚ) + 1 ≤ 2 ^ 52 := by exact_mod_cast hlt'
          have hw : (2 : ℚ) ^ 52 ≤ v / (2 : ℚ) ^ e := by
            rw [le_div_iff₀ (two_zpow_pos e)]
            rw [zpow_add₀ two_ne_zero, mul_comm] at hge
            exact_mod_cast hge
          have hhigh := hm'.2.1
          linarith
  · rintro ⟨hcan, hread⟩
    -- the grid is the one of the double, or the next finer one and the rounding carries
    have hge : g ≤ e := by
      rcases hfull with hfull | hfull
      · have := lt_of_two_zpow_lt (hfull.trans_lt (hread.lt hcan))
        omega
      · exact hfull.trans_le hcan.minExponent_le
    have hmax := hcan.le_maxExponent
    rcases hge.eq_or_lt with rfl | hgt
    · rw [nearestQuotient_of_within negative hd (by rw [hv, hg]; exact hread.within), hg,
        if_neg hcan.lt.ne, if_neg (by omega)]
    · have hve : v < (2 : ℚ) ^ (e + 52) := hlt.trans_le (two_zpow_le (by omega))
      obtain ⟨rfl, hlow, hhigh⟩ := hread.of_lt hcan (by omega) hve
      have heq : g = e - 1 := by
        have hbelow : (2 : ℚ) ^ (e + 51) ≤ v := by
          rw [le_div_iff₀ (two_zpow_pos _)] at hlow
          have hexp : e + 51 = 52 + (e - 1) := by omega
          rw [hexp, zpow_add₀ two_ne_zero]
          refine le_trans (mul_le_mul_of_nonneg_right ?_ (two_zpow_pos _).le) hlow
          norm_num
        have := lt_of_two_zpow_lt (hbelow.trans_lt hlt)
        omega
      subst heq
      have hcarry : Within (2 ^ mantissaBits) (((2 ^ mantissaBits : Nat) : ℚ) - 1 / 2)
          (((2 ^ mantissaBits : Nat) : ℚ) + 1 / 2) (v / (2 : ℚ) ^ (e - 1)) := by
        have hcast : ((2 ^ mantissaBits : Nat) : ℚ) = 2 ^ 53 := by norm_num [mantissaBits]
        rw [hcast]
        exact ⟨hlow, by linarith, fun hodd => absurd hodd (by decide)⟩
      rw [nearestQuotient_of_within negative hd (by rw [hv, hg]; exact hcarry), hg, if_pos rfl,
        sub_add_cancel, if_neg (by omega)]

end Quotient

/-! ## Rounding a literal -/

/-- The doubles end below `10^310`. -/
theorem two_zpow_lt_ten_zpow : (2 : ℚ) ^ (971 + 53 : Int) < (10 : ℚ) ^ (310 : Int) :=
  @natCast_zpow_lt 2 10 1024 310 (by decide +kernel)

/-- And half of the least one is more than `10^-326`. -/
theorem ten_zpow_lt_two_zpow : (10 : ℚ) ^ (-326 : Int) < (2 : ℚ) ^ (-1074 - 1 : Int) := by
  have h : (2 : ℚ) ^ (1075 : Int) < (10 : ℚ) ^ (326 : Int) :=
    @natCast_zpow_lt 2 10 1075 326 (by decide +kernel)
  have hinv := inv_strictAnti₀ (two_zpow_pos 1075) h
  rw [← zpow_neg, ← zpow_neg] at hinv
  exact hinv

/-- What reads back as a double has its leading digit in the range of doubles. -/
theorem ReadsBack.lead {m c : Nat} {e k : Int} (h : ReadsBack m e (Decimal.magnitude c k))
    (hcan : Canonical m e) (hm : m ≠ 0) (hc : c ≠ 0) :
    -326 ≤ Decimal.adjusted c k ∧ Decimal.adjusted c k < 310 := by
  have hlead := Decimal.ten_zpow_adjusted_le hc k
  have hnext := Decimal.magnitude_lt_ten_zpow c k
  have hhigh := h.lt hcan
  have hmax := hcan.le_maxExponent
  have hmin := hcan.minExponent_le
  rw [maxExponent] at hmax
  rw [minExponent] at hmin
  constructor
  · have hm1 : (1 : ℚ) ≤ m := by exact_mod_cast Nat.pos_of_ne_zero hm
    have hlow := h.within.1
    rw [le_div_iff₀ (two_zpow_pos e)] at hlow
    have hhalf : (2 : ℚ) ^ (-1074 - 1 : Int) ≤ ((m : ℚ) - 1 / 2) * (2 : ℚ) ^ e := by
      rw [zpow_sub_one₀ two_ne_zero, mul_comm]
      refine mul_le_mul ?_ (two_zpow_le hmin) (two_zpow_pos _).le ?_ <;> linarith
    have hlow' := ten_zpow_lt_two_zpow.trans_le (hhalf.trans hlow)
    have := lt_of_ten_zpow_lt (hlow'.trans hnext)
    omega
  · have hstep : (2 : ℚ) ^ (e + 53) ≤ (2 : ℚ) ^ (971 + 53 : Int) := two_zpow_le (by omega)
    exact lt_of_ten_zpow_lt ((hlead.trans_lt hhigh).trans (hstep.trans_lt two_zpow_lt_ten_zpow))

/-- **A literal is read as a double, other than zero, exactly if it lies in the interval that reads
back as this double.** -/
theorem nearest_eq_finite_iff {negative : Bool} {c m : Nat} {k e : Int} (hc : c ≠ 0) (hm : m ≠ 0) :
    nearest negative c k = finite negative m e ↔
      Canonical m e ∧ ReadsBack m e (Decimal.magnitude c k) := by
  have hn : c * 10 ^ k.toNat ≠ 0 := Nat.mul_ne_zero hc (Nat.pow_pos (by decide)).ne'
  have hd : 10 ^ (-k).toNat ≠ 0 := (Nat.pow_pos (by decide)).ne'
  have hquotient := nearestQuotient_eq_finite_iff negative e hn hd hm
  rw [← Decimal.magnitude_eq_div] at hquotient
  rw [nearest, if_neg hc]
  constructor
  · intro h
    dsimp only at h
    split at h
    · exact absurd h (by simp)
    · split at h
      · exact absurd (finite.inj h).2.1 hm.symm
      · exact hquotient.1 h
  · rintro ⟨hcan, hread⟩
    obtain ⟨hlow, hhigh⟩ := hread.lead hcan hm hc
    dsimp only
    rw [if_neg (by omega), if_neg (by omega)]
    exact hquotient.2 ⟨hcan, hread⟩

/-- The sign of a literal is the sign of its double. -/
theorem sign_of_nearest {negative n : Bool} {c m : Nat} {k e : Int}
    (h : nearest negative c k = finite n m e) : n = negative := by
  rw [nearest] at h
  split at h
  · exact (finite.inj h).1.symm
  · dsimp only at h
    split at h
    · exact absurd h (by simp)
    · split at h
      · exact (finite.inj h).1.symm
      · have hd : 10 ^ (-k).toNat ≠ 0 := (Nat.pow_pos (by decide)).ne'
        obtain ⟨m', hm'⟩ := exists_mantissa (c * 10 ^ k.toNat) hd
        have hnear := nearestQuotient_of_within negative hd hm'
        rw [h] at hnear
        split at hnear <;> split at hnear <;>
          first
          | exact (finite.inj hnear).1
          | exact absurd hnear (by simp)

/-- A literal that is read as zero is zero, or no larger than half of the least double. -/
theorem magnitude_le_of_nearest_zero {negative n : Bool} {c : Nat} {k e : Int}
    (h : nearest negative c k = finite n 0 e) :
    Decimal.magnitude c k ≤ (2 : ℚ) ^ (-1074 - 1 : Int) := by
  by_cases hc : c = 0
  · rw [hc, Decimal.magnitude_zero]
    exact (two_zpow_pos _).le
  have hn : c * 10 ^ k.toNat ≠ 0 := Nat.mul_ne_zero hc (Nat.pow_pos (by decide)).ne'
  have hd : 10 ^ (-k).toNat ≠ 0 := (Nat.pow_pos (by decide)).ne'
  rw [nearest, if_neg hc] at h
  dsimp only at h
  split at h
  · exact absurd h (by simp)
  · split at h
    · rename_i hlead
      refine (Decimal.magnitude_lt_ten_zpow c k).le.trans ?_
      exact (ten_zpow_le (by omega)).trans ten_zpow_lt_two_zpow.le
    · obtain ⟨-, -, hfull⟩ := gridExponent_spec hn hd
      obtain ⟨m, hm⟩ := exists_mantissa (c * 10 ^ k.toNat) hd
      have hnear := nearestQuotient_of_within negative hd hm
      rw [h] at hnear
      rw [← Decimal.magnitude_eq_div] at hfull hm
      generalize gridExponent (c * 10 ^ k.toNat) (10 ^ (-k).toNat) = g at *
      split at hnear
      · split at hnear
        · exact absurd hnear (by simp)
        · exact absurd (finite.inj hnear).2.1 (by decide)
      · split at hnear
        · exact absurd hnear (by simp)
        · obtain ⟨-, rfl, -⟩ := finite.inj hnear
          have hhigh := hm.2.1
          rw [div_le_iff₀ (two_zpow_pos g), Nat.cast_zero, zero_add] at hhigh
          rcases hfull with hfull | rfl
          · rw [zpow_add₀ two_ne_zero] at hfull
            have hp := two_zpow_pos g
            have hbig : (2 : ℚ) ^ g * 1 < (2 : ℚ) ^ g * (2 : ℚ) ^ (52 : Int) :=
              mul_lt_mul_of_pos_left (by norm_num) hp
            linarith
          · rw [zpow_sub_one₀ two_ne_zero]
            rw [minExponent] at hhigh
            linarith

end Binary64

end PaperVenue
