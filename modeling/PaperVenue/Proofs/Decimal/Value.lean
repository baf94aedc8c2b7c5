import PaperVenue.Proofs.Decimal.Overflow
import Mathlib.Algebra.Order.Field.Power
import Mathlib.Data.Rat.Cast.Order
import Mathlib.Tactic.Positivity
import Mathlib.Tactic.Linarith

/-!
# The number that a decimal is

A finite decimal is a rational number, `Decimal.value?`.  The decimals of one number differ in their
exponents, and zero has two signs besides; nothing else is lost.

The exponent of the leading digit, `adjusted`, tells the size of a number without writing it out:
`10^adjusted ≤ c · 10^k < 10^(adjusted + 1)`.
-/

namespace PaperVenue

/-! ## Powers and quotients -/

/-- A power with an integer exponent as a quotient of natural powers, of which one is 1. -/
theorem zpow_eq_toNat_div {b : Nat} (hb : b ≠ 0) (k : Int) :
    (b : ℚ) ^ k = ((b ^ k.toNat : Nat) : ℚ) / ((b ^ (-k).toNat : Nat) : ℚ) := by
  have hb' : (b : ℚ) ≠ 0 := Nat.cast_ne_zero.2 hb
  rw [Nat.cast_pow, Nat.cast_pow, ← zpow_natCast, ← zpow_natCast, ← zpow_sub₀ hb']
  congr 1
  omega

theorem two_zpow_pos (k : Int) : (0 : ℚ) < (2 : ℚ) ^ k := zpow_pos (by norm_num) k

theorem ten_zpow_pos (k : Int) : (0 : ℚ) < (10 : ℚ) ^ k := zpow_pos (by norm_num) k

theorem ten_zpow_le {j k : Int} (h : j ≤ k) : (10 : ℚ) ^ j ≤ (10 : ℚ) ^ k :=
  zpow_le_zpow_right₀ (by norm_num) h

theorem two_zpow_le {j k : Int} (h : j ≤ k) : (2 : ℚ) ^ j ≤ (2 : ℚ) ^ k :=
  zpow_le_zpow_right₀ (by norm_num) h

/-- A power of two below another has a smaller exponent. -/
theorem lt_of_two_zpow_lt {j k : Int} (h : (2 : ℚ) ^ j < (2 : ℚ) ^ k) : j < k :=
  (zpow_lt_zpow_iff_right₀ (by norm_num)).1 h

theorem lt_of_ten_zpow_lt {j k : Int} (h : (10 : ℚ) ^ j < (10 : ℚ) ^ k) : j < k :=
  (zpow_lt_zpow_iff_right₀ (by norm_num)).1 h

/-- Powers of two bases compare as natural numbers do. -/
theorem natCast_zpow_lt {a b j k : Nat} (h : a ^ j < b ^ k) :
    (a : ℚ) ^ (j : Int) < (b : ℚ) ^ (k : Int) := by
  rw [zpow_natCast, zpow_natCast, ← Nat.cast_pow, ← Nat.cast_pow]
  exact Nat.cast_lt.2 h

/-- A power of ten is a natural number of steps of any smaller power. -/
theorem ten_zpow_eq_mul {j k : Int} (h : j ≤ k) :
    (10 : ℚ) ^ k = ((10 ^ (k - j).toNat : Nat) : ℚ) * (10 : ℚ) ^ j := by
  have h10 : (10 : ℚ) ≠ 0 := by norm_num
  rw [Nat.cast_pow, ← zpow_natCast, Nat.cast_ofNat, ← zpow_add₀ h10]
  congr 1
  omega

/-- Whole division rounds down. -/
theorem cast_div_le_and_lt (n : Nat) {d : Nat} (hd : 0 < d) :
    ((n / d : Nat) : ℚ) ≤ (n : ℚ) / d ∧ (n : ℚ) / d < ((n / d + 1 : Nat) : ℚ) := by
  rw [le_div_iff₀ (Nat.cast_pos.2 hd), div_lt_iff₀ (Nat.cast_pos.2 hd), ← Nat.cast_mul,
    ← Nat.cast_mul, Nat.cast_le, Nat.cast_lt]
  exact ⟨Nat.div_mul_le_self n d, (Nat.div_lt_iff_lt_mul hd).1 (Nat.lt_succ_self _)⟩

namespace Decimal

/-! ## Values -/

/-- The number `c · 10^k`. -/
def magnitude (c : Nat) (k : Int) : ℚ := (c : ℚ) * (10 : ℚ) ^ k

/-- A number with a sign. -/
def withSign (negative : Bool) (x : ℚ) : ℚ := if negative then -x else x

/-- The number that a decimal is, if it is finite. -/
def value? : Decimal → Option ℚ
  | finite negative c k => some (withSign negative (magnitude c k))
  | _ => none

theorem magnitude_nonneg (c : Nat) (k : Int) : 0 ≤ magnitude c k :=
  mul_nonneg (Nat.cast_nonneg c) (ten_zpow_pos k).le

theorem magnitude_pos {c : Nat} (hc : c ≠ 0) (k : Int) : 0 < magnitude c k :=
  mul_pos (Nat.cast_pos.2 (Nat.pos_of_ne_zero hc)) (ten_zpow_pos k)

theorem magnitude_zero (k : Int) : magnitude 0 k = 0 := by simp [magnitude]

/-- A finer exponent takes a coefficient with more zeros. -/
theorem magnitude_eq_of_le {j k : Int} (h : j ≤ k) (c : Nat) :
    magnitude c k = magnitude (c * 10 ^ (k - j).toNat) j := by
  rw [magnitude, magnitude, ten_zpow_eq_mul h, Nat.cast_mul, mul_assoc]

/-- A magnitude as a quotient of natural numbers. -/
theorem magnitude_eq_div (c : Nat) (k : Int) :
    magnitude c k = ((c * 10 ^ k.toNat : Nat) : ℚ) / ((10 ^ (-k).toNat : Nat) : ℚ) := by
  have h := zpow_eq_toNat_div (b := 10) (by decide) k
  rw [Nat.cast_ofNat] at h
  rw [magnitude, h, Nat.cast_mul, mul_div_assoc]

theorem abs_withSign (negative : Bool) {x : ℚ} (hx : 0 ≤ x) : |withSign negative x| = x := by
  cases negative with
  | true => exact (abs_neg x).trans (abs_of_nonneg hx)
  | false => exact abs_of_nonneg hx

/-- Two magnitudes with signs are the same number only if the magnitudes are, and if they are not
zero the signs are the same too. -/
theorem withSign_eq_withSign_iff {p q : Bool} {x y : ℚ} (hx : 0 ≤ x) (hy : 0 ≤ y) :
    withSign p x = withSign q y ↔ x = y ∧ (x ≠ 0 → p = q) := by
  constructor
  · intro h
    have hxy : x = y := by
      cases p <;> cases q <;> simp only [withSign, Bool.false_eq_true, if_true, if_false] at h <;>
        linarith
    refine ⟨hxy, fun hne => ?_⟩
    subst hxy
    have hpos : 0 < x := lt_of_le_of_ne hx hne.symm
    cases p <;> cases q <;> simp only [withSign, Bool.false_eq_true, if_true, if_false] at h <;>
      first | rfl | linarith
  · rintro ⟨rfl, hsign⟩
    by_cases hne : x = 0
    · simp [withSign, hne]
    · rw [hsign hne]

/-! ## Leading digits -/

/-- **The size of a number**, from below. -/
theorem ten_zpow_adjusted_le {c : Nat} (hc : c ≠ 0) (k : Int) :
    (10 : ℚ) ^ adjusted c k ≤ magnitude c k := by
  have hpos := digitCount_pos c
  have hpow : 10 ^ (digitCount c - 1) ≤ c := ten_pow_le_of_lt_digitCount hc (by omega)
  have hcast : ((10 ^ (digitCount c - 1) : Nat) : ℚ) ≤ (c : ℚ) := Nat.cast_le.2 hpow
  have hexp : (adjusted c k - k).toNat = digitCount c - 1 := by
    rw [adjusted]
    omega
  have hle : k ≤ adjusted c k := by
    rw [adjusted]
    omega
  rw [ten_zpow_eq_mul hle, hexp, magnitude]
  exact mul_le_mul_of_nonneg_right hcast (ten_zpow_pos k).le

/-- **The size of a number**, from above. -/
theorem magnitude_lt_ten_zpow (c : Nat) (k : Int) :
    magnitude c k < (10 : ℚ) ^ (adjusted c k + 1) := by
  have hcast : (c : ℚ) < ((10 ^ digitCount c : Nat) : ℚ) := Nat.cast_lt.2 (lt_ten_pow_digitCount c)
  have hexp : (adjusted c k + 1 - k).toNat = digitCount c := by
    rw [adjusted]
    omega
  have hle : k ≤ adjusted c k + 1 := by
    rw [adjusted]
    omega
  rw [ten_zpow_eq_mul hle, hexp, magnitude]
  exact mul_lt_mul_of_pos_right hcast (ten_zpow_pos k)

/-- Taking zeros off the end of a coefficient does not change the number. -/
theorem magnitude_dropZeros (limit c : Nat) (k : Int) :
    magnitude (dropZeros limit c k).1 (dropZeros limit c k).2 = magnitude c k := by
  induction limit generalizing c k with
  | zero => rfl
  | succ limit ih =>
    rw [dropZeros]
    split
    · rename_i hzero
      have hc : c / 10 * 10 ^ (k + 1 - k).toNat = c := by
        have hexp : (k + 1 - k).toNat = 1 := by omega
        rw [hexp, Nat.pow_one]
        omega
      rw [ih, magnitude_eq_of_le (by omega : k ≤ k + 1), hc]
    · rfl

end Decimal

end PaperVenue
