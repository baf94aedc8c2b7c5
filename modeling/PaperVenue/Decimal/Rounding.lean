import PaperVenue.Decimal.Basic

/-!
# Rounding

Results of arithmetic are rounded once, half to even, to the coarser of two grids: 28 significant
digits, and multiples of `10^-1000026`.  If the rounded leading digit stands above `10^999999`
the result is an overflow; a result too small for the second grid rounds to a zero that keeps its
sign.

The rounding itself is `roundShift`, on natural numbers: it drops `k` decimal digits of a
coefficient.  `roundQuotient_spec` says that it lands within half a unit and that a tie goes to
the even neighbour; that determines it.
-/

namespace PaperVenue

-- powers are those of the core library
attribute [local instance (1100)] instPowNat

/-- The quotient `n / d` rounded to the nearest integer, half to even. -/
def roundQuotient (n d : Nat) : Nat :=
  let q := n / d
  let r := n % d
  if 2 * r < d then q
  else if d < 2 * r then q + 1
  else if q % 2 = 0 then q else q + 1

/-- Drop `k` decimal digits, rounding half to even.  When more digits are dropped than there are,
the rest is below a half, and the power of ten need not be computed. -/
def roundShift (n k : Nat) : Nat :=
  if digitCount n < k then 0 else roundQuotient n (10 ^ k)

/-- **Nearest, and even on a tie.** -/
theorem roundQuotient_spec (n : Nat) {d : Nat} (hd : 0 < d) :
    2 * n ≤ (2 * roundQuotient n d + 1) * d ∧ (2 * roundQuotient n d) * d ≤ 2 * n + d ∧
      (2 * n = (2 * roundQuotient n d + 1) * d → roundQuotient n d % 2 = 0) ∧
      (2 * n + d = (2 * roundQuotient n d) * d → roundQuotient n d % 2 = 0) := by
  have hn : n = d * (n / d) + n % d := (Nat.div_add_mod n d).symm
  have hr : n % d < d := Nat.mod_lt n hd
  generalize hq : n / d = q at hn
  generalize hm : n % d = r at hn hr
  have hrq : roundQuotient n d =
      if 2 * r < d then q else if d < 2 * r then q + 1 else if q % 2 = 0 then q else q + 1 := by
    simp only [roundQuotient, hq, hm]
  have e1 : (2 * q + 1) * d = 2 * (d * q) + d := by
    rw [Nat.add_mul, Nat.mul_assoc, Nat.mul_comm q d, Nat.one_mul]
  have e2 : (2 * q) * d = 2 * (d * q) := by rw [Nat.mul_assoc, Nat.mul_comm q d]
  have e3 : (2 * (q + 1) + 1) * d = 2 * (d * q) + 3 * d := by
    rw [show 2 * (q + 1) + 1 = 2 * q + 3 by omega, Nat.add_mul, e2]
  have e4 : (2 * (q + 1)) * d = 2 * (d * q) + 2 * d := by
    rw [show 2 * (q + 1) = 2 * q + 2 by omega, Nat.add_mul, e2]
  rw [hrq]
  split
  · rw [e1, e2]; omega
  · split
    · rw [e3, e4]; omega
    · split
      · rw [e1, e2]; omega
      · rw [e3, e4]; omega

/-- A number lies below the power of ten that its digit count names. -/
theorem lt_ten_pow_digitCount (n : Nat) : n < 10 ^ digitCount n :=
  (Nat.length_toDigits_le_iff (by decide) (digitCount_pos n)).1 (Nat.le_refl _)

/-- **The shortcut changes nothing**: dropping digits is rounding the quotient. -/
theorem roundShift_eq (n k : Nat) : roundShift n k = roundQuotient n (10 ^ k) := by
  unfold roundShift
  split
  · rename_i h
    have hlt : n < 10 ^ digitCount n := lt_ten_pow_digitCount n
    have hle : 10 ^ (digitCount n + 1) ≤ 10 ^ k := Nat.pow_le_pow_right (by decide) h
    have hs : 10 ^ (digitCount n + 1) = 10 * 10 ^ digitCount n := by rw [Nat.pow_succ, Nat.mul_comm]
    have hnk : n < 10 ^ k := by omega
    have h2 : 2 * n < 10 ^ k := by omega
    simp [roundQuotient, Nat.div_eq_of_lt hnk, Nat.mod_eq_of_lt hnk, h2]
  · rfl

namespace Decimal

/-- Significant digits of a result. -/
def precision : Nat := 28

/-- The largest exponent of a result's leading digit. -/
def maxLead : Int := 999999

/-- The exponent of the finest grid that results lie on. -/
def minQuantum : Int := -1000026

/-- The exponent of the grid on which `coefficient · 10^exponent` is rounded: coarse enough for
28 digits, and no finer than the finest grid. -/
def quantum (coefficient : Nat) (exponent : Int) : Int :=
  max (exponent + (digitCount coefficient - precision : Nat)) minQuantum

/-- Round a magnitude onto its grid.  A carry into a 29th digit is taken back by one more digit,
which is then a zero. -/
def roundMagnitude (coefficient : Nat) (exponent : Int) : Nat × Int :=
  let grid := quantum coefficient exponent
  if grid ≤ exponent then (coefficient, exponent)
  else
    let rounded := roundShift coefficient (grid - exponent).toNat
    if digitCount rounded ≤ precision then (rounded, grid) else (rounded / 10, grid + 1)

/-- A finite result, rounded.  A zero only has its exponent moved into the range of results. -/
def rounded (negative : Bool) (coefficient : Nat) (exponent : Int) : Except Signal Decimal :=
  if coefficient = 0 then .ok (finite negative 0 (max minQuantum (min exponent maxLead)))
  else if maxLead < adjusted coefficient exponent then .error .overflow
  else
    let (c, e) := roundMagnitude coefficient exponent
    if maxLead < adjusted c e then .error .overflow else .ok (finite negative c e)

/-- Take decimal zeros off the end of a coefficient, at most `limit` of them. -/
def dropZeros : Nat → Nat → Int → Nat × Int
  | 0, c, e => (c, e)
  | limit + 1, c, e => if c % 10 = 0 then dropZeros limit (c / 10) (e + 1) else (c, e)

/-- A not-a-number as a result: quiet, and with as many payload digits as a result has. -/
def quieted (negative : Bool) (payload : Nat) : Decimal :=
  nan negative false (payload % 10 ^ precision)

end Decimal

end PaperVenue
