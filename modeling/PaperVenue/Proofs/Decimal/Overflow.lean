import Mathlib.Algebra.Group.Nat.Defs
import PaperVenue.Decimal.Plain

/-!
# Which decimals have no plain form

A plain form is written after rounding to 28 digits, and rounding can push a number over the edge
of the range: `9.9…9E+999999` with enough nines carries into the next power of ten.  So whether a
decimal overflows cannot be read off its leading digit alone, and not off its number of digits.  It
overflows exactly when

* its leading digit stands above `10^999999` as it is, or
* its leading digit stands at `10^999999` and rounding carries, that is, the number is at least
  half a unit of the 28th digit below `10^1000000`.

`Decimal.TooLarge` says this of a magnitude without mentioning any rounding, and
`rounded_of_tooLarge` and `rounded_of_not_tooLarge` say that it is right.  Numbers below the finest
grid need a case of their own: they are rounded at a coarser place than the 28th digit, and never
overflow.

A decimal is `Reportable` if it is not too large and not a signaling not-a-number;
`exists_plainText_iff` is the result.
-/

namespace PaperVenue

/-! ## Digit counts -/

theorem digitCount_le_iff {n k : Nat} (hk : 0 < k) : digitCount n ≤ k ↔ n < 10 ^ k :=
  Nat.length_toDigits_le_iff (by decide) hk

/-- A number other than zero reaches the power of ten of its leading digit. -/
theorem ten_pow_le_of_lt_digitCount {n k : Nat} (hn : n ≠ 0) (h : k < digitCount n) :
    10 ^ k ≤ n := by
  rcases Nat.eq_zero_or_pos k with rfl | hk
  · exact Nat.pos_of_ne_zero hn
  · refine Nat.le_of_not_lt fun hlt => ?_
    have hle := (digitCount_le_iff hk).2 hlt
    omega

theorem digitCount_eq_succ {n k : Nat} (hlow : 10 ^ k ≤ n) (hhigh : n < 10 ^ (k + 1)) :
    digitCount n = k + 1 := by
  have hle : digitCount n ≤ k + 1 := (digitCount_le_iff (Nat.succ_pos k)).2 hhigh
  have hlt : k < digitCount n := by
    refine Nat.lt_of_not_le fun hle' => ?_
    have hpow : 10 ^ digitCount n ≤ 10 ^ k := Nat.pow_le_pow_right (by decide) hle'
    have hn := lt_ten_pow_digitCount n
    omega
  omega

/-! ## Bounds on a rounded quotient -/

theorem le_roundQuotient {n d low : Nat} (hd : 0 < d) (h : low * d ≤ n) :
    low ≤ roundQuotient n d := by
  obtain ⟨hup, -⟩ := roundQuotient_spec n hd
  refine Nat.le_of_not_lt fun hlt => ?_
  have hmul : (2 * roundQuotient n d + 2) * d ≤ (2 * low) * d :=
    Nat.mul_le_mul_right d (by omega)
  rw [Nat.add_mul, Nat.mul_assoc 2 low] at hmul
  rw [Nat.add_mul] at hup
  omega

theorem roundQuotient_le {n d high : Nat} (hd : 0 < d) (h : n ≤ high * d) :
    roundQuotient n d ≤ high := by
  obtain ⟨-, hdown, -⟩ := roundQuotient_spec n hd
  refine Nat.le_of_not_lt fun hlt => ?_
  have hmul : (2 * high + 2) * d ≤ (2 * roundQuotient n d) * d :=
    Nat.mul_le_mul_right d (by omega)
  rw [Nat.add_mul, Nat.mul_assoc 2 high] at hmul
  omega

/-- A quotient is rounded beyond an odd number from half a unit above it on: on the tie itself the
even neighbour is the one above. -/
theorem lt_roundQuotient_iff {n d j : Nat} (hd : 0 < d) (hj : j % 2 = 1) :
    j < roundQuotient n d ↔ (2 * j + 1) * d ≤ 2 * n := by
  obtain ⟨hup, hdown, heven, -⟩ := roundQuotient_spec n hd
  generalize hq : roundQuotient n d = q at *
  constructor
  · intro hlt
    have hmul : (2 * j + 2) * d ≤ (2 * q) * d := Nat.mul_le_mul_right d (by omega)
    rw [Nat.add_mul] at hmul ⊢
    omega
  · intro hle
    refine Nat.lt_of_not_le fun hqj => ?_
    have hmul : (2 * q + 1) * d ≤ (2 * j + 1) * d := Nat.mul_le_mul_right d (by omega)
    have htie : (2 * q + 1) * d = (2 * j + 1) * d := by omega
    have hqj' : 2 * q + 1 = 2 * j + 1 := Nat.eq_of_mul_eq_mul_right hd htie
    have hqeven : q % 2 = 0 := heven (by omega)
    omega

namespace Decimal

/-! ## The carry -/

/-- Does rounding a coefficient to 28 digits carry into a 29th? -/
def Carries (c : Nat) : Prop :=
  (2 * 10 ^ precision - 1) * 10 ^ (digitCount c - precision) ≤ 2 * c

theorem ten_pow_precision : 10 ^ precision = 10 ^ (precision - 1) * 10 := rfl

/-- A coefficient that needs no rounding does not carry. -/
theorem not_carries_of_short {c : Nat} (h : digitCount c ≤ precision) : ¬ Carries c := by
  have hlt : c < 10 ^ precision := (digitCount_le_iff (by decide)).1 h
  rw [Carries, Nat.sub_eq_zero_of_le h, Nat.pow_zero, Nat.mul_one]
  omega

/-- A coefficient that is too long keeps 28 digits, or becomes the power of ten behind them. -/
theorem roundShift_of_long {c : Nat} (h : precision < digitCount c) :
    10 ^ (precision - 1) ≤ roundShift c (digitCount c - precision) ∧
      roundShift c (digitCount c - precision) ≤ 10 ^ precision ∧
      (10 ^ precision ≤ roundShift c (digitCount c - precision) ↔ Carries c) := by
  have hc : c ≠ 0 := by
    rintro rfl
    exact absurd h (by decide)
  have hd : 0 < 10 ^ (digitCount c - precision) := Nat.pow_pos (by decide)
  have hlow : 10 ^ (precision - 1) * 10 ^ (digitCount c - precision) ≤ c := by
    rw [← Nat.pow_add]
    refine ten_pow_le_of_lt_digitCount hc ?_
    have hpos : 0 < precision := by decide
    omega
  have hhigh : c ≤ 10 ^ precision * 10 ^ (digitCount c - precision) := by
    rw [← Nat.pow_add, Nat.add_sub_cancel' (Nat.le_of_lt h)]
    exact Nat.le_of_lt (lt_ten_pow_digitCount c)
  rw [roundShift_eq]
  refine ⟨le_roundQuotient hd hlow, roundQuotient_le hd hhigh, ?_⟩
  have hodd : (10 ^ precision - 1) % 2 = 1 := rfl
  have hone : 2 * (10 ^ precision - 1) + 1 = 2 * 10 ^ precision - 1 := rfl
  have hiff := lt_roundQuotient_iff (n := c) hd hodd
  rw [hone] at hiff
  exact hiff

/-! ## The leading digit after rounding -/

theorem adjusted_le_of_digitCount_le {c k : Nat} (e : Int) (h : digitCount c ≤ k) :
    adjusted c e ≤ e + k - 1 := by
  rw [adjusted]
  omega

/-- A number that is rounded at the 28th digit: its leading digit moves up if the rounding carries,
and stays otherwise. -/
theorem adjusted_roundMagnitude_of_long {c : Nat} {e : Int} (hlong : precision < digitCount c)
    (hgrid : minQuantum ≤ e + (digitCount c - precision : Nat)) :
    (Carries c →
      adjusted (roundMagnitude c e).1 (roundMagnitude c e).2 = adjusted c e + 1) ∧
    (¬ Carries c → adjusted (roundMagnitude c e).1 (roundMagnitude c e).2 = adjusted c e) := by
  obtain ⟨hlow, hhigh, hcar⟩ := roundShift_of_long hlong
  have hquantum : quantum c e = e + (digitCount c - precision : Nat) := by
    rw [quantum]
    omega
  have hshift : (quantum c e - e).toNat = digitCount c - precision := by omega
  have hround : roundMagnitude c e =
      if digitCount (roundShift c (digitCount c - precision)) ≤ precision then
        (roundShift c (digitCount c - precision), quantum c e)
      else (roundShift c (digitCount c - precision) / 10, quantum c e + 1) := by
    rw [roundMagnitude, if_neg (by omega), hshift]
  rw [hround]
  generalize roundShift c (digitCount c - precision) = r at *
  constructor
  · intro hcarries
    have hr : r = 10 ^ precision := Nat.le_antisymm hhigh (hcar.2 hcarries)
    have hdigits : digitCount (10 ^ precision) = precision + 1 :=
      digitCount_eq_succ (Nat.le_refl _) (Nat.pow_lt_pow_right (by decide) (Nat.lt_succ_self _))
    have hdigits' : digitCount (10 ^ precision / 10) = precision := by
      rw [ten_pow_precision, Nat.mul_div_cancel _ (by decide)]
      exact digitCount_eq_succ (Nat.le_refl _) (Nat.pow_lt_pow_right (by decide) (by decide))
    rw [hr, if_neg (by omega), adjusted, adjusted, hdigits']
    omega
  · intro hcarries
    have hlt : r < 10 ^ precision := Nat.lt_of_not_le fun hle => hcarries (hcar.1 hle)
    have hdigits : digitCount r = precision := digitCount_eq_succ hlow hlt
    rw [if_pos (Nat.le_of_eq hdigits), adjusted, adjusted, hdigits]
    omega

/-- A number that is rounded at the finest grid, above its 28th digit, ends far below the range. -/
theorem adjusted_roundMagnitude_of_tiny {c : Nat} {e : Int}
    (hgrid : e + (digitCount c - precision : Nat) < minQuantum) :
    adjusted (roundMagnitude c e).1 (roundMagnitude c e).2 < maxLead := by
  have hquantum : quantum c e = minQuantum := by
    rw [quantum]
    omega
  have hbound : c ≤ 10 ^ precision * 10 ^ (minQuantum - e).toNat := by
    rw [← Nat.pow_add]
    refine Nat.le_trans (Nat.le_of_lt (lt_ten_pow_digitCount c)) ?_
    exact Nat.pow_le_pow_right (by decide) (by omega)
  have hr : roundShift c (minQuantum - e).toNat ≤ 10 ^ precision := by
    rw [roundShift_eq]
    exact roundQuotient_le (Nat.pow_pos (by decide)) hbound
  have hround : roundMagnitude c e =
      if digitCount (roundShift c (minQuantum - e).toNat) ≤ precision then
        (roundShift c (minQuantum - e).toNat, minQuantum)
      else (roundShift c (minQuantum - e).toNat / 10, minQuantum + 1) := by
    rw [roundMagnitude, hquantum, if_neg (by omega)]
  rw [hround]
  generalize roundShift c (minQuantum - e).toNat = r at *
  have hrange : minQuantum + 1 + precision - 1 < maxLead := by decide
  split
  · rename_i hdigits
    have hadj := adjusted_le_of_digitCount_le minQuantum hdigits
    dsimp only
    omega
  · have hdigits : digitCount (r / 10) ≤ precision := by
      refine (digitCount_le_iff (by decide)).2 ?_
      have hpos : 0 < 10 ^ precision := Nat.pow_pos (by decide)
      omega
    have hadj := adjusted_le_of_digitCount_le (minQuantum + 1) hdigits
    dsimp only
    omega

/-- Rounding lifts the leading digit above the range exactly if it stood at the edge and the
rounding carries. -/
theorem maxLead_lt_adjusted_roundMagnitude_iff {c : Nat} {e : Int}
    (hlead : adjusted c e ≤ maxLead) :
    maxLead < adjusted (roundMagnitude c e).1 (roundMagnitude c e).2 ↔
      adjusted c e = maxLead ∧ Carries c := by
  by_cases hlong : precision < digitCount c
  · by_cases hgrid : e + (digitCount c - precision : Nat) < minQuantum
    · have hlt := adjusted_roundMagnitude_of_tiny hgrid
      have hlow : adjusted c e < maxLead := by
        have hrange : minQuantum + precision - 1 < maxLead := by decide
        rw [adjusted]
        omega
      constructor
      · intro h
        omega
      · rintro ⟨h, -⟩
        omega
    · obtain ⟨hcarry, hstay⟩ := adjusted_roundMagnitude_of_long hlong (Int.le_of_not_gt hgrid)
      by_cases hcar : Carries c
      · rw [hcarry hcar]
        exact ⟨fun h => ⟨by omega, hcar⟩, fun h => by omega⟩
      · rw [hstay hcar]
        exact ⟨fun h => by omega, fun h => absurd h.2 hcar⟩
  · have hshort := not_carries_of_short (Nat.le_of_not_lt hlong)
    have hquantum : quantum c e = max e minQuantum := by
      rw [quantum, Nat.sub_eq_zero_of_le (Nat.le_of_not_lt hlong)]
      simp
    constructor
    · intro h
      by_cases hfit : quantum c e ≤ e
      · rw [roundMagnitude, if_pos hfit] at h
        dsimp only at h
        omega
      · have hlt : adjusted (roundMagnitude c e).1 (roundMagnitude c e).2 < maxLead := by
          refine adjusted_roundMagnitude_of_tiny ?_
          omega
        omega
    · exact fun h => absurd h.2 hshort

/-! ## What overflows -/

/-- Is the magnitude `c · 10^e` too large for the range, at once or after rounding? -/
def TooLarge (c : Nat) (e : Int) : Prop :=
  c ≠ 0 ∧ (maxLead < adjusted c e ∨ adjusted c e = maxLead ∧ Carries c)

/-- A number whose leading digit stands below the edge is not too large. -/
theorem not_tooLarge_of_adjusted_lt {c : Nat} {e : Int} (h : adjusted c e < maxLead) :
    ¬ TooLarge c e := by
  rintro ⟨-, hlarge⟩
  omega

theorem rounded_of_tooLarge {c : Nat} {e : Int} (h : TooLarge c e) (negative : Bool) :
    rounded negative c e = .error .overflow := by
  obtain ⟨hc, hlarge⟩ := h
  rw [rounded, if_neg hc]
  split
  · rfl
  · rename_i hlead
    have hedge : adjusted c e = maxLead ∧ Carries c := hlarge.resolve_left hlead
    have hlt := (maxLead_lt_adjusted_roundMagnitude_iff (Int.le_of_not_gt hlead)).2 hedge
    exact if_pos hlt

theorem rounded_of_not_tooLarge {c : Nat} {e : Int} (h : ¬ TooLarge c e) (negative : Bool) :
    ∃ c' e', rounded negative c e = .ok (finite negative c' e') := by
  rw [rounded]
  by_cases hc : c = 0
  · exact ⟨_, _, if_pos hc⟩
  · have hlead : ¬ maxLead < adjusted c e := fun hlt => h ⟨hc, Or.inl hlt⟩
    have hround : ¬ maxLead < adjusted (roundMagnitude c e).1 (roundMagnitude c e).2 := by
      rw [maxLead_lt_adjusted_roundMagnitude_iff (Int.le_of_not_gt hlead)]
      exact fun hedge => h ⟨hc, Or.inr hedge⟩
    refine ⟨(roundMagnitude c e).1, (roundMagnitude c e).2, ?_⟩
    rw [if_neg hc, if_neg hlead]
    exact if_neg hround

/-! ## Plain forms -/

/-- Can a decimal be written in plain notation? -/
def Reportable : Decimal → Prop
  | finite _ c e => ¬ TooLarge c e
  | infinity _ => True
  | nan _ signaling _ => signaling = false

/-- **A decimal has a plain form exactly if it is reportable.** -/
theorem exists_plainText_iff (d : Decimal) : (∃ s, d.plainText = .ok s) ↔ d.Reportable := by
  cases d with
  | finite negative c e =>
    by_cases h : TooLarge c e
    · have hplain : (finite negative c e).plainText = .error .overflow := by
        rw [plainText, plain, rounded_of_tooLarge h]
        rfl
      rw [hplain]
      constructor
      · rintro ⟨s, hs⟩
        exact absurd hs (by simp)
      · exact fun hr => absurd h hr
    · obtain ⟨c', e', hr⟩ := rounded_of_not_tooLarge h negative
      refine ⟨fun _ => h, fun _ => ?_⟩
      rw [plainText, plain, hr]
      exact ⟨_, rfl⟩
  | infinity negative => exact ⟨fun _ => trivial, fun _ => ⟨_, rfl⟩⟩
  | nan negative signaling payload =>
    cases signaling with
    | false => exact ⟨fun _ => rfl, fun _ => ⟨_, rfl⟩⟩
    | true =>
      have hplain : (nan negative true payload).plainText = .error .invalidOperation := rfl
      rw [hplain]
      constructor
      · rintro ⟨s, hs⟩
        exact absurd hs (by simp)
      · exact fun h => absurd h (by simp [Reportable])

end Decimal

end PaperVenue
