import PaperVenue.Decimal.Comparison
import PaperVenue.Proofs.Decimal.Value

/-!
# Decimals and zero

A decimal that is a number is zero, positive or negative, and each of the infinities has a sign too.
Comparing with zero tells which: equality to zero is refused for a signaling not-a-number only, and
the order for every not-a-number.
-/

namespace PaperVenue

namespace Decimal

/-- A zero, of either sign and with any exponent. -/
def IsZero : Decimal → Prop
  | finite _ c _ => c = 0
  | _ => False

/-- Larger than zero, an infinity included. -/
def IsPositive : Decimal → Prop
  | finite negative c _ => negative = false ∧ c ≠ 0
  | infinity negative => negative = false
  | nan _ _ _ => False

/-- Smaller than zero, an infinity included.  A zero with a minus sign is not. -/
def IsNegative : Decimal → Prop
  | finite negative c _ => negative = true ∧ c ≠ 0
  | infinity negative => negative = true
  | nan _ _ _ => False

instance : DecidablePred IsZero
  | finite _ c _ => inferInstanceAs (Decidable (c = 0))
  | infinity _ => isFalse id
  | nan _ _ _ => isFalse id

instance : DecidablePred IsPositive
  | finite negative c _ => inferInstanceAs (Decidable (negative = false ∧ c ≠ 0))
  | infinity negative => inferInstanceAs (Decidable (negative = false))
  | nan _ _ _ => isFalse id

instance : DecidablePred IsNegative
  | finite negative c _ => inferInstanceAs (Decidable (negative = true ∧ c ≠ 0))
  | infinity negative => inferInstanceAs (Decidable (negative = true))
  | nan _ _ _ => isFalse id

/-- What is neither zero nor negative nor a not-a-number is positive. -/
theorem isPositive_iff {d : Decimal} :
    d.IsPositive ↔ d.isNaN = false ∧ ¬ d.IsNegative ∧ ¬ d.IsZero := by
  cases d with
  | finite negative c e => cases negative <;> simp [IsPositive, IsNegative, IsZero, isNaN]
  | infinity negative => cases negative <;> simp [IsPositive, IsNegative, IsZero, isNaN]
  | nan negative signaling payload => simp [IsPositive, isNaN]

theorem isSignaling_of_isNaN {d : Decimal} (h : d.isNaN = false) : d.isSignaling = false := by
  cases d with
  | nan negative signaling payload => exact Bool.noConfusion h
  | _ => rfl

/-! ## Comparing with zero -/

/-- **Equality to zero** is refused for a signaling not-a-number only. -/
theorem numericallyEqual_zero (d : Decimal) :
    d.numericallyEqual .zero =
      if d.isSignaling then .error .invalidOperation else .ok (decide d.IsZero) := by
  have hzero : Decimal.zero.isSignaling = false := rfl
  rw [numericallyEqual, hzero, Bool.or_false]
  congr 2
  cases d with
  | finite negative c e =>
    by_cases hc : c = 0
    · simp [compare?, compareFinite, zero, IsZero, hc]
    · cases negative <;> simp [compare?, compareFinite, zero, IsZero, hc]
  | infinity negative => cases negative <;> rfl
  | nan negative signaling payload => rfl

/-- **To be above zero** is to be positive. -/
theorem le_zero_eq_false_iff {d : Decimal} : d.le .zero = .ok false ↔ d.IsPositive := by
  cases d with
  | finite negative c e =>
    by_cases hc : c = 0
    · simp [le, compare?, compareFinite, zero, IsPositive, hc]
    · cases negative <;> simp [le, compare?, compareFinite, zero, IsPositive, hc]
  | infinity negative => cases negative <;> simp [le, compare?, zero, IsPositive]
  | nan negative signaling payload => simp [le, compare?, IsPositive]

/-- Numbers can be compared. -/
theorem isSome_compare?_of_isFinite {a b : Decimal} (ha : a.isFinite) (hb : b.isFinite) :
    (a.compare? b).isSome := by
  cases a with
  | finite =>
    cases b with
    | finite => rfl
    | _ => exact Bool.noConfusion hb
  | _ => exact Bool.noConfusion ha

/-! ## Positive numbers -/

/-- A decimal of a positive number has no sign and a coefficient other than zero. -/
theorem exists_finite_of_value? {d : Decimal} {x : ℚ} (h : d.value? = some x) (hx : 0 < x) :
    ∃ c e, d = finite false c e ∧ c ≠ 0 ∧ magnitude c e = x := by
  cases d with
  | finite negative c e =>
    obtain rfl := Option.some.inj h
    have hc : c ≠ 0 := by
      rintro rfl
      cases negative <;> simp [withSign, magnitude_zero] at hx
    cases negative with
    | true =>
      have hneg : withSign true (magnitude c e) < 0 := neg_lt_zero.2 (magnitude_pos hc e)
      exact absurd hx hneg.not_gt
    | false => exact ⟨c, e, rfl, hc, rfl⟩
  | infinity negative => cases h
  | nan negative signaling payload => cases h

/-- Only finite decimals have a value. -/
theorem isFinite_of_value? {d : Decimal} {x : ℚ} (h : d.value? = some x) : d.isFinite := by
  cases d with
  | finite => rfl
  | _ => cases h

/-- The value of a positive decimal is positive. -/
theorem value_pos {d : Decimal} (h : d.IsPositive) {x : ℚ} (hx : d.value? = some x) : 0 < x := by
  cases d with
  | finite negative c e =>
    obtain ⟨rfl, hc⟩ := h
    obtain rfl := Option.some.inj hx
    exact magnitude_pos hc e
  | infinity negative => cases hx
  | nan negative signaling payload => cases hx

/-- A finite positive decimal has a positive value. -/
theorem exists_value?_of_isPositive {d : Decimal} (h : d.IsPositive) (hd : d.isFinite) :
    ∃ x, d.value? = some x ∧ 0 < x := by
  cases d with
  | finite negative c e =>
    obtain ⟨rfl, hc⟩ := h
    exact ⟨magnitude c e, rfl, magnitude_pos hc e⟩
  | infinity negative => exact Bool.noConfusion hd
  | nan negative signaling payload => exact h.elim

end Decimal

end PaperVenue
