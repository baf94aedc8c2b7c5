import PaperVenue.Proofs.Decimal.Rounded
import PaperVenue.Proofs.Decimal.Written

/-!
# What plain notation says

Amounts are reported in plain notation.  `Decimal.PlainForm` is what such a text is: a number of a
document without an exponent, with no superfluous zero in front (as every number of a document) and
no zero at the end of a fraction.  A number and a sign have at most one such text,
`PlainForm.unique`.

The text of a decimal is that of its rounded number, and rounding is a relation of numbers,
`RoundsOn resultGrid`.  So the text depends on the number and the sign and on nothing else
(`plainText_cases`), and there is none exactly if the number `Overflows`.  A result of rounding is
read back from its text, and is not changed by rounding it once more, so its text is stable.
`plainText_finite` is the whole.
-/

namespace PaperVenue

namespace Decimal

/-! ## Numbers without zeros at the end -/

/-- A coefficient that does not end with zero goes with the coarsest of the grids that the number
lies on. -/
theorem le_of_mod_ne_zero {c n : Nat} {g k : Int} (hc : c % 10 ≠ 0)
    (h : magnitude c k = magnitude n g) : g ≤ k := by
  by_contra hlt
  rw [magnitude_eq_of_le (by omega : k ≤ g) n] at h
  have heq := Nat.cast_injective (mul_right_cancel₀ (ten_zpow_pos k).ne' h)
  have hpow : 10 ^ (g - k).toNat = 10 * 10 ^ ((g - k).toNat - 1) := by
    rw [← Nat.pow_succ']
    congr 1
    omega
  rw [heq, hpow, Nat.mul_left_comm] at hc
  exact hc (Nat.mul_mod_right 10 _)

theorem dropZeros_mod_ne_zero {limit c : Nat} (hc : c ≠ 0) (hlimit : c < 10 ^ limit) (k : Int) :
    (dropZeros limit c k).1 % 10 ≠ 0 := by
  induction limit generalizing c k with
  | zero =>
    rw [Nat.pow_zero] at hlimit
    omega
  | succ limit ih =>
    rw [Nat.pow_succ] at hlimit
    unfold dropZeros
    split
    · exact ih (by omega) (by omega) _
    · rename_i hmod
      exact hmod

/-- Stripping zeros does not change the number. -/
theorem magnitude_stripZeros (c : Nat) (e : Int) :
    magnitude (stripZeros c e).1 (stripZeros c e).2 = magnitude c e := by
  unfold stripZeros
  split
  · rename_i hc
    rw [hc, magnitude_zero, magnitude_zero]
  · exact magnitude_dropZeros _ _ _

/-- What is left ends with another digit, or is zero. -/
theorem stripZeros_cases (c : Nat) (e : Int) :
    (stripZeros c e).1 % 10 ≠ 0 ∨ stripZeros c e = (0, 0) := by
  unfold stripZeros
  split
  · exact Or.inr rfl
  · rename_i hc
    exact Or.inl (dropZeros_mod_ne_zero hc (lt_ten_pow_digitCount c) e)

/-! ## Plain forms -/

/-- **A text in plain notation** for a number and a sign. -/
def PlainForm (negative : Bool) (y : ℚ) (text : List Char) : Prop :=
  ∃ t : Json.NumberToken, text = t.chars ∧ t.negative = negative ∧ t.exponent = none ∧
    t.NoTrailingZero ∧ t.value = withSign negative y

theorem withSign_injective (negative : Bool) {x y : ℚ}
    (h : withSign negative x = withSign negative y) : x = y := by
  cases negative with
  | true => exact neg_injective h
  | false => exact h

section Token

variable {t u : Json.NumberToken}

/-- Without an exponent the last digit stands where the fraction ends. -/
theorem scale_of_no_exponent (ht : t.exponent = none) :
    t.scale = -(t.fractionDigits.length : Int) := by
  rw [Json.NumberToken.scale, ht, Option.elim_none, Int.zero_sub]

theorem tailChars_of_no_exponent (ht : t.exponent = none) :
    t.tailChars = if t.fractionDigits = [] then [] else '.' :: t.fractionDigits := by
  rw [Json.NumberToken.tailChars, Json.NumberToken.fractionDigits, ht, Option.elim_none,
    List.append_nil]
  cases t.fraction with
  | none => rfl
  | some ds =>
    rw [Option.elim_some, Option.elim_some, if_neg ds.ne_nil]

theorem isAsciiDigit_of_mem_fractionDigits {c : Char} (h : c ∈ t.fractionDigits) :
    isAsciiDigit c = true := by
  rw [Json.NumberToken.fractionDigits] at h
  cases hf : t.fraction with
  | none =>
    rw [hf] at h
    exact absurd h List.not_mem_nil
  | some ds =>
    rw [hf] at h
    exact ds.digit c h

/-- Without zeros at its end a fraction is as short as the number admits. -/
theorem length_fractionDigits_le (ht : t.exponent = none) (hu : u.exponent = none)
    (hzero : t.NoTrailingZero)
    (h : magnitude t.coefficient t.scale = magnitude u.coefficient u.scale) :
    t.fractionDigits.length ≤ u.fractionDigits.length := by
  cases hf : t.fraction with
  | none =>
    rw [Json.NumberToken.fractionDigits, hf]
    exact Nat.zero_le _
  | some ds =>
    have hmod := Json.NumberToken.noTrailingZero_iff.1 hzero (by rw [hf]; simp)
    have hle := le_of_mod_ne_zero hmod h
    rw [scale_of_no_exponent ht, scale_of_no_exponent hu] at hle
    omega

/-- Two such numbers that are equal have the same digits before the point and behind it. -/
theorem chars_eq_of_magnitude_eq (ht : t.exponent = none) (hu : u.exponent = none)
    (hsign : t.negative = u.negative) (hzero : t.NoTrailingZero) (hzero' : u.NoTrailingZero)
    (h : magnitude t.coefficient t.scale = magnitude u.coefficient u.scale) :
    t.chars = u.chars := by
  have hlength := Nat.le_antisymm (length_fractionDigits_le ht hu hzero h)
    (length_fractionDigits_le hu ht hzero' h.symm)
  have hcoefficient : t.coefficient = u.coefficient := by
    rw [scale_of_no_exponent ht, scale_of_no_exponent hu, hlength] at h
    exact Nat.cast_injective (mul_right_cancel₀ (ten_zpow_pos _).ne' h)
  rw [Json.NumberToken.coefficient, Json.NumberToken.coefficient, digitsValue_append,
    digitsValue_append, hlength] at hcoefficient
  have hless := digitsValue_lt fun c => isAsciiDigit_of_mem_fractionDigits (t := t) (c := c)
  have hless' := digitsValue_lt fun c => isAsciiDigit_of_mem_fractionDigits (t := u) (c := c)
  obtain ⟨hwhole, hfraction⟩ := eq_and_eq_of_mul_add (hlength ▸ hless) hless' hcoefficient
  have hbehind : t.fractionDigits = u.fractionDigits :=
    eq_of_digitsValue_eq (fun _ => isAsciiDigit_of_mem_fractionDigits)
      (fun _ => isAsciiDigit_of_mem_fractionDigits) hlength hfraction
  have hbefore : t.whole.chars = u.whole.chars := by
    rw [← decimalDigits_digitsValue t.whole.ne_nil t.whole.digit t.zero_alone, hwhole,
      decimalDigits_digitsValue u.whole.ne_nil u.whole.digit u.zero_alone]
  rw [Json.NumberToken.chars, Json.NumberToken.chars, hsign, hbefore, tailChars_of_no_exponent ht,
    tailChars_of_no_exponent hu, hbehind]

end Token

/-- **A number and a sign have one text in plain notation.** -/
theorem PlainForm.unique {negative : Bool} {y : ℚ} {text text' : List Char}
    (h : PlainForm negative y text) (h' : PlainForm negative y text') : text = text' := by
  obtain ⟨t, rfl, rfl, ht, hzero, hvalue⟩ := h
  obtain ⟨u, rfl, hsign, hu, hzero', hvalue'⟩ := h'
  rw [Json.NumberToken.value] at hvalue hvalue'
  rw [hsign] at hvalue'
  refine chars_eq_of_magnitude_eq ht hu hsign.symm hzero hzero' ?_
  rw [withSign_injective _ hvalue, withSign_injective _ hvalue']

theorem value_plainToken (negative : Bool) (c : Nat) (e : Int) :
    (plainToken negative c e).value = withSign negative (magnitude c e) := by
  obtain ⟨hnegative, -, hcoefficient, hscale⟩ := plainToken_spec negative c e
  rw [Json.NumberToken.value, hnegative, hcoefficient, hscale]
  by_cases he : 0 ≤ e
  · rw [min_eq_right he, magnitude_eq_of_le he, Int.sub_zero]
  · have hzero : e.toNat = 0 := by omega
    rw [min_eq_left (by omega), hzero, Nat.pow_zero, Nat.mul_one]

/-- **Stripped of zeros and laid out**, a number is in plain notation. -/
theorem plainForm_stripZeros (negative : Bool) (c : Nat) (e : Int) :
    PlainForm negative (magnitude c e)
      (signText negative ++ positional (stripZeros c e).1 (stripZeros c e).2) := by
  have hcases := stripZeros_cases c e
  rw [← magnitude_stripZeros c e, signText_append_positional]
  generalize stripZeros c e = s at hcases
  obtain ⟨c, e⟩ := s
  obtain ⟨hnegative, hexponent, hcoefficient, -⟩ := plainToken_spec negative c e
  refine ⟨_, rfl, hnegative, hexponent, Json.NumberToken.noTrailingZero_iff.2 ?_,
    value_plainToken negative c e⟩
  intro hfraction
  -- a fraction is there only if the exponent is negative, and then the zeros are off
  have he : e < 0 := by
    by_contra hge
    refine hfraction ?_
    rw [plainToken, Json.NumberToken.fraction_pointed, Json.Digits.behind?, dif_pos (by omega)]
  have hzero : e.toNat = 0 := by omega
  rw [hcoefficient, hzero, Nat.pow_zero, Nat.mul_one]
  rcases hcases with hmod | heq
  · exact hmod
  · obtain ⟨-, rfl⟩ := Prod.mk.inj heq
    exact absurd he (lt_irrefl 0)

/-- **A plain form is read back** as its number, with its sign. -/
theorem PlainForm.exists_read? {negative : Bool} {y : ℚ} {text : List Char}
    (h : PlainForm negative y text) (hy : Fits y) :
    ∃ c e, read? text = some (finite negative c e) ∧ magnitude c e = y := by
  obtain ⟨t, rfl, rfl, hexponent, hzero, hvalue⟩ := h
  obtain rfl := withSign_injective t.negative hvalue
  have hscale := scale_of_no_exponent hexponent
  have hlow : minQuantum ≤ t.scale := by
    by_cases hfraction : t.fraction = none
    · rw [hscale, Json.NumberToken.fractionDigits, hfraction]
      decide
    · obtain ⟨n, hn⟩ := hy.multiple
      exact le_of_mod_ne_zero (Json.NumberToken.noTrailingZero_iff.1 hzero hfraction) hn
  have hhigh : adjusted t.coefficient t.scale ≤ maxLead := by
    by_cases hcoefficient : t.coefficient = 0
    · have hcount : digitCount 0 = 1 := by decide
      have hrange : 0 ≤ maxLead := by decide
      rw [hcoefficient, adjusted, hcount, hscale]
      omega
    · have hlead := (ten_zpow_adjusted_le hcoefficient t.scale).trans_lt hy.range
      have hlt := lt_of_ten_zpow_lt hlead
      omega
  have hinRange : inRange t.coefficient t.scale = true := by
    have hmin : minExponent ≤ minQuantum := by decide
    have hmax : maxLead ≤ maxAdjusted := by decide
    rw [inRange, Bool.and_eq_true, decide_eq_true_eq, decide_eq_true_eq]
    omega
  refine ⟨t.coefficient, t.scale, ?_, rfl⟩
  rw [t.read?_chars, if_pos hinRange]

/-! ## What is reported -/

/-- **A finite decimal in plain notation**: there is none, or it is that of the rounded number. -/
theorem plainText_cases (negative : Bool) (c : Nat) (e : Int) :
    (finite negative c e).plainText = .error .overflow ∧ Overflows (magnitude c e) ∨
      ∃ text y, (finite negative c e).plainText = .ok text ∧ ¬ Overflows (magnitude c e) ∧
        RoundsOn resultGrid (magnitude c e) y ∧ PlainForm negative y text.toList := by
  rw [plainText, plain]
  rcases rounded_cases negative c e with ⟨hrounded, hover⟩ | ⟨c', e', hrounded, hround, hfits⟩
  · rw [hrounded]
    exact Or.inl ⟨rfl, hover⟩
  · have hplain := plainForm_stripZeros negative c' e'
    rw [hrounded]
    refine Or.inr ⟨_, _, rfl, hfits, hround, ?_⟩
    rwa [String.toList_ofList]

/-- **A number that fits is reported as it is.** -/
theorem plainText_of_fits {c : Nat} {e : Int} (h : Fits (magnitude c e)) (negative : Bool) :
    ∃ text, (finite negative c e).plainText = .ok text ∧
      PlainForm negative (magnitude c e) text.toList := by
  rcases plainText_cases negative c e with ⟨-, hover⟩ | ⟨text, y, htext, -, hround, hplain⟩
  · exact absurd hover h.not_overflows
  · obtain rfl := hround.unique h.roundsOn
    exact ⟨text, htext, hplain⟩

/-- **Plain notation is canonical.**  A finite decimal has no text exactly if it is too large when
rounded to 28 digits.  Otherwise its text is the one text in plain notation, with the decimal's
sign, of the decimal rounded on the grid of results; it is read back as the number that it says,
with this sign, and the decimal that was read has the same text again.

A decimal that fits the grid is read back as a decimal of the same number; and two such decimals
have the same text exactly if they are the same number with the same sign, which a zero has too. -/
theorem plainText_finite (negative : Bool) (c : Nat) (e : Int) :
    ((finite negative c e).plainText = .error .overflow ∧ Overflows (magnitude c e) ∨
      ∃ text y c' e', (finite negative c e).plainText = .ok text ∧ ¬ Overflows (magnitude c e) ∧
        RoundsOn resultGrid (magnitude c e) y ∧
        (∀ text' : String, PlainForm negative y text'.toList ↔ text' = text) ∧
        ofString? text = some (finite negative c' e') ∧ magnitude c' e' = y ∧
        (finite negative c' e').plainText = .ok text) ∧
    (Fits (magnitude c e) → ∃ text d, (finite negative c e).plainText = .ok text ∧
      ofString? text = some d ∧ d.value? = (finite negative c e).value?) ∧
    ∀ negative' c' e', Fits (magnitude c e) → Fits (magnitude c' e') →
      ((finite negative c e).plainText = (finite negative' c' e').plainText ↔
        (finite negative c e).value? = (finite negative' c' e').value? ∧ negative = negative') := by
  refine ⟨?_, fun hfits => ?_, fun negative' c' e' hfits hfits' => ?_⟩
  · refine (plainText_cases negative c e).imp_right ?_
    rintro ⟨text, y, htext, hover, hround, hplain⟩
    have hfits := fits_of_roundsOn hround hover
    obtain ⟨c', e', hread, rfl⟩ := hplain.exists_read? hfits
    obtain ⟨text', htext', hplain'⟩ := plainText_of_fits hfits negative
    obtain rfl : text' = text := String.toList_injective (hplain'.unique hplain)
    refine ⟨text', _, c', e', htext, hover, hround, fun text'' => ?_, hread, rfl, htext'⟩
    constructor
    · intro h
      exact String.toList_injective (h.unique hplain)
    · rintro rfl
      exact hplain
  · obtain ⟨text, htext, hplain⟩ := plainText_of_fits hfits negative
    obtain ⟨c', e', hread, hvalue⟩ := hplain.exists_read? hfits
    refine ⟨text, _, htext, hread, ?_⟩
    rw [value?, value?, hvalue]
  · obtain ⟨text, htext, hplain⟩ := plainText_of_fits hfits negative
    obtain ⟨text', htext', hplain'⟩ := plainText_of_fits hfits' negative'
    rw [htext, htext', Except.ok.injEq, value?, value?, Option.some.injEq]
    constructor
    · rintro rfl
      -- the text is read back as both of them
      obtain ⟨c₁, e₁, hread, hvalue⟩ := hplain.exists_read? hfits
      obtain ⟨c₂, e₂, hread', hvalue'⟩ := hplain'.exists_read? hfits'
      obtain ⟨hsign, rfl, rfl⟩ := finite.inj (Option.some.inj (hread.symm.trans hread'))
      exact ⟨by rw [← hvalue, ← hvalue', hsign], hsign⟩
    · rintro ⟨hvalue, rfl⟩
      rw [← withSign_injective negative hvalue] at hplain'
      exact String.toList_injective (hplain.unique hplain')

/-- A negative half has one text, however many digits it is given with; the two zeros have two. -/
theorem plainText_finite_halves :
    (finite true 50 (-2)).plainText = (finite true 5 (-1)).plainText ∧
      (finite true 0 3).plainText ≠ (finite false 0 3).plainText := by
  have hfits : ∀ c e, digitCount c ≤ precision ∧ minQuantum ≤ e ∧ adjusted c e ≤ maxLead →
      Fits (magnitude c e) := fun c e h => fits_of_digitCount_le h.1 h.2.1 h.2.2
  have hsame : magnitude 5 (-1) = magnitude 50 (-2) :=
    magnitude_eq_of_le (by decide : (-2 : Int) ≤ -1) 5
  obtain ⟨-, -, halves⟩ := plainText_finite true 50 (-2)
  obtain ⟨-, -, zeros⟩ := plainText_finite true 0 3
  refine ⟨(halves true 5 (-1) (hfits _ _ (by decide)) (hfits _ _ (by decide))).2 ⟨?_, rfl⟩, ?_⟩
  · rw [value?, value?, hsame]
  · intro h
    have hsign := (zeros false 0 3 (hfits _ _ (by decide)) (hfits _ _ (by decide))).1 h
    exact absurd hsign.2 (by decide)

end Decimal

end PaperVenue
