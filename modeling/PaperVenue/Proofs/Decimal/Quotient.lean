import PaperVenue.Decimal.Arithmetic
import PaperVenue.Proofs.Decimal.Rounded
import PaperVenue.Proofs.Decimal.Sign

/-!
# Rounded quotients

A quotient of decimals has no last digit in general, so it cannot be computed first and rounded
then.  `Decimal.quotient` stops at 29 digits or more, and puts a 1 behind them if anything is left
over.  That is another number than the quotient, but one that is rounded alike: both stand between
the same two neighbours of a grid that is finer than the one they are rounded on
(`RoundsOn.of_between`), so neither a multiple of the coarser grid nor the middle of two of them
comes between.

So a quotient is what it should be, the exact quotient rounded once: `div_cases`.
-/

namespace PaperVenue

namespace Decimal

/-! ## Between two neighbours -/

/-- A number between two neighbours has its leading digit where the lower one has it. -/
theorem hasLead_of_between {q : Nat} (hq : q ≠ 0) {k : Int} {x : ℚ}
    (hx : magnitude q k < x ∧ x < magnitude (q + 1) k) : HasLead x (adjusted q k) := by
  refine ⟨(ten_zpow_adjusted_le hq k).trans hx.1.le, hx.2.trans_le ?_⟩
  have hnext : magnitude (q + 1) k ≤ magnitude (10 ^ digitCount q) k :=
    magnitude_le (lt_ten_pow_digitCount q) k
  have hexp : k + digitCount q = adjusted q k + 1 := by
    unfold adjusted
    omega
  rwa [magnitude_ten_pow, hexp] at hnext

/-- **Two numbers between the same neighbours are rounded alike**, if the neighbours have a digit
more than a result. -/
theorem RoundsOn.of_between {q : Nat} (hq : 10 ^ precision ≤ q) {k : Int} {x x' y : ℚ}
    (hx : magnitude q k < x ∧ x < magnitude (q + 1) k)
    (hx' : magnitude q k < x' ∧ x' < magnitude (q + 1) k) (h : RoundsOn resultGrid x y) :
    RoundsOn resultGrid x' y := by
  have hpos : 0 < 10 ^ precision := Nat.pow_pos (by decide)
  have hzero : q ≠ 0 := by omega
  have hlead := hasLead_of_between hzero hx
  have hlong : precision < digitCount q := by
    refine Nat.lt_of_not_le fun hle => ?_
    have hlt := (digitCount_le_iff (by decide)).1 hle
    omega
  have hgrid : k < resultGrid (adjusted q k) := by
    unfold resultGrid digitGrid adjusted
    omega
  rcases h with ⟨rfl, -⟩ | ⟨l, hl, hy⟩
  · exact absurd hlead.pos (lt_irrefl 0)
  · obtain rfl := hl.unique hlead
    exact Or.inr ⟨_, hasLead_of_between hzero hx', hy.of_between hgrid hx hx'⟩

/-! ## The digits of a quotient -/

section Digits

variable {ca cb : Nat} {ea eb : Int}

/-- Shifting the operands to natural numbers moves the quotient by as many places. -/
theorem magnitude_div_magnitude (ca cb : Nat) (ea eb shift : Int) :
    magnitude ca ea / magnitude cb eb =
      ((ca * 10 ^ shift.toNat : Nat) : ℚ) / ((cb * 10 ^ (-shift).toNat : Nat) : ℚ) *
        (10 : ℚ) ^ (ea - eb - shift) := by
  have h10 : (10 : ℚ) ≠ 0 := by norm_num
  have hshift := zpow_eq_toNat_div (b := 10) (by decide) shift
  rw [Nat.cast_ofNat] at hshift
  have hsplit : ((ca * 10 ^ shift.toNat : Nat) : ℚ) / ((cb * 10 ^ (-shift).toNat : Nat) : ℚ) =
      (ca : ℚ) / cb * (10 : ℚ) ^ shift := by
    rw [hshift, Nat.cast_mul, Nat.cast_mul, mul_div_mul_comm]
  rw [hsplit, magnitude, magnitude, mul_div_mul_comm, mul_assoc, ← zpow_add₀ h10, ← zpow_sub₀ h10]
  congr 2
  omega

/-- Operands that are shifted far enough apart have a quotient with more digits than a result. -/
theorem ten_pow_precision_le_div (ha : ca ≠ 0) (hb : cb ≠ 0) {shift : Int}
    (hshift : shift = (digitCount cb : Int) - digitCount ca + precision + 1) :
    10 ^ precision ≤ ca * 10 ^ shift.toNat / (cb * 10 ^ (-shift).toNat) := by
  have hposa := digitCount_pos ca
  have hlow : 10 ^ (digitCount ca - 1) ≤ ca := ten_pow_le_of_lt_digitCount ha (by omega)
  have hhigh : cb ≤ 10 ^ digitCount cb := (lt_ten_pow_digitCount cb).le
  have hexp : precision + (digitCount cb + (-shift).toNat) = digitCount ca - 1 + shift.toNat := by
    omega
  rw [Nat.le_div_iff_mul_le (Nat.mul_pos (Nat.pos_of_ne_zero hb) (Nat.pow_pos (by decide)))]
  calc 10 ^ precision * (cb * 10 ^ (-shift).toNat)
      ≤ 10 ^ precision * (10 ^ digitCount cb * 10 ^ (-shift).toNat) :=
        Nat.mul_le_mul_left _ (Nat.mul_le_mul_right _ hhigh)
    _ = 10 ^ (digitCount ca - 1) * 10 ^ shift.toNat := by
        rw [← Nat.pow_add, ← Nat.pow_add, ← Nat.pow_add, hexp]
    _ ≤ ca * 10 ^ shift.toNat := Nat.mul_le_mul_right _ hlow

/-- A digit behind the last one leads to a number between the neighbours there. -/
theorem between_append_one (q : Nat) (k : Int) :
    magnitude q k < magnitude (10 * q + 1) (k - 1) ∧
      magnitude (10 * q + 1) (k - 1) < magnitude (q + 1) k := by
  have hexp : (k - (k - 1)).toNat = 1 := by omega
  have hpos := ten_zpow_pos (k - 1)
  have hfiner : ∀ n : Nat, magnitude n k = ((n * 10 : Nat) : ℚ) * (10 : ℚ) ^ (k - 1) := by
    intro n
    rw [magnitude_eq_of_le (by omega : k - 1 ≤ k), hexp, Nat.pow_one, magnitude]
  rw [hfiner, hfiner, magnitude]
  refine ⟨mul_lt_mul_of_pos_right ?_ hpos, mul_lt_mul_of_pos_right ?_ hpos⟩
  · exact Nat.cast_lt.2 (by omega)
  · exact Nat.cast_lt.2 (by omega)

/-- **What is computed is rounded as the quotient is.** -/
theorem quotient_spec (ha : ca ≠ 0) (hb : cb ≠ 0) (ea eb : Int) :
    (quotient ca ea cb eb).1 ≠ 0 ∧
      ∀ y, RoundsOn resultGrid
          (magnitude (quotient ca ea cb eb).1 (quotient ca ea cb eb).2) y →
        RoundsOn resultGrid (magnitude ca ea / magnitude cb eb) y := by
  unfold quotient
  dsimp only
  generalize hshift : (digitCount cb : Int) - digitCount ca + precision + 1 = shift
  have hlong := ten_pow_precision_le_div ha hb hshift.symm
  have hexact := magnitude_div_magnitude ca cb ea eb shift
  have hpos : 0 < cb * 10 ^ (-shift).toNat :=
    Nat.mul_pos (Nat.pos_of_ne_zero hb) (Nat.pow_pos (by decide))
  generalize ca * 10 ^ shift.toNat = n at *
  generalize cb * 10 ^ (-shift).toNat = d at *
  generalize ea - eb - shift = k at *
  have hzero : n / d ≠ 0 := by
    have hone : 0 < 10 ^ precision := Nat.pow_pos (by decide)
    omega
  split
  · rename_i hmod
    have hsame := magnitude_dropZeros shift.toNat (n / d) k
    have hvalue : magnitude ca ea / magnitude cb eb = magnitude (n / d) k := by
      have hwhole : (n : ℚ) / d = ((n / d : Nat) : ℚ) := by
        rw [div_eq_iff (Nat.cast_ne_zero.2 hpos.ne'), ← Nat.cast_mul,
          Nat.div_mul_cancel (Nat.dvd_of_mod_eq_zero hmod)]
      rw [hexact, hwhole, magnitude]
    constructor
    · intro hdropped
      rw [hdropped, magnitude_zero] at hsame
      exact (magnitude_pos hzero k).ne hsame
    · intro y hy
      rwa [hsame, ← hvalue] at hy
  · rename_i hmod
    refine ⟨Nat.succ_ne_zero _, fun y hy => hy.of_between hlong (between_append_one _ _) ?_⟩
    obtain ⟨hlow, hhigh⟩ := cast_div_le_and_lt n hpos
    have hneq : ((n / d : Nat) : ℚ) ≠ (n : ℚ) / d := by
      intro heq
      rw [eq_div_iff (Nat.cast_ne_zero.2 hpos.ne'), ← Nat.cast_mul, Nat.cast_inj] at heq
      exact hmod (Nat.mod_eq_zero_of_dvd ⟨_, by rw [Nat.mul_comm]; exact heq.symm⟩)
    rw [hexact]
    exact ⟨mul_lt_mul_of_pos_right (lt_of_le_of_ne hlow hneq) (ten_zpow_pos k),
      mul_lt_mul_of_pos_right hhigh (ten_zpow_pos k)⟩

/-! ## Quotients -/

/-- **A quotient of finite numbers**, neither of them zero: it overflows, or it is the exact
quotient rounded, with the sign that the two signs give. -/
theorem div_cases (ha : ca ≠ 0) (hb : cb ≠ 0) (na nb : Bool) :
    (finite na ca ea).div (finite nb cb eb) = .error .overflow ∧
        Overflows (magnitude ca ea / magnitude cb eb) ∨
      ∃ c e, (finite na ca ea).div (finite nb cb eb) = .ok (finite (na != nb) c e) ∧
        RoundsOn resultGrid (magnitude ca ea / magnitude cb eb) (magnitude c e) ∧
        ¬ Overflows (magnitude ca ea / magnitude cb eb) := by
  have hdiv : (finite na ca ea).div (finite nb cb eb) =
      rounded (na != nb) (quotient ca ea cb eb).1 (quotient ca ea cb eb).2 := by
    rw [div]
    exact (if_neg hb).trans (if_neg ha)
  obtain ⟨hzero, hround⟩ := quotient_spec ha hb ea eb
  obtain ⟨y, hy⟩ := exists_roundsOn resultGrid (quotient ca ea cb eb).1 (quotient ca ea cb eb).2
  have hover : Overflows (magnitude (quotient ca ea cb eb).1 (quotient ca ea cb eb).2) ↔
      Overflows (magnitude ca ea / magnitude cb eb) :=
    (overflows_iff hy).trans (overflows_iff (hround y hy)).symm
  rw [hdiv, ← hover]
  refine (rounded_cases (na != nb) _ _).imp_right ?_
  rintro ⟨c, e, hok, hc, hfits⟩
  exact ⟨c, e, hok, hround _ hc, hfits⟩

end Digits

/-- **A quotient of positive numbers** depends on the numbers alone, not on how they are written. -/
theorem div_cases_of_value {a b : Decimal} {x y : ℚ} (ha : a.value? = some x) (hx : 0 < x)
    (hb : b.value? = some y) (hy : 0 < y) :
    a.div b = .error .overflow ∧ Overflows (x / y) ∨
      ∃ c e, a.div b = .ok (finite false c e) ∧ RoundsOn resultGrid (x / y) (magnitude c e) ∧
        ¬ Overflows (x / y) := by
  obtain ⟨ca, ea, rfl, hca, rfl⟩ := exists_finite_of_value? ha hx
  obtain ⟨cb, eb, rfl, hcb, rfl⟩ := exists_finite_of_value? hb hy
  exact div_cases hca hcb false false

/-- A rounded result can be written. -/
theorem reportable_of_roundsOn {x : ℚ} {c : Nat} {e : Int}
    (h : RoundsOn resultGrid x (magnitude c e)) (hx : ¬ Overflows x) (negative : Bool) :
    (finite negative c e).Reportable :=
  mt (tooLarge_iff_overflows c e).1 (fits_of_roundsOn h hx).not_overflows

/-- A quotient of positive numbers can be written. -/
theorem reportable_of_div {a b d : Decimal} {x y : ℚ} (ha : a.value? = some x) (hx : 0 < x)
    (hb : b.value? = some y) (hy : 0 < y) (hd : a.div b = .ok d) : d.Reportable := by
  rcases div_cases_of_value ha hx hb hy with ⟨hover, -⟩ | ⟨c, e, hok, hround, hover⟩
  · cases hover.symm.trans hd
  · obtain rfl := Except.ok.inj (hok.symm.trans hd)
    exact reportable_of_roundsOn hround hover false

/-- Positive decimals of which one is infinite have no quotient that is finite and positive. -/
theorem not_isPositive_div_of_infinite {a b d : Decimal} (ha : a.IsPositive) (hb : b.IsPositive)
    (hinfinite : a.isFinite = false ∨ b.isFinite = false) (hd : a.div b = .ok d) :
    ¬ (d.isFinite ∧ d.IsPositive) := by
  cases a with
  | nan => exact ha.elim
  | infinity na =>
    cases b with
    | nan => exact hb.elim
    | infinity nb => cases hd
    | finite nb cb eb =>
      cases hd
      exact fun h => Bool.noConfusion h.1
  | finite na ca ea =>
    cases b with
    | nan => exact hb.elim
    | infinity nb =>
      cases hd
      exact fun h => h.2.2 rfl
    | finite nb cb eb => exact (hinfinite.elim Bool.noConfusion Bool.noConfusion)

/-- **When positive decimals have a quotient that is finite and positive**: both are finite, and the
exact quotient neither overflows nor is so small that it is rounded to zero. -/
theorem exists_div_isPositive_iff {a b : Decimal} (ha : a.IsPositive) (hb : b.IsPositive) :
    (∃ d, a.div b = .ok d ∧ d.isFinite ∧ d.IsPositive) ↔
      ∃ x y, a.value? = some x ∧ b.value? = some y ∧ ¬ Overflows (x / y) ∧
        (10 : ℚ) ^ minQuantum < 2 * (x / y) := by
  by_cases hfinite : a.isFinite ∧ b.isFinite
  · obtain ⟨x, hx, hxpos⟩ := exists_value?_of_isPositive ha hfinite.1
    obtain ⟨y, hy, hypos⟩ := exists_value?_of_isPositive hb hfinite.2
    have hquotient : 0 ≤ x / y := (div_pos hxpos hypos).le
    constructor
    · rintro ⟨d, hd, -, hpositive⟩
      rcases div_cases_of_value hx hxpos hy hypos with ⟨hover, -⟩ | ⟨c, e, hok, hround, hover⟩
      · cases hover.symm.trans hd
      · obtain rfl := Except.ok.inj (hok.symm.trans hd)
        have hne : magnitude c e ≠ 0 := (magnitude_pos hpositive.2 e).ne'
        rw [Ne, roundsOn_resultGrid_zero_iff hquotient hround, not_le] at hne
        exact ⟨x, y, hx, hy, hover, hne⟩
    · rintro ⟨x', y', hx', hy', hover, hlarge⟩
      obtain rfl := Option.some.inj (hx.symm.trans hx')
      obtain rfl := Option.some.inj (hy.symm.trans hy')
      rcases div_cases_of_value hx hxpos hy hypos with ⟨-, hover'⟩ | ⟨c, e, hok, hround, -⟩
      · exact absurd hover' hover
      · refine ⟨_, hok, rfl, rfl, ?_⟩
        rintro rfl
        have hzero := (roundsOn_resultGrid_zero_iff hquotient hround).1 (magnitude_zero e)
        exact absurd hzero (not_le.2 hlarge)
  · refine iff_of_false ?_ ?_
    · have hinfinite : a.isFinite = false ∨ b.isFinite = false := by
        rwa [not_and_or, Bool.not_eq_true, Bool.not_eq_true] at hfinite
      rintro ⟨d, hd, hsane⟩
      exact not_isPositive_div_of_infinite ha hb hinfinite hd hsane
    · rintro ⟨x, y, hx, hy, -⟩
      exact hfinite ⟨isFinite_of_value? hx, isFinite_of_value? hy⟩

end Decimal

end PaperVenue
