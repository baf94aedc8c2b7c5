import PaperVenue.Decimal.Arithmetic
import PaperVenue.Proofs.Decimal.Quotient

/-!
# Rounded sums

The exponents of two operands may lie so far apart that their sum cannot be written out.
`Decimal.addAligned` does not write it out: an operand that lies wholly below the last place that
rounding can look at is replaced by one unit two places behind it.  The sum is another number then,
but it stands between the same two neighbours of a grid of 29 digits or more, and so it is rounded
alike (`RoundsOn.of_between`).

So a sum is what it should be, the exact sum rounded once.  `add_cases` says so of numbers that are
not negative, and `add_comm_of_isFinite` that the order of the operands makes no difference, not even
to the exponent of the sum.

If both operands are multiples of the last place of all, so is their sum, and it is rounded to 28
digits wherever it stands: the finest grid does not cut off anything
(`roundsOn_digitGrid_of_multiple`).
-/

namespace PaperVenue

namespace Decimal

/-! ## Multiples of the last place -/

/-- Multiples of one power of ten are added by their numbers. -/
theorem magnitude_add (m n : Nat) (k : Int) :
    magnitude m k + magnitude n k = magnitude (m + n) k := by
  rw [magnitude, magnitude, magnitude, Nat.cast_add, add_mul]

/-- A multiple of the last place of all is rounded to 28 digits. -/
theorem roundsOn_digitGrid_of_multiple {n : Nat} {y : ℚ}
    (h : RoundsOn resultGrid (magnitude n minQuantum) y) :
    RoundsOn digitGrid (magnitude n minQuantum) y := by
  rcases h with hzero | ⟨l, hlead, hy⟩
  · exact Or.inl hzero
  · refine Or.inr ⟨l, hlead, ?_⟩
    by_cases hfine : minQuantum ≤ digitGrid l
    · rwa [resultGrid, max_eq_left hfine] at hy
    · -- on the finest grid the number is a multiple already
      rw [resultGrid, max_eq_right (by omega)] at hy
      rw [hy.unique (nearestEven_self le_rfl n)]
      exact nearestEven_self (by omega) n

/-- What is larger than a number that overflows overflows too. -/
theorem overflows_mono {x x' y y' : ℚ} (h : RoundsOn resultGrid x y)
    (h' : RoundsOn resultGrid x' y') (hx : x ≤ x') (hover : Overflows x) : Overflows x' := by
  rw [overflows_iff h] at hover
  rw [overflows_iff h']
  exact hover.trans (roundsOn_resultGrid_mono h h' hx)

/-- A number of up to 28 digits is not changed by rounding to 28 digits. -/
theorem roundsOn_digitGrid_self {a : Nat} (ha : a < 10 ^ precision) (j : Int) :
    RoundsOn digitGrid (magnitude a j) (magnitude a j) := by
  by_cases hzero : a = 0
  · rw [hzero, magnitude_zero]
    exact roundsOn_zero_iff.2 rfl
  · have hcount : digitCount a ≤ precision := (digitCount_le_iff (by decide)).2 ha
    rw [roundsOn_iff hzero]
    refine nearestEven_self ?_ a
    unfold digitGrid adjusted
    omega

/-! ## Operands far apart -/

section Aligned

variable {na nb : Bool} {ca cb : Nat} {ea eb : Int}

/-- A number with a sign that does not make it negative. -/
theorem signed_eq_of_nonneg {negative : Bool} {c : Nat} {e : Int}
    (h : 0 ≤ withSign negative (magnitude c e)) : signed negative c = c := by
  cases negative with
  | false => rfl
  | true =>
    have hzero : c = 0 := by
      by_contra hc
      exact absurd h (not_le.2 (neg_lt_zero.2 (magnitude_pos hc e)))
    rw [hzero]
    rfl

/-- A digit added far behind the last one leads to a number between the neighbours in front of it,
and so does every other number that lies wholly behind that place. -/
theorem between_add (q : Nat) {k : Int} {x : ℚ} (hpos : 0 < x) (hx : x < (10 : ℚ) ^ k) :
    magnitude q k < magnitude q k + x ∧ magnitude q k + x < magnitude (q + 1) k := by
  rw [magnitude_succ]
  exact ⟨lt_add_of_pos_right _ hpos, add_lt_add_right hx _⟩

/-- **An operand that lies far below the other** may be replaced by one unit. -/
theorem roundsOn_of_below (ha : ca ≠ 0) (hb : cb ≠ 0) {floor : Int}
    (hfloor : floor = ea - 1 + min 0 ((digitCount ca : Int) - precision - 1))
    (hbelow : adjusted cb eb < floor) {y : ℚ}
    (hy : RoundsOn resultGrid (magnitude (ca * 10 ^ (ea - floor).toNat + 1) floor) y) :
    RoundsOn resultGrid (magnitude ca ea + magnitude cb eb) y := by
  have hcount := digitCount_pos ca
  have hle : floor + 1 ≤ ea := by omega
  -- in front of the unit there are still 29 digits or more
  have hlong : 10 ^ precision ≤ ca * 10 ^ (ea - (floor + 1)).toNat := by
    have hdigits : 10 ^ (digitCount ca - 1) ≤ ca := ten_pow_le_of_lt_digitCount ha (by omega)
    calc 10 ^ precision
        ≤ 10 ^ (digitCount ca - 1 + (ea - (floor + 1)).toNat) :=
          Nat.pow_le_pow_right (by decide) (by omega)
      _ = 10 ^ (digitCount ca - 1) * 10 ^ (ea - (floor + 1)).toNat := Nat.pow_add _ _ _
      _ ≤ ca * 10 ^ (ea - (floor + 1)).toNat := Nat.mul_le_mul_right _ hdigits
  have hunit : magnitude (ca * 10 ^ (ea - floor).toNat + 1) floor =
      magnitude ca ea + (10 : ℚ) ^ floor := by
    rw [magnitude_succ, ← magnitude_eq_of_le (by omega)]
  have hsmall : magnitude cb eb < (10 : ℚ) ^ (floor + 1) :=
    (magnitude_lt_ten_zpow cb eb).trans_le (ten_zpow_le (by omega))
  have hstep : (10 : ℚ) ^ floor < (10 : ℚ) ^ (floor + 1) :=
    zpow_lt_zpow_right₀ (by norm_num) (by omega)
  rw [hunit] at hy
  rw [magnitude_eq_of_le hle ca] at hy ⊢
  exact hy.of_between hlong (between_add _ (ten_zpow_pos floor) hstep)
    (between_add _ (magnitude_pos hb eb) hsmall)

/-- The operand with the smaller exponent as a sum looks at it: as it is, or as one unit if it lies
far below the other. -/
def lowered (ca : Nat) (ea : Int) (cb : Nat) (eb : Int) : Nat × Int :=
  if ca = 0 then (cb, eb)
  else
    let floor := ea - 1 + min 0 ((digitCount ca : Int) - precision - 1)
    if adjusted cb eb < floor then (if cb = 0 then 0 else 1, floor) else (cb, eb)

/-- The operand with the larger exponent, in units of a smaller one. -/
def raised (ca : Nat) (ea e : Int) : Nat := if ca = 0 then 0 else ca * 10 ^ (ea - e).toNat

theorem addAligned_eq (na : Bool) (ca : Nat) (ea : Int) (nb : Bool) (cb : Nat) (eb : Int) :
    addAligned na ca ea nb cb eb =
      let total := signed na (raised ca ea (lowered ca ea cb eb).2) +
        signed nb (lowered ca ea cb eb).1
      rounded (if total = 0 then na && nb else total < 0) total.natAbs (lowered ca ea cb eb).2 := rfl

/-- **What is computed is rounded as the sum is.** -/
theorem roundsOn_of_lowered (hexp : eb ≤ ea) {y : ℚ}
    (hy : RoundsOn resultGrid (magnitude (raised ca ea (lowered ca ea cb eb).2 +
      (lowered ca ea cb eb).1) (lowered ca ea cb eb).2) y) :
    RoundsOn resultGrid (magnitude ca ea + magnitude cb eb) y := by
  unfold raised lowered at hy
  by_cases ha : ca = 0
  · subst ha
    rw [if_pos rfl, if_pos rfl, Nat.zero_add] at hy
    rwa [magnitude_zero, zero_add]
  · rw [if_neg ha, if_neg ha] at hy
    dsimp only at hy
    split at hy
    · rename_i hbelow
      by_cases hb : cb = 0
      · rw [if_pos hb, Nat.add_zero, ← magnitude_eq_of_le (by omega)] at hy
        rwa [hb, magnitude_zero, add_zero]
      · rw [if_neg hb] at hy
        exact roundsOn_of_below ha hb rfl hbelow hy
    · rwa [magnitude_eq_of_le hexp, magnitude_add]

theorem withSign_eq_of_signed {negative : Bool} {c : Nat} (h : signed negative c = c) (e : Int) :
    withSign negative (magnitude c e) = magnitude c e := by
  cases negative with
  | false => rfl
  | true =>
    have hneg : -(c : Int) = c := h
    have hzero : c = 0 := by omega
    rw [hzero, magnitude_zero, withSign, neg_zero, ite_self]

/-- A sign that does not count in front of a number does not count in front of another one either,
if that is zero where the first one is. -/
theorem signed_eq_of_imp {negative : Bool} {c c' : Nat} (h : signed negative c = c)
    (hc : c = 0 → c' = 0) : signed negative c' = c' := by
  cases negative with
  | false => rfl
  | true =>
    have hneg : -(c : Int) = c := h
    rw [hc (by omega)]
    rfl

/-- **A sum of numbers that are not negative**, the first with the larger exponent: it overflows, or
it is the exact sum rounded. -/
theorem addAligned_cases (hexp : eb ≤ ea) (ha : signed na ca = ca) (hb : signed nb cb = cb) :
    addAligned na ca ea nb cb eb = .error .overflow ∧
        Overflows (magnitude ca ea + magnitude cb eb) ∨
      ∃ d z, addAligned na ca ea nb cb eb = .ok d ∧ d.value? = some z ∧
        RoundsOn resultGrid (magnitude ca ea + magnitude cb eb) z ∧
        ¬ Overflows (magnitude ca ea + magnitude cb eb) := by
  have hraised : signed na (raised ca ea (lowered ca ea cb eb).2) =
      raised ca ea (lowered ca ea cb eb).2 :=
    signed_eq_of_imp ha fun hzero => if_pos hzero
  have hlowered : signed nb (lowered ca ea cb eb).1 = (lowered ca ea cb eb).1 := by
    refine signed_eq_of_imp hb ?_
    rintro rfl
    unfold lowered
    dsimp only
    split
    · rfl
    · split <;> rfl
  have hround := fun y => @roundsOn_of_lowered ca cb ea eb hexp y
  rw [addAligned_eq, hraised, hlowered]
  dsimp only
  rw [← Int.natCast_add, Int.natAbs_natCast]
  generalize raised ca ea (lowered ca ea cb eb).2 + (lowered ca ea cb eb).1 = c at *
  generalize (lowered ca ea cb eb).2 = e at *
  obtain ⟨y, hy⟩ := exists_roundsOn resultGrid c e
  have hover : Overflows (magnitude c e) ↔ Overflows (magnitude ca ea + magnitude cb eb) :=
    (overflows_iff hy).trans (overflows_iff (hround y hy)).symm
  rw [← hover]
  refine (rounded_cases _ c e).imp_right ?_
  rintro ⟨c', e', hok, hc', hfits⟩
  refine ⟨_, _, hok, rfl, ?_, hfits⟩
  by_cases hc : c = 0
  · have hzero : magnitude c' e' = 0 := by
      rw [hc, magnitude_zero, roundsOn_zero_iff] at hc'
      exact hc'
    rw [hzero] at hc' ⊢
    rw [withSign, neg_zero, ite_self]
    exact hround 0 hc'
  · have hsign : ¬ (c : Int) < 0 := by omega
    rw [if_neg (by exact_mod_cast hc), decide_eq_false hsign]
    exact hround _ hc'

/-! ## Sums -/

/-- Operands with the same exponent are added as they are. -/
theorem addAligned_self (na : Bool) (ca : Nat) (nb : Bool) (cb : Nat) (e : Int) :
    addAligned na ca e nb cb e =
      rounded (if signed na ca + signed nb cb = 0 then na && nb
        else signed na ca + signed nb cb < 0) (signed na ca + signed nb cb).natAbs e := by
  have hcount := digitCount_pos cb
  have hlowered : lowered ca e cb e = (cb, e) := by
    unfold lowered
    by_cases ha : ca = 0
    · rw [if_pos ha]
    · rw [if_neg ha]
      refine if_neg ?_
      unfold adjusted
      omega
  have hraised : raised ca e e = ca := by
    unfold raised
    split
    · rename_i ha
      exact ha.symm
    · rw [Int.sub_self, Int.toNat_zero, Nat.pow_zero, Nat.mul_one]
  rw [addAligned_eq, hlowered, hraised]

/-- The order of the operands does not matter. -/
theorem addAligned_self_comm (na : Bool) (ca : Nat) (nb : Bool) (cb : Nat) (e : Int) :
    addAligned na ca e nb cb e = addAligned nb cb e na ca e := by
  rw [addAligned_self, addAligned_self, Int.add_comm, Bool.and_comm]

end Aligned

theorem add_finite (na : Bool) (ca : Nat) (ea : Int) (nb : Bool) (cb : Nat) (eb : Int) :
    (finite na ca ea).add (finite nb cb eb) =
      if eb ≤ ea then addAligned na ca ea nb cb eb else addAligned nb cb eb na ca ea := rfl

/-- **Finite decimals commute**, whatever their signs and exponents. -/
theorem add_comm_of_isFinite {a b : Decimal} (ha : a.isFinite) (hb : b.isFinite) :
    a.add b = b.add a := by
  cases a with
  | finite na ca ea =>
    cases b with
    | finite nb cb eb =>
      rw [add_finite, add_finite]
      rcases lt_trichotomy ea eb with hlt | rfl | hlt
      · rw [if_neg (by omega), if_pos hlt.le]
      · rw [if_pos le_rfl, if_pos le_rfl, addAligned_self_comm]
      · rw [if_pos hlt.le, if_neg (by omega)]
    | _ => exact Bool.noConfusion hb
  | _ => exact Bool.noConfusion ha

/-- **A sum of numbers that are not negative**: it overflows, or it is the exact sum rounded. -/
theorem add_cases {a b : Decimal} {x y : ℚ} (ha : a.value? = some x) (hx : 0 ≤ x)
    (hb : b.value? = some y) (hy : 0 ≤ y) :
    a.add b = .error .overflow ∧ Overflows (x + y) ∨
      ∃ d z, a.add b = .ok d ∧ d.value? = some z ∧ RoundsOn resultGrid (x + y) z ∧
        ¬ Overflows (x + y) := by
  cases a with
  | finite na ca ea =>
    cases b with
    | finite nb cb eb =>
      obtain rfl := Option.some.inj ha
      obtain rfl := Option.some.inj hb
      have hna := signed_eq_of_nonneg hx
      have hnb := signed_eq_of_nonneg hy
      rw [withSign_eq_of_signed hna, withSign_eq_of_signed hnb, add_finite]
      split
      · rename_i hexp
        exact addAligned_cases hexp hna hnb
      · rename_i hexp
        rw [add_comm (magnitude ca ea)]
        exact addAligned_cases (by omega) hnb hna
    | _ => cases hb
  | _ => cases ha

end Decimal

end PaperVenue
