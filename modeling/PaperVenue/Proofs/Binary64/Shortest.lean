import PaperVenue.Proofs.Binary64.Nearest
import Mathlib.Tactic.Ring

/-!
# The decimal of a double reads back

A double is written with the fewest digits that are read back as the same double.  The search for
them goes over grids of 1, 2, … 17 digits.  `exists_onGrid?` says that no grid is missed: if any
number of a grid reads back, then one of the two neighbours of the double does.  `exists_seventeen`
says that the last grid always has one, so the search never comes back empty.

Two results follow.  `nearest_eq_of_value` is the round trip: any literal for the number that a
double is written as is read as this double.  So the numbers that come out as they went in are those
that some double is written as, `Shown`, and no others: `shown_iff`.

How many digits such a number has is bounded from both sides.  At most 17 (`Shown.digits`), and up
to 15 always suffice, if the number is no smaller than `10^-307` (`shown_of_short`): two numbers of
15 digits are so far apart that no double has both in the interval that reads back.
-/

namespace PaperVenue

namespace Binary64

open Decimal (magnitude adjusted withSign)

variable {m q : Nat} {e k : Int}

/-! ## The interval, as it is computed -/

/-- A decimal and a binary number with a common denominator. -/
theorem exists_common_denominator (q : Nat) (k b : Int) :
    ∃ D : ℚ, 0 < D ∧ magnitude q k * D = ((q * 10 ^ k.toNat * 2 ^ (-b).toNat : Nat) : ℚ) ∧
      ∀ a : Nat, (a : ℚ) * (2 : ℚ) ^ b * D = ((a * (10 ^ (-k).toNat * 2 ^ b.toNat) : Nat) : ℚ) := by
  have h10 := zpow_eq_toNat_div (b := 10) (by decide) k
  have h2 := zpow_eq_toNat_div (b := 2) (by decide) b
  rw [Nat.cast_ofNat] at h10 h2
  have hpos10 : (0 : ℚ) < ((10 ^ (-k).toNat : Nat) : ℚ) := Nat.cast_pos.2 (Nat.pow_pos (by decide))
  have hpos2 : (0 : ℚ) < ((2 ^ (-b).toNat : Nat) : ℚ) := Nat.cast_pos.2 (Nat.pow_pos (by decide))
  rw [eq_div_iff hpos10.ne'] at h10
  rw [eq_div_iff hpos2.ne'] at h2
  refine ⟨((10 ^ (-k).toNat : Nat) : ℚ) * ((2 ^ (-b).toNat : Nat) : ℚ), mul_pos hpos10 hpos2, ?_,
    fun a => ?_⟩
  · rw [Nat.cast_mul, Nat.cast_mul, ← h10, magnitude]
    ring
  · rw [Nat.cast_mul, Nat.cast_mul, ← h2]
    ring

/-- The two ends are kept in quarters of a step. -/
theorem readBack_spec (e : Int) (hm : m ≠ 0) :
    ((readBack m e).1 : ℚ) = 4 * lowEnd m e ∧ ((readBack m e).2 : ℚ) = 4 * ((m : ℚ) + 1 / 2) := by
  have hone : 1 ≤ 4 * m := by omega
  have htwo : 2 ≤ 4 * m := by omega
  constructor
  · rw [readBack, lowEnd]
    split
    · rw [Nat.cast_sub hone, Nat.cast_mul, Nat.cast_ofNat, Nat.cast_one]
      ring
    · rw [Nat.cast_sub htwo, Nat.cast_mul, Nat.cast_ofNat, Nat.cast_ofNat]
      ring
  · rw [readBack, Nat.cast_add, Nat.cast_mul, Nat.cast_ofNat, Nat.cast_ofNat]
    ring

/-- The computed interval is the one that reads back. -/
theorem readsBack_eq_true_iff (hm : m ≠ 0) :
    readsBack m e q k = true ↔ ReadsBack m e (magnitude q k) := by
  obtain ⟨D, hD, hx, hend⟩ := exists_common_denominator q k (e - 2)
  obtain ⟨hlow, hhigh⟩ := readBack_spec e hm
  rw [readsBack, ReadsBack, Within]
  generalize readBack m e = ends at *
  obtain ⟨low, high⟩ := ends
  generalize lowEnd m e = r at *
  generalize magnitude q k = v at *
  have hp := two_zpow_pos e
  -- an end in quarters of a step, multiplied by the denominator
  have hscale : ∀ (a : Nat) (s : ℚ), (a : ℚ) = 4 * s →
      ((a * (10 ^ (-k).toNat * 2 ^ (e - 2).toNat) : Nat) : ℚ) = s * (2 : ℚ) ^ e * D := by
    intro a s ha
    have hquarter : (a : ℚ) * (2 : ℚ) ^ (e - 2) = s * (2 : ℚ) ^ e := by
      rw [ha, zpow_sub₀ two_ne_zero]
      norm_num
      ring
    rw [← hend, hquarter]
  dsimp only at hlow hhigh ⊢
  have hlow' := hscale low r hlow
  have hhigh' := hscale high _ hhigh
  generalize low * (10 ^ (-k).toNat * 2 ^ (e - 2).toNat) = lowScaled at *
  generalize high * (10 ^ (-k).toNat * 2 ^ (e - 2).toNat) = highScaled at *
  generalize q * 10 ^ k.toNat * 2 ^ (-(e - 2)).toNat = x at *
  have hlowLe : lowScaled ≤ x ↔ r ≤ v / (2 : ℚ) ^ e := by
    rw [← @Nat.cast_le ℚ _ _ _ _ _, hlow', ← hx, mul_le_mul_iff_left₀ hD, le_div_iff₀ hp]
  have hlowEq : v / (2 : ℚ) ^ e = r ↔ x = lowScaled := by
    rw [← Nat.cast_inj (R := ℚ), hlow', ← hx, mul_left_inj' hD.ne', div_eq_iff hp.ne']
  have hhighLe : x ≤ highScaled ↔ v / (2 : ℚ) ^ e ≤ (m : ℚ) + 1 / 2 := by
    rw [← @Nat.cast_le ℚ _ _ _ _ _, hhigh', ← hx, mul_le_mul_iff_left₀ hD, div_le_iff₀ hp]
  have hhighEq : v / (2 : ℚ) ^ e = (m : ℚ) + 1 / 2 ↔ x = highScaled := by
    rw [← Nat.cast_inj (R := ℚ), hhigh', ← hx, mul_left_inj' hD.ne', div_eq_iff hp.ne']
  rw [← hlowLe, ← hhighLe, Ne, Ne, hlowEq, hhighEq]
  split
  · rw [Bool.and_eq_true, decide_eq_true_eq, decide_eq_true_eq]
    omega
  · rw [Bool.and_eq_true, decide_eq_true_eq, decide_eq_true_eq]
    omega

/-! ## The leading digit -/

/-- The number `m · 2^e`. -/
def value (m : Nat) (e : Int) : ℚ := (m : ℚ) * (2 : ℚ) ^ e

/-- A number with a binary exponent, as a quotient of natural numbers. -/
theorem value_eq_div (m : Nat) (e : Int) :
    value m e = ((m * 2 ^ e.toNat : Nat) : ℚ) / ((2 ^ (-e).toNat : Nat) : ℚ) := by
  have h2 := zpow_eq_toNat_div (b := 2) (by decide) e
  rw [Nat.cast_ofNat] at h2
  rw [value, h2, Nat.cast_mul, mul_div_assoc]

/-- The same, moved by decimal places. -/
theorem value_eq_shifted (m : Nat) (e : Int) (s : Nat) :
    value m e = ((m * 2 ^ e.toNat * 10 ^ s : Nat) : ℚ) / ((2 ^ (-e).toNat : Nat) : ℚ) *
      (10 : ℚ) ^ (-(s : Int)) := by
  have h10 : (10 : ℚ) ^ s ≠ 0 := pow_ne_zero s (by norm_num)
  rw [value_eq_div, Nat.cast_mul _ (10 ^ s), Nat.cast_pow 10, Nat.cast_ofNat, zpow_neg,
    zpow_natCast, mul_div_right_comm, mul_assoc, mul_inv_cancel₀ h10, mul_one]

/-- Moving a double by 340 places makes it larger than one. -/
theorem shifted_ne_zero (hm : m ≠ 0) (he : minExponent ≤ e) :
    m * 2 ^ e.toNat * 10 ^ 340 / 2 ^ (-e).toNat ≠ 0 := by
  refine (Nat.div_pos ?_ (Nat.pow_pos (by decide))).ne'
  rw [minExponent] at he
  have hmono : ∀ n, (-e).toNat ≤ n → 2 ^ (-e).toNat ≤ 2 ^ n :=
    fun n => Nat.pow_le_pow_right (by decide)
  have hpow := hmono 1074 (by omega)
  have hten : 2 ^ 1074 ≤ 10 ^ 340 := by decide +kernel
  refine (hpow.trans hten).trans (Nat.le_mul_of_pos_left _ ?_)
  exact Nat.mul_pos (Nat.pos_of_ne_zero hm) (Nat.pow_pos (by decide))

/-- **The leading place of a double**, as it is computed. -/
theorem decimalLead_spec (hm : m ≠ 0) (he : minExponent ≤ e) :
    (10 : ℚ) ^ decimalLead m e ≤ value m e ∧ value m e < (10 : ℚ) ^ (decimalLead m e + 1) := by
  have hne := shifted_ne_zero hm he
  have hvalue := value_eq_shifted m e 340
  obtain ⟨hlow, hhigh⟩ := cast_div_le_and_lt (m * 2 ^ e.toNat * 10 ^ 340)
    (show 0 < 2 ^ (-e).toNat from Nat.pow_pos (by decide))
  have hlead : decimalLead m e =
      adjusted (m * 2 ^ e.toNat * 10 ^ 340 / 2 ^ (-e).toNat) (-340) := by
    rw [decimalLead, adjusted]
    generalize digitCount _ = k
    omega
  rw [hlead, hvalue]
  generalize m * 2 ^ e.toNat * 10 ^ 340 / 2 ^ (-e).toNat = n at *
  have h10 := ten_zpow_pos (-340)
  constructor
  · exact (Decimal.ten_zpow_adjusted_le hne (-340)).trans (mul_le_mul_of_nonneg_right hlow h10.le)
  · have hcount : ((n + 1 : Nat) : ℚ) ≤ ((10 ^ digitCount n : Nat) : ℚ) :=
      Nat.cast_le.2 (lt_ten_pow_digitCount n)
    have hpow : (10 : ℚ) ^ (adjusted n (-340) + 1) =
        ((10 ^ digitCount n : Nat) : ℚ) * (10 : ℚ) ^ (-340 : Int) := by
      have hexp : (adjusted n (-340) + 1 - -340).toNat = digitCount n := by
        rw [adjusted]
        omega
      rw [ten_zpow_eq_mul (by rw [adjusted]; omega : (-340 : Int) ≤ adjusted n (-340) + 1), hexp]
    rw [hpow]
    exact mul_lt_mul_of_pos_right (hhigh.trans_le hcount) h10

/-! ## Grids -/

/-- The neighbour of `m · 2^e` below, on the grid `10^k`. -/
def below (m : Nat) (e k : Int) : Nat :=
  m * 2 ^ e.toNat * 10 ^ (-k).toNat / (2 ^ (-e).toNat * 10 ^ k.toNat)

/-- A double lies between its neighbours. -/
theorem below_spec (m : Nat) (e k : Int) :
    magnitude (below m e k) k ≤ value m e ∧ value m e < magnitude (below m e k + 1) k := by
  have hd : 0 < 2 ^ (-e).toNat * 10 ^ k.toNat :=
    Nat.mul_pos (Nat.pow_pos (by decide)) (Nat.pow_pos (by decide))
  have h10 := zpow_eq_toNat_div (b := 10) (by decide) k
  rw [Nat.cast_ofNat] at h10
  have hquotient : ((m * 2 ^ e.toNat * 10 ^ (-k).toNat : Nat) : ℚ) /
      ((2 ^ (-e).toNat * 10 ^ k.toNat : Nat) : ℚ) = value m e / (10 : ℚ) ^ k := by
    rw [value_eq_div, h10, Nat.cast_mul _ (10 ^ (-k).toNat), Nat.cast_mul _ (10 ^ k.toNat),
      mul_div_mul_comm, div_div_eq_mul_div, mul_div_assoc]
  obtain ⟨hlow, hhigh⟩ := cast_div_le_and_lt (m * 2 ^ e.toNat * 10 ^ (-k).toNat) hd
  rw [hquotient, le_div_iff₀ (ten_zpow_pos k)] at hlow
  rw [hquotient, div_lt_iff₀ (ten_zpow_pos k)] at hhigh
  exact ⟨hlow, hhigh⟩

/-- A double reads back as itself. -/
theorem readsBack_value (m : Nat) (e : Int) : ReadsBack m e (value m e) := by
  rw [ReadsBack, value, mul_div_cancel_right₀ _ (two_zpow_pos e).ne']
  have hlow := lowEnd_le m e
  exact Within.of_lt (by linarith) (by linarith)

/-- What reads back lies in one piece. -/
theorem ReadsBack.convex {a b v : ℚ} (ha : ReadsBack m e a) (hb : ReadsBack m e b) (hav : a ≤ v)
    (hvb : v ≤ b) : ReadsBack m e v :=
  Within.convex ha hb (div_le_div_of_nonneg_right hav (two_zpow_pos e).le)
    (div_le_div_of_nonneg_right hvb (two_zpow_pos e).le)

/-- What is found on a grid is one of the two neighbours, and it reads back. -/
theorem readsBack_of_onGrid? (hm : m ≠ 0) (h : onGrid? m e k = some q) :
    ReadsBack m e (magnitude q k) ∧ q ≤ below m e k + 1 := by
  rw [← readsBack_eq_true_iff hm]
  have hbelow : m * 2 ^ e.toNat * 10 ^ (-k).toNat / (2 ^ (-e).toNat * 10 ^ k.toNat) =
      below m e k := rfl
  rw [onGrid?] at h
  simp only [hbelow] at h
  split at h
  · rename_i hlow hhigh
    obtain rfl := Option.some.inj h
    -- on a tie of the two the rounded quotient decides, and it is one of them
    rw [roundQuotient]
    simp only [hbelow]
    split
    · exact ⟨hlow, Nat.le_succ _⟩
    · split
      · exact ⟨hhigh, le_rfl⟩
      · split
        · exact ⟨hlow, Nat.le_succ _⟩
        · exact ⟨hhigh, le_rfl⟩
  · rename_i hlow hhigh
    obtain rfl := Option.some.inj h
    exact ⟨hlow, Nat.le_succ _⟩
  · rename_i hlow hhigh
    obtain rfl := Option.some.inj h
    exact ⟨hhigh, le_rfl⟩
  · exact absurd h (by simp)

/-- Something is found on a grid if one of the two neighbours reads back. -/
theorem exists_onGrid?_of_neighbour (hm : m ≠ 0)
    (h : ReadsBack m e (magnitude (below m e k) k) ∨
      ReadsBack m e (magnitude (below m e k + 1) k)) :
    ∃ q, onGrid? m e k = some q := by
  rw [← readsBack_eq_true_iff hm, ← readsBack_eq_true_iff hm] at h
  have hbelow : m * 2 ^ e.toNat * 10 ^ (-k).toNat / (2 ^ (-e).toNat * 10 ^ k.toNat) =
      below m e k := rfl
  rw [onGrid?]
  simp only [hbelow]
  split
  · exact ⟨_, rfl⟩
  · exact ⟨_, rfl⟩
  · exact ⟨_, rfl⟩
  · rename_i hlow hhigh
    rw [hlow, hhigh] at h
    exact absurd h (by simp)

/-- **No grid is missed**: if any number of it reads back, something is found. -/
theorem exists_onGrid? (hm : m ≠ 0) (h : ReadsBack m e (magnitude q k)) :
    ∃ q', onGrid? m e k = some q' := by
  obtain ⟨hlow, hhigh⟩ := below_spec m e k
  have hself := readsBack_value m e
  have h10 := ten_zpow_pos k
  refine exists_onGrid?_of_neighbour hm ?_
  rcases Nat.lt_or_ge (below m e k) q with hq | hq
  · -- the neighbour above lies between the double and the number
    have hcast : ((below m e k + 1 : Nat) : ℚ) ≤ (q : ℚ) := Nat.cast_le.2 hq
    exact Or.inr (hself.convex h hhigh.le (mul_le_mul_of_nonneg_right hcast h10.le))
  · have hcast : (q : ℚ) ≤ ((below m e k : Nat) : ℚ) := Nat.cast_le.2 hq
    exact Or.inl (h.convex hself (mul_le_mul_of_nonneg_right hcast h10.le) hlow)

/-- The steps of 17 digits are short: half of one stays inside the interval on either side. -/
theorem half_seventeenth_lt (hcan : Canonical m e) (hm : m ≠ 0) :
    (10 : ℚ) ^ (decimalLead m e - 16) / 2 < ((m : ℚ) - lowEnd m e) * (2 : ℚ) ^ e ∧
      (10 : ℚ) ^ (decimalLead m e - 16) / 2 < 1 / 2 * (2 : ℚ) ^ e := by
  obtain ⟨hlead, -⟩ := decimalLead_spec hm hcan.minExponent_le
  have hp := two_zpow_pos e
  have hsteps : (10 : ℚ) ^ 16 * (10 : ℚ) ^ (decimalLead m e - 16) ≤ (m : ℚ) * (2 : ℚ) ^ e := by
    refine le_trans (le_of_eq ?_) hlead
    rw [zpow_sub₀ (by norm_num)]
    norm_num
    ring
  generalize (10 : ℚ) ^ (decimalLead m e - 16) = s at *
  generalize (2 : ℚ) ^ e = p at *
  have hlt : (m : ℚ) * p ≤ 2 ^ 53 * p := by
    refine mul_le_mul_of_nonneg_right ?_ hp.le
    exact_mod_cast hcan.lt.le
  refine ⟨?_, by linarith⟩
  rw [lowEnd]
  split
  · rename_i hleast
    have hcast : (m : ℚ) = 2 ^ 52 := by
      rw [hleast.1]
      norm_num [mantissaBits]
    rw [hcast] at hsteps ⊢
    linarith
  · linarith

/-- **Seventeen digits suffice**: on their grid something is found. -/
theorem exists_seventeen (hcan : Canonical m e) (hm : m ≠ 0) :
    ∃ q, onGrid? m e (decimalLead m e - 16) = some q := by
  obtain ⟨hlow, hhigh⟩ := below_spec m e (decimalLead m e - 16)
  obtain ⟨hdown, hup⟩ := half_seventeenth_lt hcan hm
  have hp := two_zpow_pos e
  refine exists_onGrid?_of_neighbour hm ?_
  generalize below m e (decimalLead m e - 16) = b at *
  rw [magnitude] at hlow hhigh ⊢
  rw [magnitude]
  rw [Nat.cast_add, Nat.cast_one] at hhigh ⊢
  generalize (10 : ℚ) ^ (decimalLead m e - 16) = s at *
  rw [value] at hlow hhigh
  -- the nearer neighbour is at most half a step away
  rcases le_or_gt ((m : ℚ) * (2 : ℚ) ^ e - b * s) (s / 2) with hnear | hnear
  · refine Or.inl (Within.of_lt ?_ ?_)
    · rw [lt_div_iff₀ hp]
      linarith
    · rw [div_lt_iff₀ hp]
      linarith
  · refine Or.inr (Within.of_lt ?_ ?_)
    · rw [lt_div_iff₀ hp]
      have := mul_le_mul_of_nonneg_right (lowEnd_le m e) hp.le
      linarith
    · rw [div_lt_iff₀ hp]
      linarith

/-! ## The search -/

/-- The first grid on which something is found is at least as coarse as any other. -/
theorem exists_shortestOn {ks : List Int} (hks : ks.Pairwise fun a b => b ≤ a) {j : Int}
    (hj : j ∈ ks) (h : ∃ p, onGrid? m e j = some p) :
    ∃ q k, shortestOn m e ks = some (q, k) ∧ k ∈ ks ∧ onGrid? m e k = some q ∧ j ≤ k := by
  induction ks with
  | nil => exact absurd hj List.not_mem_nil
  | cons a ks ih =>
    obtain ⟨hfirst, hks⟩ := List.pairwise_cons.1 hks
    cases ha : onGrid? m e a with
    | some q =>
      refine ⟨q, a, by rw [shortestOn, ha], List.mem_cons_self, ha, ?_⟩
      rcases List.mem_cons.1 hj with rfl | hj
      · exact le_rfl
      · exact hfirst j hj
    | none =>
      have hj' : j ∈ ks := by
        rcases List.mem_cons.1 hj with rfl | hj
        · obtain ⟨p, hp⟩ := h
          exact absurd (ha.symm.trans hp) (by simp)
        · exact hj
      obtain ⟨q, k, hshort, hk, hq, hjk⟩ := ih hks hj'
      exact ⟨q, k, by rw [shortestOn, ha]; exact hshort, List.mem_cons_of_mem a hk, hq, hjk⟩

theorem mem_grids_iff {lead k : Int} : k ∈ grids lead ↔ lead - 16 ≤ k ∧ k ≤ lead := by
  rw [grids, List.mem_map]
  constructor
  · rintro ⟨n, hn, rfl⟩
    have hlt := List.mem_range.1 hn
    omega
  · rintro ⟨hlow, hhigh⟩
    exact ⟨(lead - k).toNat, List.mem_range.2 (by omega), by omega⟩

theorem pairwise_grids (lead : Int) : (grids lead).Pairwise fun a b => b ≤ a := by
  rw [grids, List.pairwise_map]
  refine List.pairwise_lt_range.imp ?_
  intro a b hab
  omega

/-- **What the search finds**: a number of at most 17 digits that reads back, on a grid at least as
coarse as any other grid with a number that reads back. -/
theorem shortest_spec (hcan : Canonical m e) (hm : m ≠ 0) :
    ∃ q k, magnitude (shortest m e).1 (shortest m e).2 = magnitude q k ∧
      ReadsBack m e (magnitude q k) ∧ q ≤ 10 ^ 17 ∧
      ∀ j, decimalLead m e - 16 ≤ j → j ≤ decimalLead m e →
        (∃ p, ReadsBack m e (magnitude p j)) → j ≤ k := by
  obtain ⟨q, k, hshort, hk, hq, hlast⟩ := exists_shortestOn (pairwise_grids (decimalLead m e))
    (mem_grids_iff.2 ⟨le_rfl, by omega⟩) (exists_seventeen hcan hm)
  obtain ⟨hread, hbelow⟩ := readsBack_of_onGrid? hm hq
  refine ⟨q, k, ?_, hread, hbelow.trans ?_, fun j hlow hhigh hj => ?_⟩
  · rw [shortest, hshort]
    exact Decimal.magnitude_dropZeros 17 q k
  · -- the double has at most 17 digits in front of the end of the grid
    obtain ⟨-, hnext⟩ := decimalLead_spec hm hcan.minExponent_le
    have hlt := (below_spec m e k).1.trans_lt hnext
    have hpow : (10 : ℚ) ^ (decimalLead m e + 1) ≤ ((10 ^ 17 : Nat) : ℚ) * (10 : ℚ) ^ k := by
      have hexp : decimalLead m e + 1 ≤ k + 17 := by omega
      refine (ten_zpow_le hexp).trans (le_of_eq ?_)
      rw [zpow_add₀ (by norm_num), mul_comm]
      norm_num
    have hcast : ((below m e k : Nat) : ℚ) < ((10 ^ 17 : Nat) : ℚ) :=
      lt_of_mul_lt_mul_right (hlt.trans_le hpow) (ten_zpow_pos k).le
    exact Nat.cast_lt.1 hcast
  · obtain ⟨p, hp⟩ := hj
    obtain ⟨q', k', hshort', -, -, hjk⟩ := exists_shortestOn (pairwise_grids (decimalLead m e))
      (mem_grids_iff.2 ⟨hlow, hhigh⟩) (exists_onGrid? hm hp)
    obtain ⟨rfl, rfl⟩ := Prod.mk.inj (Option.some.inj (hshort.symm.trans hshort'))
    exact hjk

/-! ## What a double is written as -/

/-- The magnitude that a double is written as. -/
def written (m : Nat) (e : Int) : ℚ :=
  if m = 0 then 0 else magnitude (shortest m e).1 (shortest m e).2

/-- The notation does not change the number. -/
theorem exists_toDecimal? (negative : Bool) (m : Nat) (e : Int) :
    ∃ c k, (finite negative m e).toDecimal? = some (.finite negative c k) ∧
      magnitude c k = written m e := by
  cases m with
  | zero => exact ⟨0, -1, rfl, Decimal.magnitude_zero _⟩
  | succ m =>
    rw [written, if_neg (Nat.succ_ne_zero m), toDecimal?]
    · dsimp only
      split
      · rename_i hplace
        have hk : 0 ≤ (shortest (m + 1) e).2 := by
          simp only [Bool.and_eq_true, decide_eq_true_eq] at hplace
          exact hplace.2
        refine ⟨_, _, rfl, ?_⟩
        have hexp : ((shortest (m + 1) e).2 - -1).toNat = (shortest (m + 1) e).2.toNat + 1 := by
          omega
        rw [Decimal.magnitude_eq_of_le (by omega : (-1 : Int) ≤ (shortest (m + 1) e).2), hexp]
      · exact ⟨_, _, rfl, rfl⟩
    · exact Nat.succ_ne_zero m

/-- The value of a double's decimal, with the sign of the double. -/
theorem value?_of_toDecimal? {negative : Bool} {d : Decimal}
    (h : (finite negative m e).toDecimal? = some d) :
    d.value? = some (withSign negative (written m e)) := by
  obtain ⟨c, k, hd, hvalue⟩ := exists_toDecimal? negative m e
  obtain rfl := Option.some.inj (hd.symm.trans h)
  rw [Decimal.value?, hvalue]

theorem written_nonneg (m : Nat) (e : Int) : 0 ≤ written m e := by
  rw [written]
  split
  · exact le_rfl
  · exact Decimal.magnitude_nonneg _ _

/-- **The round trip**: a literal for the number that a double is written as is read as this double,
whatever its coefficient and exponent. -/
theorem nearest_eq_of_value {x : Binary64} (hx : x.IsDouble) {d : Decimal}
    (hd : x.toDecimal? = some d) {negative : Bool} {c : Nat} {k : Int} (hc : c ≠ 0)
    (hvalue : d.value? = some (withSign negative (magnitude c k))) : nearest negative c k = x := by
  cases x with
  | finite n m e =>
    rw [value?_of_toDecimal? hd, Option.some.injEq,
      Decimal.withSign_eq_withSign_iff (written_nonneg m e) (Decimal.magnitude_nonneg c k)] at hvalue
    obtain ⟨hwritten, hsign⟩ := hvalue
    have hne : written m e ≠ 0 := by
      rw [hwritten]
      exact (Decimal.magnitude_pos hc k).ne'
    have hm : m ≠ 0 := by
      rintro rfl
      exact hne rfl
    have hcan : Canonical m e := hx.resolve_left hm
    obtain ⟨q, j, hshort, hread, -⟩ := shortest_spec hcan hm
    rw [hsign hne, nearest_eq_finite_iff hc hm]
    rw [written, if_neg hm, hshort] at hwritten
    exact ⟨hcan, hwritten ▸ hread⟩
  | infinity n => exact absurd hx id
  | nan => exact absurd hx id

/-- Is the number what some double is written as? -/
def Shown (v : ℚ) : Prop :=
  ∃ x : Binary64, x.IsDouble ∧ ∃ d, x.toDecimal? = some d ∧ d.value? = some v

theorem shown_zero : Shown 0 := by
  refine ⟨.finite false 0 0, Or.inl rfl, .finite false 0 (-1), rfl, ?_⟩
  rw [Decimal.value?, Decimal.magnitude_zero]
  rfl

/-- The double of a literal is a double. -/
theorem isDouble_nearest {negative n : Bool} {c m : Nat} {k e : Int}
    (h : nearest negative c k = finite n m e) : (finite n m e).IsDouble := by
  by_cases hm : m = 0
  · exact Or.inl hm
  · obtain rfl := sign_of_nearest h
    by_cases hc : c = 0
    · rw [nearest, if_pos hc] at h
      exact absurd (finite.inj h).2.1.symm hm
    · exact Or.inr ((nearest_eq_finite_iff hc hm).1 h).1

/-- **A literal's number comes out as it went in exactly if some double is written as it.** -/
theorem shown_iff {negative : Bool} {c : Nat} {k : Int} :
    Shown (withSign negative (magnitude c k)) ↔
      ∃ d, (nearest negative c k).toDecimal? = some d ∧
        d.value? = some (withSign negative (magnitude c k)) := by
  constructor
  · rintro ⟨x, hx, d, hd, hvalue⟩
    by_cases hc : c = 0
    · refine ⟨.finite negative 0 (-1), by rw [nearest, if_pos hc]; rfl, ?_⟩
      rw [Decimal.value?, hc, Decimal.magnitude_zero, Decimal.magnitude_zero]
    · exact ⟨d, by rw [nearest_eq_of_value hx hd hc hvalue]; exact hd, hvalue⟩
  · rintro ⟨d, hd, hvalue⟩
    cases hx : nearest negative c k with
    | finite n m e =>
      rw [hx] at hd
      exact ⟨_, isDouble_nearest hx, d, hd, hvalue⟩
    | infinity n =>
      rw [hx] at hd
      exact absurd hd (by simp [toDecimal?])
    | nan =>
      rw [hx] at hd
      exact absurd hd (by simp [toDecimal?])

/-! ## How many digits -/

/-- **No more than 17 digits**: what a double is written as is a number of so many digits. -/
theorem Shown.digits {v : ℚ} (h : Shown v) :
    ∃ negative a j, a < 10 ^ 17 ∧ v = withSign negative (magnitude a j) := by
  obtain ⟨x, hx, d, hd, hvalue⟩ := h
  cases x with
  | finite n m e =>
    have hv := Option.some.inj (hvalue.symm.trans (value?_of_toDecimal? hd))
    by_cases hm : m = 0
    · refine ⟨n, 0, 0, by decide, ?_⟩
      rw [hv, written, if_pos hm, Decimal.magnitude_zero]
    · obtain ⟨q, k, hshort, -, hq, -⟩ := shortest_spec (hx.resolve_left hm) hm
      rw [written, if_neg hm, hshort] at hv
      rcases hq.lt_or_eq with hq | rfl
      · exact ⟨n, q, k, hq, hv⟩
      · refine ⟨n, 1, k + 17, by decide, ?_⟩
        rw [hv, Decimal.magnitude_eq_of_le (by omega : k ≤ k + 17) 1]
        have hexp : (k + 17 - k).toNat = 17 := by omega
        rw [hexp, Nat.one_mul]
  | infinity n => exact absurd hx id
  | nan => exact absurd hx id

/-- Two numbers of one grid are the same if the double has both in its interval and its steps are
shorter than those of the grid. -/
theorem eq_of_readsBack {a b : Nat} {g : Int} (ha : ReadsBack m e (magnitude a g))
    (hb : ReadsBack m e (magnitude b g)) (hstep : (2 : ℚ) ^ e < (10 : ℚ) ^ g) : a = b := by
  have hp := two_zpow_pos e
  have h10 := ten_zpow_pos g
  have hle : ∀ {a b : Nat}, ReadsBack m e (magnitude a g) → ReadsBack m e (magnitude b g) →
      ¬ a < b := by
    intro a b ha hb hab
    have hlow := ha.within.1
    have hhigh := hb.within.2.1
    rw [le_div_iff₀ hp] at hlow
    rw [div_le_iff₀ hp] at hhigh
    have hcast : (a : ℚ) + 1 ≤ b := by exact_mod_cast hab
    have hmul := mul_le_mul_of_nonneg_right hcast h10.le
    rw [magnitude] at hlow hhigh
    linarith
  exact Nat.le_antisymm (Nat.le_of_not_lt (hle hb ha)) (Nat.le_of_not_lt (hle ha hb))

/-- The steps of a double that reads back from a number of 15 digits are shorter than those of the
digits, and the two numbers are of one size. -/
theorem fifteenth_spec (hcan : Canonical m e) (hfull : 2 ^ 52 ≤ m) {v : ℚ} {lead : Int}
    (hread : ReadsBack m e v) (hlow : (10 : ℚ) ^ lead ≤ v) (hhigh : v < (10 : ℚ) ^ (lead + 1)) :
    (2 : ℚ) ^ e < (10 : ℚ) ^ (lead - 14) ∧ decimalLead m e - 16 ≤ lead - 14 ∧
      lead - 14 ≤ decimalLead m e := by
  have hp := two_zpow_pos e
  have hm : m ≠ 0 := by omega
  have hcast : (2 : ℚ) ^ 52 ≤ m := by exact_mod_cast hfull
  obtain ⟨hlead, hnext⟩ := decimalLead_spec hm hcan.minExponent_le
  have hdown := hread.within.1
  have hup := hread.within.2.1
  rw [le_div_iff₀ hp] at hdown
  rw [div_le_iff₀ hp] at hup
  rw [value] at hlead hnext
  have hsteps : (2 : ℚ) ^ 52 * (2 : ℚ) ^ e ≤ m * (2 : ℚ) ^ e :=
    mul_le_mul_of_nonneg_right hcast hp.le
  have hten : ∀ i : Int, (10 : ℚ) ^ (i + 1) = 10 * (10 : ℚ) ^ i := by
    intro i
    rw [zpow_add_one₀ (by norm_num), mul_comm]
  refine ⟨?_, ?_, ?_⟩
  · have hdigits : (10 : ℚ) ^ (lead + 1) = (10 : ℚ) ^ 15 * (10 : ℚ) ^ (lead - 14) := by
      have hexp : lead + 1 = 15 + (lead - 14) := by omega
      rw [hexp, zpow_add₀ (by norm_num)]
      norm_num
    rw [hdigits] at hhigh
    linarith
  · have hlt := lt_of_ten_zpow_lt (show (10 : ℚ) ^ decimalLead m e < (10 : ℚ) ^ (lead + 1 + 1) by
      rw [hten (lead + 1)]
      linarith)
    omega
  · have hlt := lt_of_ten_zpow_lt (show (10 : ℚ) ^ lead < (10 : ℚ) ^ (decimalLead m e + 1 + 1) by
      rw [hten (decimalLead m e + 1)]
      linarith)
    omega

/-- A number of 15 digits is what its double is written as, if the double's digits are full. -/
theorem written_of_short (hcan : Canonical m e) (hfull : 2 ^ 52 ≤ m) {a : Nat} {j : Int}
    (ha : a ≠ 0) (hlt : a < 10 ^ 15) (hread : ReadsBack m e (magnitude a j)) : written m e = magnitude a j := by
  have hm : m ≠ 0 := by omega
  have hdigits : digitCount a ≤ 15 := (digitCount_le_iff (by decide)).2 hlt
  obtain ⟨hstep, hfine, hcoarse⟩ := fifteenth_spec hcan hfull hread
    (Decimal.ten_zpow_adjusted_le ha j) (Decimal.magnitude_lt_ten_zpow a j)
  have hg : adjusted a j - 14 ≤ j := by
    rw [adjusted]
    omega
  rw [Decimal.magnitude_eq_of_le hg] at hread ⊢
  obtain ⟨q, k, hshort, hq, -, hfirst⟩ := shortest_spec hcan hm
  have hk := hfirst _ hfine hcoarse ⟨_, hread⟩
  rw [Decimal.magnitude_eq_of_le hk] at hq hshort
  rw [written, if_neg hm, hshort, eq_of_readsBack hq hread hstep]

/-- The numbers from `10^-307` on are larger than the doubles whose digits are not full. -/
theorem two_zpow_lt_ten_zpow_neg : (2 : ℚ) ^ (-1022 : Int) < (10 : ℚ) ^ (-307 : Int) := by
  have h : (10 : ℚ) ^ (307 : Int) < (2 : ℚ) ^ (1022 : Int) :=
    @natCast_zpow_lt 10 2 307 1022 (by decide +kernel)
  have hinv := inv_strictAnti₀ (ten_zpow_pos 307) h
  rw [← zpow_neg, ← zpow_neg] at hinv
  exact hinv

/-- **Fifteen digits suffice**: a literal that is read as a finite double, is no smaller than
`10^-307`, and whose number has at most 15 digits comes out as it went in. -/
theorem shown_of_short {negative : Bool} {c : Nat} {k : Int} {d : Decimal}
    (hd : (nearest negative c k).toDecimal? = some d)
    (hsize : (10 : ℚ) ^ (-307 : Int) ≤ magnitude c k)
    {a : Nat} {j : Int} (hlt : a < 10 ^ 15) (heq : magnitude c k = magnitude a j) :
    Shown (withSign negative (magnitude c k)) := by
  have hlarge := two_zpow_lt_ten_zpow_neg.trans_le hsize
  have hpos := (two_zpow_pos (-1022)).trans hlarge
  have hnonzero : ∀ {c : Nat} {k : Int}, 0 < magnitude c k → c ≠ 0 := by
    rintro c k h rfl
    exact absurd h (by rw [Decimal.magnitude_zero]; exact lt_irrefl 0)
  cases hx : nearest negative c k with
  | finite n m e =>
    obtain rfl := sign_of_nearest hx
    have hm : m ≠ 0 := by
      rintro rfl
      have hle := magnitude_le_of_nearest_zero hx
      have hmono : (2 : ℚ) ^ (-1074 - 1 : Int) ≤ (2 : ℚ) ^ (-1022 : Int) := two_zpow_le (by decide)
      linarith
    obtain ⟨hcan, hread⟩ := (nearest_eq_finite_iff (hnonzero hpos) hm).1 hx
    have hfull : 2 ^ 52 ≤ m := by
      refine Nat.le_of_not_lt fun hlt' => ?_
      obtain rfl : e = minExponent := hcan.full.resolve_left (Nat.not_le.2 hlt')
      have hcast : (m : ℚ) + 1 ≤ 2 ^ 52 := by exact_mod_cast hlt'
      have hup := hread.within.2.1
      rw [div_le_iff₀ (two_zpow_pos _)] at hup
      have hend : ((m : ℚ) + 1 / 2) * (2 : ℚ) ^ minExponent ≤ 2 ^ 52 * (2 : ℚ) ^ minExponent :=
        mul_le_mul_of_nonneg_right (by linarith) (two_zpow_pos _).le
      have hpow : (2 : ℚ) ^ (-1022 : Int) = 2 ^ 52 * (2 : ℚ) ^ minExponent := by
        rw [minExponent, ← zpow_natCast, ← zpow_add₀ two_ne_zero]
        rfl
      linarith
    refine ⟨_, isDouble_nearest hx, d, by rw [← hx]; exact hd, ?_⟩
    rw [heq] at hread hpos
    rw [value?_of_toDecimal? (by rw [← hx]; exact hd),
      written_of_short hcan hfull (hnonzero hpos) hlt hread, heq]
  | infinity n =>
    rw [hx] at hd
    exact absurd hd (by simp [toDecimal?])
  | nan =>
    rw [hx] at hd
    exact absurd hd (by simp [toDecimal?])

end Binary64

end PaperVenue
