import PaperVenue.Proofs.Decimal.Value

/-!
# Rounding as a relation of numbers

What it means that a number is rounded does not depend on how it is given, by which coefficient and
exponent.  `Decimal.NearestEven` says that one number is the multiple of a power of ten nearest to
another, and the even one of two that are as near.  There is only one such multiple
(`NearestEven.unique`), and `roundQuotient` finds it.

Which power of ten it is depends on where the leading digit of the number stands.  `RoundsOn` takes
a rule for that: `digitGrid` leaves 28 digits, and `resultGrid` does so unless the grid would be
finer than the finest one.  With either rule a decimal is rounded to one number and no other
(`exists_roundsOn`, `RoundsOn.unique`).
-/

namespace PaperVenue

namespace Decimal

/-! ## The nearest multiple -/

/-- `y` is the multiple of `10^g` nearest to `x`, and the even one of two that are as near. -/
def NearestEven (g : Int) (x y : ℚ) : Prop :=
  ∃ n : Nat, y = magnitude n g ∧ 2 * |x - y| ≤ (10 : ℚ) ^ g ∧
    (2 * |x - y| = (10 : ℚ) ^ g → n % 2 = 0)

theorem magnitude_le {m n : Nat} (h : m ≤ n) (k : Int) : magnitude m k ≤ magnitude n k :=
  mul_le_mul_of_nonneg_right (Nat.cast_le.2 h) (ten_zpow_pos k).le

/-- The next multiple. -/
theorem magnitude_succ (n : Nat) (k : Int) :
    magnitude (n + 1) k = magnitude n k + (10 : ℚ) ^ k := by
  rw [magnitude, magnitude, Nat.cast_add, Nat.cast_one, add_mul, one_mul]

/-- A larger multiple is larger by a whole step. -/
theorem magnitude_add_le {m n : Nat} (h : m < n) (k : Int) :
    magnitude m k + (10 : ℚ) ^ k ≤ magnitude n k := by
  rw [← magnitude_succ]
  exact magnitude_le h k

/-- A power of ten on a finer grid. -/
theorem magnitude_ten_pow (n : Nat) (g : Int) : magnitude (10 ^ n) g = (10 : ℚ) ^ (g + n) := by
  have hle : g ≤ g + n := by omega
  have hexp : (g + n - g).toNat = n := by omega
  rw [ten_zpow_eq_mul hle, hexp, magnitude]

namespace NearestEven

variable {g : Int} {x y y' : ℚ}

theorem bounds (h : NearestEven g x y) :
    2 * x ≤ 2 * y + (10 : ℚ) ^ g ∧ 2 * y ≤ 2 * x + (10 : ℚ) ^ g := by
  obtain ⟨n, -, hnear, -⟩ := h
  have habs : |x - y| ≤ (10 : ℚ) ^ g / 2 := by linarith
  obtain ⟨hlow, hhigh⟩ := abs_le.1 habs
  constructor <;> linarith

/-- **There is only one nearest multiple.** -/
theorem unique (h : NearestEven g x y) (h' : NearestEven g x y') : y = y' := by
  have hlt : ∀ {y y' : ℚ}, NearestEven g x y → NearestEven g x y' → ¬ y < y' := by
    intro y y' h h' hlt
    obtain ⟨hhigh, -⟩ := h.bounds
    obtain ⟨-, hlow⟩ := h'.bounds
    obtain ⟨n, rfl, -, heven⟩ := h
    obtain ⟨n', rfl, -, heven'⟩ := h'
    have hn : n < n' := by
      refine Nat.lt_of_not_le fun hle => ?_
      exact absurd hlt (not_lt.2 (magnitude_le hle g))
    have hstep := magnitude_add_le hn g
    -- the two are neighbours, and the number stands in the middle
    have hnext : magnitude n' g = magnitude n g + (10 : ℚ) ^ g := by linarith
    have hmiddle : 2 * x = 2 * magnitude n g + (10 : ℚ) ^ g := by linarith
    have hpos := ten_zpow_pos g
    have htie : 2 * |x - magnitude n g| = (10 : ℚ) ^ g := by
      rw [abs_of_nonneg (by linarith)]
      linarith
    have htie' : 2 * |x - magnitude n' g| = (10 : ℚ) ^ g := by
      rw [abs_of_nonpos (by linarith)]
      linarith
    have hsucc : n' = n + 1 := by
      rw [← magnitude_succ, magnitude, magnitude] at hnext
      exact Nat.cast_injective (mul_right_cancel₀ hpos.ne' hnext)
    have hparity := heven htie
    have hparity' := heven' htie'
    omega
  exact le_antisymm (not_lt.1 (hlt h' h)) (not_lt.1 (hlt h h'))

/-- A multiple below the number is below its nearest multiple. -/
theorem multiple_le (h : NearestEven g x y) {n : Nat} (hn : magnitude n g ≤ x) :
    magnitude n g ≤ y := by
  obtain ⟨hhigh, -⟩ := h.bounds
  obtain ⟨m, rfl, -, -⟩ := h
  refine magnitude_le (Nat.le_of_not_lt fun hlt => ?_) g
  have hstep := magnitude_add_le hlt g
  have hpos := ten_zpow_pos g
  linarith

/-- A multiple above the number is above its nearest multiple. -/
theorem le_multiple (h : NearestEven g x y) {n : Nat} (hn : x ≤ magnitude n g) :
    y ≤ magnitude n g := by
  obtain ⟨-, hlow⟩ := h.bounds
  obtain ⟨m, rfl, -, -⟩ := h
  refine magnitude_le (Nat.le_of_not_lt fun hlt => ?_) g
  have hstep := magnitude_add_le hlt g
  have hpos := ten_zpow_pos g
  linarith

/-- **A larger number has no smaller nearest multiple.** -/
theorem mono (h : NearestEven g x y) {x' : ℚ} (h' : NearestEven g x' y') (hx : x ≤ x') :
    y ≤ y' := by
  by_contra hlt
  obtain ⟨-, hlow⟩ := h.bounds
  obtain ⟨hhigh, -⟩ := h'.bounds
  have hstep : y' + (10 : ℚ) ^ g ≤ y := by
    obtain ⟨n, rfl, -, -⟩ := h
    obtain ⟨n', rfl, -, -⟩ := h'
    refine magnitude_add_le (Nat.lt_of_not_le fun hle => ?_) g
    exact hlt (magnitude_le hle g)
  -- the multiples are neighbours, and both numbers stand in the middle
  obtain rfl : x = x' := by linarith
  exact hlt (h.unique h').le

end NearestEven

/-- A multiple is its own nearest multiple. -/
theorem nearestEven_self {g k : Int} (h : g ≤ k) (n : Nat) :
    NearestEven g (magnitude n k) (magnitude n k) := by
  have hpos := ten_zpow_pos g
  refine ⟨_, magnitude_eq_of_le h n, ?_, fun htie => ?_⟩
  · rw [sub_self, abs_zero, mul_zero]
    exact hpos.le
  · rw [sub_self, abs_zero, mul_zero] at htie
    exact absurd htie hpos.ne

/-- **Dropping digits finds the nearest multiple.** -/
theorem nearestEven_roundQuotient {g k : Int} (h : k ≤ g) (c : Nat) :
    NearestEven g (magnitude c k) (magnitude (roundQuotient c (10 ^ (g - k).toNat)) g) := by
  obtain ⟨hup, hdown, htieUp, htieDown⟩ :=
    roundQuotient_spec c (Nat.pow_pos (by decide) : 0 < 10 ^ (g - k).toNat)
  have hunit := ten_zpow_eq_mul h
  generalize roundQuotient c (10 ^ (g - k).toNat) = q at *
  generalize 10 ^ (g - k).toNat = d at *
  have hpos := ten_zpow_pos k
  have hgrid : magnitude q g = q * d * (10 : ℚ) ^ k := by rw [magnitude, hunit, mul_assoc]
  -- the bounds on the quotient, in units of the finer grid
  have hupper : 2 * (c : ℚ) ≤ (2 * q + 1) * d := by exact_mod_cast hup
  have hlower : 2 * (q : ℚ) * d ≤ 2 * c + d := by exact_mod_cast hdown
  have hhigh := mul_le_mul_of_nonneg_right hupper hpos.le
  have hlow := mul_le_mul_of_nonneg_right hlower hpos.le
  refine ⟨q, rfl, ?_, fun htie => ?_⟩
  · have habs : |magnitude c k - magnitude q g| ≤ (10 : ℚ) ^ g / 2 := by
      rw [abs_le, hgrid, hunit, magnitude]
      constructor <;> linarith
    linarith
  · have habs : |magnitude c k - magnitude q g| = (10 : ℚ) ^ g / 2 := by linarith
    rw [hgrid, hunit, magnitude] at habs
    rcases eq_or_eq_neg_of_abs_eq habs with heq | heq
    · have htie' : 2 * (c : ℚ) = (2 * q + 1) * d := by
        refine mul_right_cancel₀ hpos.ne' ?_
        linarith
      exact htieUp (by exact_mod_cast htie')
    · have htie' : 2 * (c : ℚ) + d = 2 * q * d := by
        refine mul_right_cancel₀ hpos.ne' ?_
        linarith
      exact htieDown (by exact_mod_cast htie')

/-- **What is left behind the last digit does not matter** one place below the grid: two numbers
between the same neighbours of a finer grid have the same nearest multiple. -/
theorem NearestEven.of_between {g k : Int} (hgrid : k < g) {q : Nat} {x x' y : ℚ}
    (hx : magnitude q k < x ∧ x < magnitude (q + 1) k)
    (hx' : magnitude q k < x' ∧ x' < magnitude (q + 1) k) (hy : NearestEven g x y) :
    NearestEven g x' y := by
  -- half a step of the grid is a number of steps of the finer one
  obtain ⟨half, hhalf⟩ : ∃ half, 10 ^ (g - k).toNat = 2 * half := by
    refine ⟨5 * 10 ^ ((g - k).toNat - 1), ?_⟩
    have hsucc : (g - k).toNat = (g - k).toNat - 1 + 1 := by omega
    rw [hsucc, Nat.pow_succ, Nat.add_sub_cancel]
    omega
  have hstep := ten_zpow_eq_mul hgrid.le
  rw [hhalf, Nat.cast_mul, Nat.cast_ofNat] at hstep
  obtain ⟨hhigh, hlow⟩ := hy.bounds
  obtain ⟨n, rfl, -, -⟩ := hy
  have hmultiple : magnitude n g = (n * (2 * half) : Nat) * (10 : ℚ) ^ k := by
    rw [magnitude, hstep, ← mul_assoc, Nat.cast_mul, Nat.cast_mul, Nat.cast_ofNat]
  have hpos := ten_zpow_pos k
  unfold magnitude at hx hx'
  -- the middles on both sides are on the finer grid, and so not between its neighbours
  have hbelow : n * (2 * half) ≤ q + half := by
    have hlt : ((n * (2 * half) : Nat) : ℚ) * (10 : ℚ) ^ k <
        ((q + 1 + half : Nat) : ℚ) * (10 : ℚ) ^ k := by
      rw [Nat.cast_add (q + 1), add_mul]
      linarith
    have hcast : n * (2 * half) < q + 1 + half := by
      exact_mod_cast lt_of_mul_lt_mul_right hlt hpos.le
    omega
  have habove : q + 1 ≤ n * (2 * half) + half := by
    have hlt : (q : ℚ) * (10 : ℚ) ^ k < ((n * (2 * half) + half : Nat) : ℚ) * (10 : ℚ) ^ k := by
      rw [Nat.cast_add, add_mul]
      linarith
    exact_mod_cast lt_of_mul_lt_mul_right hlt hpos.le
  have hbelow' : ((n * (2 * half) : Nat) : ℚ) * (10 : ℚ) ^ k ≤
      ((q + half : Nat) : ℚ) * (10 : ℚ) ^ k :=
    mul_le_mul_of_nonneg_right (by exact_mod_cast hbelow) hpos.le
  have habove' : ((q + 1 : Nat) : ℚ) * (10 : ℚ) ^ k ≤
      ((n * (2 * half) + half : Nat) : ℚ) * (10 : ℚ) ^ k :=
    mul_le_mul_of_nonneg_right (by exact_mod_cast habove) hpos.le
  rw [Nat.cast_add, add_mul] at hbelow'
  rw [Nat.cast_add (n * (2 * half)), add_mul] at habove'
  have hnear : 2 * |x' - magnitude n g| < (10 : ℚ) ^ g := by
    have habs : |x' - magnitude n g| < half * (10 : ℚ) ^ k := by
      rw [abs_lt, hmultiple]
      constructor <;> linarith
    rw [hstep]
    linarith
  exact ⟨n, rfl, hnear.le, fun htie => absurd htie hnear.ne⟩

/-- Every number of the kind has a nearest multiple. -/
theorem exists_nearestEven (g : Int) (c : Nat) (k : Int) :
    ∃ y, NearestEven g (magnitude c k) y := by
  by_cases h : g ≤ k
  · exact ⟨_, nearestEven_self h c⟩
  · exact ⟨_, nearestEven_roundQuotient (by omega) c⟩

/-! ## The grid of a number -/

/-- The leading digit of `x` stands at `10^l`. -/
def HasLead (x : ℚ) (l : Int) : Prop := (10 : ℚ) ^ l ≤ x ∧ x < (10 : ℚ) ^ (l + 1)

theorem hasLead_adjusted {c : Nat} (hc : c ≠ 0) (k : Int) :
    HasLead (magnitude c k) (adjusted c k) :=
  ⟨ten_zpow_adjusted_le hc k, magnitude_lt_ten_zpow c k⟩

theorem HasLead.unique {x : ℚ} {l l' : Int} (h : HasLead x l) (h' : HasLead x l') : l = l' := by
  have hlt := lt_of_ten_zpow_lt (h.1.trans_lt h'.2)
  have hlt' := lt_of_ten_zpow_lt (h'.1.trans_lt h.2)
  omega

theorem HasLead.pos {x : ℚ} {l : Int} (h : HasLead x l) : 0 < x := (ten_zpow_pos l).trans_le h.1

/-- The leading digit stands above a place exactly if the number reaches the power behind it. -/
theorem HasLead.lt_iff {x : ℚ} {l : Int} (h : HasLead x l) {k : Int} :
    k < l ↔ (10 : ℚ) ^ (k + 1) ≤ x := by
  constructor
  · intro hlt
    exact (ten_zpow_le (by omega)).trans h.1
  · intro hle
    have hlt := lt_of_ten_zpow_lt (hle.trans_lt h.2)
    omega

/-- `x` is rounded to `y`: zero stays zero, and any other number goes to the nearest multiple of the
power of ten that belongs to its leading digit. -/
def RoundsOn (grid : Int → Int) (x y : ℚ) : Prop :=
  x = 0 ∧ y = 0 ∨ ∃ l, HasLead x l ∧ NearestEven (grid l) x y

/-- The grid that leaves 28 digits. -/
def digitGrid (lead : Int) : Int := lead + 1 - precision

/-- The grid of results: 28 digits, and none behind the last place of all. -/
def resultGrid (lead : Int) : Int := max (digitGrid lead) minQuantum

section RoundsOn

variable {grid : Int → Int} {c : Nat} {k : Int} {x y y' : ℚ}

theorem roundsOn_zero_iff : RoundsOn grid 0 y ↔ y = 0 := by
  constructor
  · rintro (⟨-, hy⟩ | ⟨l, hlead, -⟩)
    · exact hy
    · exact absurd hlead.pos (lt_irrefl 0)
  · intro hy
    exact Or.inl ⟨rfl, hy⟩

theorem roundsOn_iff (hc : c ≠ 0) :
    RoundsOn grid (magnitude c k) y ↔ NearestEven (grid (adjusted c k)) (magnitude c k) y := by
  constructor
  · rintro (⟨hx, -⟩ | ⟨l, hlead, hy⟩)
    · exact absurd hx (magnitude_pos hc k).ne'
    · rwa [hlead.unique (hasLead_adjusted hc k)] at hy
  · intro hy
    exact Or.inr ⟨_, hasLead_adjusted hc k, hy⟩

theorem RoundsOn.nonneg (h : RoundsOn grid x y) : 0 ≤ y := by
  rcases h with ⟨-, rfl⟩ | ⟨l, -, n, rfl, -, -⟩
  · exact le_rfl
  · exact magnitude_nonneg n _

/-- **There is only one number to which it is rounded.** -/
theorem RoundsOn.unique (h : RoundsOn grid x y) (h' : RoundsOn grid x y') : y = y' := by
  rcases h with ⟨hx, rfl⟩ | ⟨l, hlead, hy⟩
  · rw [hx, roundsOn_zero_iff] at h'
    exact h'.symm
  · rcases h' with ⟨hx, -⟩ | ⟨l', hlead', hy'⟩
    · exact absurd hx hlead.pos.ne'
    · rw [hlead'.unique hlead] at hy'
      exact hy.unique hy'

/-- **And there is one**, whichever grid belongs to the number. -/
theorem exists_roundsOn (grid : Int → Int) (c : Nat) (k : Int) :
    ∃ y, RoundsOn grid (magnitude c k) y := by
  by_cases hc : c = 0
  · exact ⟨0, Or.inl ⟨by rw [hc, magnitude_zero], rfl⟩⟩
  · obtain ⟨y, hy⟩ := exists_nearestEven (grid (adjusted c k)) c k
    exact ⟨y, (roundsOn_iff hc).2 hy⟩

end RoundsOn

end Decimal

end PaperVenue
