import PaperVenue.Account
import PaperVenue.Proofs.Decimal.Sum

/-!
# The total of a balance

The total is a sum of decimals, and so it is rounded, or it overflows.  What can be relied on is
this: of amounts that are not negative and are results of arithmetic themselves, it is the exact sum
rounded once to 28 digits.  All that is expected of a total follows from that, because rounding keeps
the order and leaves results as they are.
-/

namespace PaperVenue

namespace Balance

/-- The balance holds these amounts: numbers that are not negative, with at most 28 digits apart from
zeros at their ends, that are multiples of `1E-1000026` and at most `9.99…9E+999999`. -/
structure Holds (b : Balance) (x y : ℚ) : Prop where
  available_eq : b.available.value? = some x
  available_nonneg : 0 ≤ x
  available_fits : Decimal.Fits x
  locked_eq : b.locked.value? = some y
  locked_nonneg : 0 ≤ y
  locked_fits : Decimal.Fits y

/-- The same amounts, the free one in place of the bound one. -/
def swapped (b : Balance) : Balance := { b with available := b.locked, locked := b.available }

namespace Holds

variable {b b' : Balance} {x y x' y' : ℚ}

/-- The exact sum is a multiple of the last place of all. -/
theorem exists_multiple (h : b.Holds x y) :
    ∃ n, x + y = Decimal.magnitude n Decimal.minQuantum := by
  obtain ⟨m, hm⟩ := h.available_fits.multiple
  obtain ⟨n, hn⟩ := h.locked_fits.multiple
  exact ⟨m + n, by rw [hm, hn, Decimal.magnitude_add]⟩

/-- **The total overflows, or it is the exact sum rounded.** -/
theorem total_cases (h : b.Holds x y) :
    b.total = .error .overflow ∧ Decimal.Overflows (x + y) ∨
      ∃ d z, b.total = .ok d ∧ d.value? = some z ∧
        Decimal.RoundsOn Decimal.resultGrid (x + y) z ∧ ¬ Decimal.Overflows (x + y) :=
  Decimal.add_cases h.available_eq h.available_nonneg h.locked_eq h.locked_nonneg

/-- **The total of a balance** of two such amounts `x` and `y`.

* It does not matter which of them is free and which is bound.
* It overflows exactly if the exact sum, rounded to 28 digits, is out of range.  Otherwise it is the
  exact sum rounded to 28 digits, half to even; it is below neither of the amounts, and it is the
  exact sum if that has no more than 28 digits.
* A balance that holds as much or more of both has a total that is not smaller, or that overflows;
  and it overflows if the smaller one does. -/
theorem total_spec (h : b.Holds x y) :
    b.swapped.total = b.total ∧
    (b.total = .error .overflow ∧ Decimal.Overflows (x + y) ∨
      ∃ d z, b.total = .ok d ∧ ¬ Decimal.Overflows (x + y) ∧ d.value? = some z ∧
        Decimal.RoundsOn Decimal.digitGrid (x + y) z ∧ x ≤ z ∧ y ≤ z ∧
        ((∃ a j, a < 10 ^ Decimal.precision ∧ x + y = Decimal.magnitude a j) → z = x + y)) ∧
    ∀ (b' : Balance) (x' y' : ℚ), b'.Holds x' y' → x ≤ x' → y ≤ y' →
      (b.total = .error .overflow → b'.total = .error .overflow) ∧
      ∀ d z d' z', b.total = .ok d → d.value? = some z → b'.total = .ok d' →
        d'.value? = some z' → z ≤ z' := by
  obtain ⟨n, hn⟩ := h.exists_multiple
  refine ⟨?_, ?_, fun b' x' y' h' hx hy => ⟨fun hover => ?_, fun d z d' z' hd hz hd' hz' => ?_⟩⟩
  · exact Decimal.add_comm_of_isFinite (Decimal.isFinite_of_value? h.locked_eq)
      (Decimal.isFinite_of_value? h.available_eq)
  · refine h.total_cases.imp_right ?_
    rintro ⟨d, z, hd, hz, hround, hfits⟩
    have hdigits : Decimal.RoundsOn Decimal.digitGrid (x + y) z := by
      rw [hn] at hround ⊢
      exact Decimal.roundsOn_digitGrid_of_multiple hround
    refine ⟨d, z, hd, hfits, hz, hdigits, ?_, ?_, ?_⟩
    · exact Decimal.roundsOn_resultGrid_mono h.available_fits.roundsOn hround
        (le_add_of_nonneg_right h.locked_nonneg)
    · exact Decimal.roundsOn_resultGrid_mono h.locked_fits.roundsOn hround
        (le_add_of_nonneg_left h.available_nonneg)
    · rintro ⟨a, j, ha, hshort⟩
      rw [hshort] at hdigits ⊢
      exact hdigits.unique (Decimal.roundsOn_digitGrid_self ha j)
  · obtain ⟨w, hw⟩ := Decimal.exists_roundsOn Decimal.resultGrid n Decimal.minQuantum
    rw [← hn] at hw
    rcases h.total_cases with ⟨-, hlarge⟩ | ⟨d, z, hd, -⟩
    · rcases h'.total_cases with ⟨herror, -⟩ | ⟨d', z', -, -, hround', hfits'⟩
      · exact herror
      · exact absurd (Decimal.overflows_mono hw hround' (add_le_add hx hy) hlarge) hfits'
    · exact absurd (hover.symm.trans hd) nofun
  · rcases h.total_cases with ⟨herror, -⟩ | ⟨_, _, hd₁, hz₁, hround, -⟩
    · exact absurd (herror.symm.trans hd) nofun
    rcases h'.total_cases with ⟨herror', -⟩ | ⟨_, _, hd₁', hz₁', hround', -⟩
    · exact absurd (herror'.symm.trans hd') nofun
    obtain rfl := Except.ok.inj (hd₁.symm.trans hd)
    obtain rfl := Except.ok.inj (hd₁'.symm.trans hd')
    obtain rfl := Option.some.inj (hz₁.symm.trans hz)
    obtain rfl := Option.some.inj (hz₁'.symm.trans hz')
    exact Decimal.roundsOn_resultGrid_mono hround hround' (add_le_add hx hy)

/-- Twenty-eight nines, and half a unit of the last of them. -/
def carrying : Balance :=
  { currency := "USDC", available := .finite false (10 ^ 28 - 1) 0, locked := .finite false 5 (-1) }

/-- The total of that is a carry: the tie goes up to a number of 29 digits, of which 28 are kept. -/
theorem total_spec_carrying :
    carrying.Holds (Decimal.magnitude (10 ^ 28 - 1) 0) (Decimal.magnitude 5 (-1)) ∧
      carrying.total = .ok (.finite false (10 ^ 27) 1) ∧
      carrying.swapped.total = .ok (.finite false (10 ^ 27) 1) ∧
      Decimal.magnitude (10 ^ 28 - 1) 0 ≤ Decimal.magnitude (10 ^ 27) 1 := by
  have hholds : carrying.Holds (Decimal.magnitude (10 ^ 28 - 1) 0) (Decimal.magnitude 5 (-1)) :=
    ⟨rfl, Decimal.magnitude_nonneg _ _,
      Decimal.fits_of_digitCount_le (by decide +kernel) (by decide) (by decide +kernel),
      rfl, Decimal.magnitude_nonneg _ _,
      Decimal.fits_of_digitCount_le (by decide +kernel) (by decide) (by decide +kernel)⟩
  have htotal : carrying.total = .ok (.finite false (10 ^ 27) 1) := by decide +kernel
  obtain ⟨hswapped, hover | ⟨d, z, hd, -, hz, -, hle, -, -⟩, -⟩ := hholds.total_spec
  · exact absurd (hover.1.symm.trans htotal) nofun
  · obtain rfl := Except.ok.inj (hd.symm.trans htotal)
    obtain rfl := Option.some.inj hz
    exact ⟨hholds, htotal, hswapped.trans htotal, hle⟩

end Holds

end Balance

end PaperVenue
