import PaperVenue.Proofs.Decimal.Quotient
import PaperVenue.Proofs.Strategy.Signal

/-!
# The size of an order

A strategy orders for the quotient of its amount and its price, and no quotient of decimals is exact
in general.  `orderSize_spec` says how good it is, and that its errors never turn the order around:
whoever spends more at a lower price does not get less.

Nothing depends on how amount and price are written, on the candle, or on the desk.  So the quantity
is a matter of the settings, `Settings.Submits`, and the rest is about the nearest number of 28
digits.
-/

namespace PaperVenue

namespace UpDown.Settings

/-- The settings have this price and this amount, which are positive, and their quotient is in the
range of the numbers that keep 28 digits. -/
structure Priced (s : Settings) (p q : ℚ) : Prop where
  price_eq : s.entryPrice.value? = some p
  price_pos : 0 < p
  amount_eq : s.quoteAmount.value? = some q
  amount_pos : 0 < q
  normal : Decimal.Normal (q / p)

/-- The quantity that a strategy with these settings submits.  It is computed from the settings; it
is what every signal asks for, and what every order is for that comes of a candle.  And at an
exchange with dry-run on an order does come of a candle, if the strategy watches it, if its prices
compare, and if the amounts can be written. -/
structure Submits (s : Settings) (quantity : Decimal) : Prop where
  computed : s.quantity = .ok quantity
  of_signal : ∀ {c : Candle} {r : OrderRequest}, (s.signal c).outcome = .ok r →
    r.quantity = quantity
  of_candle : ∀ {d : Desk} {c : Candle} {o : Order}, d.strategy.settings = s →
    (d.onCandle c).2.outcome = .ok (some o) → o.request.quantity = quantity
  exists_order : ∀ {d : Desk} {name : String} {x : Exchange} {c : Candle}, d.strategy.settings = s →
    d.TradesOn name x → s.watches c → (c.close.compare? c.opening).isSome →
    (∀ a ∈ [c.opening, c.close, s.entryPrice, s.quoteAmount], a.Reportable) →
    ∃ o, (d.onCandle c).2.outcome = .ok (some o)

/-- What is computed is submitted, if it can be written. -/
theorem submits_of_quantity {s : Settings} {quantity : Decimal} (h : s.quantity = .ok quantity)
    (hwritten : quantity.Reportable) : s.Submits quantity := by
  have hsignal : ∀ {c : Candle} {r : OrderRequest}, (s.signal c).outcome = .ok r →
      r.quantity = quantity := by
    intro c r hr
    obtain ⟨quantity', hquantity', -, -, -, rfl⟩ := outcome_signal_eq_ok_iff.1 hr
    exact Except.ok.inj (hquantity'.symm.trans h)
  refine ⟨h, hsignal, ?_, ?_⟩
  · rintro d c o rfl ho
    exact hsignal (Desk.signal_of_onCandle ho)
  · rintro d name x c rfl hd hc hcompare hgiven
    have hr := outcome_signal_eq_ok_iff.2 ⟨quantity, h, hcompare, hgiven, hwritten, rfl⟩
    exact ⟨_, (Desk.outcome_onCandle_eq_ok_iff hd hc).2 ⟨_, hr, rfl⟩⟩

namespace Priced

variable {s : Settings} {p q : ℚ}

/-- **The quantity is the quotient, rounded once.** -/
theorem exists_quantity (h : s.Priced p q) :
    ∃ c e, s.quantity = .ok (.finite false c e) ∧
      Decimal.RoundsOn Decimal.resultGrid (q / p) (Decimal.magnitude c e) := by
  rcases Decimal.div_cases_of_value h.amount_eq h.amount_pos h.price_eq h.price_pos with
    ⟨-, hover⟩ | ⟨c, e, hok, hround, -⟩
  · exact absurd hover h.normal.not_overflows
  · exact ⟨c, e, hok, hround⟩

/-- **The quantity is worth what is spent**, up to half a unit of the 28th digit. -/
theorem abs_mul_sub_le (h : s.Priced p q) {x : ℚ}
    (hx : Decimal.RoundsOn Decimal.resultGrid (q / p) x) :
    |x * p - q| ≤ 5 * (10 : ℚ) ^ (-28 : Int) * q := by
  have hp := h.price_pos
  have hquotient : q / p * p = q := div_mul_cancel₀ q hp.ne'
  calc |x * p - q| = |(x - q / p) * p| := by rw [sub_mul, hquotient]
    _ = |q / p - x| * p := by rw [abs_mul, abs_of_pos hp, abs_sub_comm]
    _ ≤ 5 * (10 : ℚ) ^ (-28 : Int) * (q / p) * p :=
        mul_le_mul_of_nonneg_right (h.normal.abs_sub_le hx) hp.le
    _ = 5 * (10 : ℚ) ^ (-28 : Int) * q := by rw [mul_assoc, hquotient]

/-- **A quotient of up to 28 digits is exact.** -/
theorem mul_eq (h : s.Priced p q) {x : ℚ} (hx : Decimal.RoundsOn Decimal.resultGrid (q / p) x)
    (hshort : ∃ a j, a < 10 ^ Decimal.precision ∧ q / p = Decimal.magnitude a j) : x * p = q := by
  have hexact := (h.normal.fits hshort).roundsOn
  rw [hx.unique hexact, div_mul_cancel₀ q h.price_pos.ne']

/-- **The size of an order.**  For a positive price `p` and a positive amount `q`, of any length,
with a quotient from `1E-999999` to `9.99…9E+999999` (of 28 digits), the quantity is a number `x`
with these properties.

* At the price it is worth the amount up to `5E-28` of it.
* It is worth the amount exactly if the quotient has no more than 28 digits.
* Another strategy that spends as much or more, at the same price or a lower one, submits a quantity
  that is not smaller. -/
theorem orderSize_spec (h : s.Priced p q) :
    ∃ quantity x, s.Submits quantity ∧ quantity.value? = some x ∧
      |x * p - q| ≤ 5 * (10 : ℚ) ^ (-28 : Int) * q ∧
      ((∃ a j, a < 10 ^ Decimal.precision ∧ q / p = Decimal.magnitude a j) → x * p = q) ∧
      ∀ (s' : Settings) (p' q' : ℚ), s'.Priced p' q' → q ≤ q' → p' ≤ p →
        ∀ quantity', s'.Submits quantity' → ∃ x', quantity'.value? = some x' ∧ x ≤ x' := by
  obtain ⟨c, e, hquantity, hround⟩ := h.exists_quantity
  have hwritten : (Decimal.finite false c e).Reportable :=
    Decimal.reportable_of_roundsOn hround h.normal.not_overflows false
  refine ⟨_, _, submits_of_quantity hquantity hwritten, rfl, h.abs_mul_sub_le hround,
    h.mul_eq hround, ?_⟩
  intro s' p' q' h' hq hp quantity' hsubmits
  obtain ⟨c', e', hquantity', hround'⟩ := h'.exists_quantity
  obtain rfl := Except.ok.inj (hquantity'.symm.trans hsubmits.computed)
  have hle : q / p ≤ q' / p' := div_le_div₀ h'.amount_pos.le hq h'.price_pos hp
  exact ⟨_, rfl, Decimal.roundsOn_resultGrid_mono hround hround' hle⟩

/-- Settings with whole numbers. -/
theorem of_ofNat {price amount : Nat} (hprice : 0 < price) (hamount : 0 < amount)
    (h : Decimal.Normal ((amount : ℚ) / price)) :
    Priced { entryPrice := .ofNat price, quoteAmount := .ofNat amount } price amount := by
  have hvalue : ∀ n : Nat, (Decimal.ofNat n).value? = some (n : ℚ) := by
    intro n
    simp [Decimal.ofNat, Decimal.value?, Decimal.withSign, Decimal.magnitude]
  exact ⟨hvalue price, Nat.cast_pos.2 hprice, hvalue amount, Nat.cast_pos.2 hamount, h⟩

/-- One at a price of eight is an eighth exactly; at a price of three it is not less. -/
theorem orderSize_spec_eighth :
    let eighth : Settings := { entryPrice := .ofNat 8, quoteAmount := .ofNat 1 }
    let third : Settings := { entryPrice := .ofNat 3, quoteAmount := .ofNat 1 }
    eighth.Priced 8 1 ∧ third.Priced 3 1 ∧
      ∃ quantity x, eighth.Submits quantity ∧ quantity.value? = some x ∧ x * 8 = 1 ∧
        ∀ quantity', third.Submits quantity' → ∃ x', quantity'.value? = some x' ∧ x ≤ x' := by
  intro eighth third
  have heighth : Decimal.Normal (((1 : Nat) : ℚ) / (8 : Nat)) :=
    Decimal.normal_of_hasLead (l := -1) ⟨by norm_num, by norm_num⟩ (by decide) (by decide)
  have hthird : Decimal.Normal (((1 : Nat) : ℚ) / (3 : Nat)) :=
    Decimal.normal_of_hasLead (l := -1) ⟨by norm_num, by norm_num⟩ (by decide) (by decide)
  have hpriced : eighth.Priced 8 1 := by exact_mod_cast of_ofNat (by decide) (by decide) heighth
  have hpriced' : third.Priced 3 1 := by exact_mod_cast of_ofNat (by decide) (by decide) hthird
  obtain ⟨quantity, x, hsubmits, hx, -, hexact, hmono⟩ := hpriced.orderSize_spec
  have hshort : ∃ a j, a < 10 ^ Decimal.precision ∧ (1 : ℚ) / 8 = Decimal.magnitude a j :=
    ⟨125, -3, by decide, by norm_num [Decimal.magnitude]⟩
  exact ⟨hpriced, hpriced', quantity, x, hsubmits, hx, hexact hshort,
    hmono third 3 1 hpriced' le_rfl (by norm_num)⟩

end Priced

end UpDown.Settings

end PaperVenue
