import PaperVenue.Proofs.Decimal.Quotient
import PaperVenue.Proofs.Strategy.Binding
import PaperVenue.Proofs.Strategy.Signal

/-!
# Sane orders

A binding checks that price and amount are positive, and one might think that this is enough for a
sane order: one of finite, positive quantity at a finite, positive price.  It is not.  An infinity
is positive too, and gets through.  Of finite amounts the quotient can overflow, or be so small that
it is rounded to zero.  And amounts that are too large to be written stop the candle at the note of
the signal.

`candle_endsSanely_iff` says that there is nothing else: between a binding and the next assignment a
candle ends sanely exactly if the settings are `Tradable` for it.  What carries over from the
binding to the candle is `IsBound`, which every step but an assignment keeps (`isBound_step`).
-/

namespace PaperVenue

namespace UpDown.Settings

/-- Settings that lead to a sane order for a candle: the four amounts that are known beforehand can
be written, and the exact quotient of amount and price is one that can be bought.  It does not
overflow, and it is more than half a unit of the last place of all. -/
structure Tradable (s : Settings) (c : Candle) : Prop where
  reportable : ∀ d ∈ [c.opening, c.close, s.entryPrice, s.quoteAmount], d.Reportable
  quotient : ∃ q p, s.quoteAmount.value? = some q ∧ s.entryPrice.value? = some p ∧
    ¬ Decimal.Overflows (q / p) ∧ (10 : ℚ) ^ Decimal.minQuantum < 2 * (q / p)

end UpDown.Settings

/-- Both amounts of the order are finite and positive. -/
def Order.IsSane (o : Order) : Prop :=
  ∀ d ∈ [o.request.quantity, o.request.price], d.isFinite ∧ d.IsPositive

namespace Desk

/-- The answer to a candle is as it should be: nothing failed, and if the strategy watches the
candle there is an order, which is sane. -/
def EndsSanely (s : UpDown.Settings) (c : Candle) (answer : Traced Failure Answer) : Prop :=
  ∃ placed, answer.outcome = .ok (.order placed) ∧
    (s.watches c → ∃ o, placed = some o ∧ o.IsSane)

/-! ## One candle -/

/-- **When a candle becomes a sane order**, for positive settings and a candle with numbers. -/
theorem exists_isSane_iff {d : Desk} {name : String} {x : Exchange} (hd : d.TradesOn name x)
    (hprice : d.strategy.settings.entryPrice.IsPositive)
    (hamount : d.strategy.settings.quoteAmount.IsPositive) {c : Candle}
    (hc : d.strategy.settings.watches c) (hcompare : (c.close.compare? c.opening).isSome) :
    (∃ o, (d.onCandle c).2.outcome = .ok (some o) ∧ o.IsSane) ↔
      d.strategy.settings.Tradable c := by
  constructor
  · rintro ⟨o, ho, hsane⟩
    obtain ⟨quantity, hdiv, -, hgiven, -, hrequest⟩ :=
      UpDown.Settings.outcome_signal_eq_ok_iff.1 (signal_of_onCandle ho)
    have hquantity : o.request.quantity = quantity := by rw [hrequest]; rfl
    have hpositive := hsane o.request.quantity List.mem_cons_self
    rw [hquantity] at hpositive
    exact ⟨hgiven, (Decimal.exists_div_isPositive_iff hamount hprice).1 ⟨quantity, hdiv, hpositive⟩⟩
  · intro htradable
    obtain ⟨q, p, hq, hp, -⟩ := htradable.quotient
    obtain ⟨quantity, hdiv, hpositive⟩ :=
      (Decimal.exists_div_isPositive_iff hamount hprice).2 htradable.quotient
    have hwritten : quantity.Reportable :=
      Decimal.reportable_of_div hq (Decimal.value_pos hamount hq) hp (Decimal.value_pos hprice hp)
        hdiv
    have hsignal := UpDown.Settings.outcome_signal_eq_ok_iff.2
      ⟨quantity, hdiv, hcompare, htradable.reportable, hwritten, rfl⟩
    refine ⟨_, (outcome_onCandle_eq_ok_iff hd hc).2 ⟨_, hsignal, rfl⟩, ?_⟩
    exact List.forall_mem_cons.2
      ⟨hpositive, List.forall_mem_singleton.2 ⟨Decimal.isFinite_of_value? hp, hprice⟩⟩

/-- **When the answer to a candle is as it should be.** -/
theorem endsSanely_iff {d : Desk} {name : String} {x : Exchange} (hd : d.TradesOn name x)
    (hprice : d.strategy.settings.entryPrice.IsPositive)
    (hamount : d.strategy.settings.quoteAmount.IsPositive) {c : Candle}
    (hcompare : (c.close.compare? c.opening).isSome) {answer : Traced Failure Answer}
    (hanswer : answer.outcome = (d.onCandle c).2.outcome.map Answer.order) :
    EndsSanely d.strategy.settings c answer ↔
      (d.strategy.settings.watches c → d.strategy.settings.Tradable c) := by
  cases hc : d.strategy.settings.watches c with
  | false =>
    rw [onCandle_unwatched hd.trading_eq hc] at hanswer
    refine iff_of_true ⟨none, hanswer, fun h => ?_⟩ Bool.noConfusion
    rw [hc] at h
    exact Bool.noConfusion h
  | true =>
    rw [← exists_isSane_iff hd hprice hamount hc hcompare, EndsSanely, hanswer]
    constructor
    · rintro ⟨placed, hplaced, hsane⟩ -
      obtain ⟨o, rfl, ho⟩ := hsane hc
      obtain ⟨placed, hplaced, hsame⟩ := map_eq_ok_iff.1 hplaced
      obtain rfl : placed = some o := Answer.order.inj hsame
      exact ⟨o, hplaced, ho⟩
    · intro h
      obtain ⟨o, hplaced, ho⟩ := h rfl
      exact ⟨some o, by rw [hplaced]; rfl, fun _ => ⟨o, rfl, ho⟩⟩

/-! ## From a binding to a candle -/

/-- The strategy is bound, with the settings that it has: they are filled in, their amounts are
positive, and the session that they name is the one that the strategy holds. -/
structure IsBound (d : Desk) : Prop where
  filled : d.strategy.settings.fill.1 = d.strategy.settings
  price_pos : d.strategy.settings.entryPrice.IsPositive
  amount_pos : d.strategy.settings.quoteAmount.IsPositive
  trading_eq : d.strategy.trading = some d.strategy.settings.tradingSession

theorem strategy_step_bind (d : Desk) :
    (d.step .bind).1.strategy = (d.strategy.bind d.sessionMap).1 := rfl

theorem outcome_step_bind_isOk (d : Desk) :
    (d.step .bind).2.outcome.isOk ↔ (d.strategy.bind d.sessionMap).2 = .ok () := by
  have houtcome : (d.step .bind).2.outcome =
      (d.strategy.bind d.sessionMap).2.map
        fun _ => Answer.settings (d.strategy.bind d.sessionMap).1.settings := Traced.outcome_map _ _
  rw [houtcome]
  cases (d.strategy.bind d.sessionMap).2 <;> simp [Except.map, Except.isOk, Except.toBool]

/-- A binding that succeeds binds the strategy. -/
theorem isBound_step_bind {d : Desk} (h : (d.step .bind).2.outcome.isOk) :
    (d.step .bind).1.IsBound := by
  have htrading := d.trading_step_bind
  obtain ⟨answer, hanswer⟩ : ∃ answer, (d.step .bind).2.outcome = .ok answer := by
    cases houtcome : (d.step .bind).2.outcome with
    | error e => rw [houtcome] at h; exact Bool.noConfusion h
    | ok answer => exact ⟨answer, rfl⟩
  rw [attached?, hanswer] at htrading
  rw [outcome_step_bind_isOk] at h
  obtain ⟨-, session, hsession⟩ := UpDown.exists_of_bind h
  have hchecked := (UpDown.exists_resolve_iff.1 ⟨session, hsession⟩).1
  have hsettings := UpDown.settings_bind d.strategy d.sessionMap
  obtain ⟨-, -, -, -, hprice, hamount⟩ := UpDown.Settings.validate_eq_ok_iff.1 hchecked
  rw [← hsettings] at hprice hamount
  refine ⟨?_, hprice, hamount, htrading⟩
  rw [strategy_step_bind, hsettings, UpDown.Settings.fill_fill]

/-- Being bound is about the settings and the session that is held. -/
theorem IsBound.congr {d d' : Desk} (h : d.IsBound)
    (hsettings : d'.strategy.settings = d.strategy.settings)
    (htrading : d'.strategy.trading = d.strategy.trading) : d'.IsBound := by
  refine ⟨?_, ?_, ?_, ?_⟩
  · rw [hsettings]; exact h.filled
  · rw [hsettings]; exact h.price_pos
  · rw [hsettings]; exact h.amount_pos
  · rw [hsettings, htrading]; exact h.trading_eq

/-- **Every step but an assignment keeps a strategy bound.** -/
theorem isBound_step {d : Desk} (h : d.IsBound) {t : Step} (ht : ∀ a, t ≠ .assign a) :
    (d.step t).1.IsBound := by
  cases t with
  | assign a => exact absurd rfl (ht a)
  | bind =>
    have hsettings : (d.step .bind).1.strategy.settings = d.strategy.settings := by
      rw [strategy_step_bind, UpDown.settings_bind, h.filled]
    refine h.congr hsettings ?_
    rw [trading_step_bind, attached?, hsettings, h.trading_eq]
    cases (d.step .bind).2.outcome <;> rfl
  | fillDefaults => exact h.congr h.filled rfl
  | candle c =>
    have hsame := strategy_onCandle { d with around := d.around.tick } c
    exact h.congr (congrArg UpDown.settings hsame) (congrArg UpDown.trading hsame)
  | perform name op =>
    have hsame := strategy_perform { d with around := d.around.tick } name op
    exact h.congr (congrArg UpDown.settings hsame) (congrArg UpDown.trading hsame)
  | _ => exact h.congr rfl rfl

/-- The strategy stays bound until the next assignment. -/
theorem isBound_after {d : Desk} (h : d.IsBound) {ts : List Step}
    (hts : ∀ a, Step.assign a ∉ ts) : (d.after ts).IsBound := by
  have hsteps : ∀ t ∈ ts, ∀ a, t ≠ .assign a := fun t ht a ha => hts a (ha ▸ ht)
  exact runs.invariant_of_forall (p := IsBound) (fun _ _ ht h => isBound_step h ht) h hsteps

/-- **When the answer to a candle is as it should be**: in a run at a desk, after a binding that
succeeded and no assignment since, on an exchange with dry-run on, for a candle with finite prices.
Either the strategy does not watch the candle, or price and amount are finite, all that the note of
the signal says can be written, and the quotient is neither too large nor too small. -/
theorem candle_endsSanely_iff (d : Desk) (hledgers : d.LedgersReachable) (past mid : List Step)
    (hbind : ((d.after past).step .bind).2.outcome.isOk) (hmid : ∀ a, Step.assign a ∉ mid)
    (c : Candle) (hopening : c.opening.isFinite) (hclose : c.close.isFinite)
    (future : List Step) :
    let before := past ++ .bind :: mid
    let now := d.after before
    let s := now.strategy.settings
    ∀ x, now.exchange? s.tradingSession = some x → x.dryRunOn now.around →
      ∃ answer, (d.run (before ++ .candle c :: future)).2[before.length]? = some answer ∧
        (EndsSanely s c answer ↔ (s.watches c → s.Tradable c)) := by
  intro before now s x hx hdry
  have hbound : now.IsBound := by
    have hafter : now = ((d.after past).step .bind).1.after mid :=
      runs.fst_append d past (.bind :: mid)
    rw [hafter]
    exact isBound_after (isBound_step_bind hbind) hmid
  have hcompare := Decimal.isSome_compare?_of_isFinite hclose hopening
  have hreachable : x.ledger.Reachable := ledgersReachable_after hledgers before _ x hx
  -- the candle closes one moment later, at a desk that is otherwise the same
  let later : Desk := { now with around := now.around.tick }
  have htrades : later.TradesOn s.tradingSession x := ⟨hbound.trading_eq, hx, hreachable, hdry⟩
  exact ⟨_, runs.getElem?_snd d before (.candle c) future,
    endsSanely_iff htrades hbound.price_pos hbound.amount_pos hcompare (Traced.outcome_map _ _)⟩

/-- A desk with an exchange, and a strategy that spends an amount per signal, at a price of four. -/
def spending (quoteAmount : Decimal) : Desk :=
  { sessions := [("binance", none), ("polymarket", some {})]
    strategy := { settings := { entryPrice := .ofNat 4, quoteAmount } } }

theorem ledgersReachable_spending (quoteAmount : Decimal) :
    (spending quoteAmount).LedgersReachable := by
  intro n x hx
  rw [exchange?, spending, Table.get?_cons, Table.get?_cons] at hx
  split_ifs at hx
  · cases hx
  · cases hx
    exact Ledger.reachable_fresh .polymarket
  · cases hx

/-- Multiples of the last place of all. -/
def smallest (n : Nat) : Decimal := .finite false n Decimal.minQuantum

/-- Three quarters of the smallest unit there is are rounded to one, and bought.  One half is
rounded to none, and the order is for nothing. -/
theorem candle_endsSanely_iff_smallest :
    (∃ answer, ((spending (smallest 3)).run [.bind, .candle flatCandle]).2[1]? = some answer ∧
      EndsSanely ((spending (smallest 3)).after [.bind]).strategy.settings flatCandle answer) ∧
    ∃ answer, ((spending (smallest 2)).run [.bind, .candle flatCandle]).2[1]? = some answer ∧
      ¬ EndsSanely ((spending (smallest 2)).after [.bind]).strategy.settings flatCandle answer := by
  have hfour : (Decimal.ofNat 4).value? = some 4 := by
    simp [Decimal.ofNat, Decimal.value?, Decimal.withSign, Decimal.magnitude]
  have hvalue : ∀ n : Nat, (smallest n).value? = some (n * (10 : ℚ) ^ Decimal.minQuantum) :=
    fun n => rfl
  have hpos := ten_zpow_pos Decimal.minQuantum
  constructor
  · obtain ⟨answer, hanswer, hsane⟩ := candle_endsSanely_iff (spending (smallest 3))
      (ledgersReachable_spending _) [] [] (by decide +kernel) (fun a => List.not_mem_nil) flatCandle
      rfl rfl [] {} rfl (by decide +kernel)
    refine ⟨answer, hanswer, hsane.2 fun _ => ⟨?_, _, _, hvalue 3, hfour, ?_, ?_⟩⟩
    · have hprice : ((spending (smallest 3)).after [.bind]).strategy.settings.entryPrice =
          .ofNat 4 := by decide +kernel
      have hamount : ((spending (smallest 3)).after [.bind]).strategy.settings.quoteAmount =
          smallest 3 := by decide +kernel
      rw [List.nil_append, hprice, hamount]
      simp only [List.forall_mem_cons, List.not_mem_nil, false_implies, implies_true, and_true]
      exact ⟨Decimal.not_tooLarge_of_adjusted_lt (by decide),
        Decimal.not_tooLarge_of_adjusted_lt (by decide),
        Decimal.not_tooLarge_of_adjusted_lt (by decide),
        Decimal.not_tooLarge_of_adjusted_lt (by decide)⟩
    · have hquotient : ((3 : Nat) : ℚ) * (10 : ℚ) ^ Decimal.minQuantum / 4 =
          Decimal.magnitude 75 (Decimal.minQuantum - 2) := by
        rw [Decimal.magnitude, zpow_sub₀ (by norm_num)]
        norm_num
        linarith
      rw [hquotient, ← Decimal.tooLarge_iff_overflows]
      exact Decimal.not_tooLarge_of_adjusted_lt (by decide)
    · push_cast
      linarith
  · obtain ⟨answer, hanswer, hsane⟩ := candle_endsSanely_iff (spending (smallest 2))
      (ledgersReachable_spending _) [] [] (by decide +kernel) (fun a => List.not_mem_nil) flatCandle
      rfl rfl [] {} rfl (by decide +kernel)
    refine ⟨answer, hanswer, fun h => ?_⟩
    obtain ⟨q, p, hq, hp, -, hlarge⟩ := (hsane.1 h (by decide +kernel)).quotient
    obtain rfl := Option.some.inj ((hvalue 2).symm.trans hq)
    obtain rfl := Option.some.inj (hfour.symm.trans hp)
    push_cast at hlarge
    linarith

/-- It takes more than a binding that succeeds: an infinite amount is positive, and the order for it
is placed. -/
theorem not_forall_endsSanely :
    ¬ ∀ (d : Desk) (_ : d.LedgersReachable) (past mid : List Step)
      (_ : ((d.after past).step .bind).2.outcome.isOk) (_ : ∀ a, Step.assign a ∉ mid) (c : Candle)
      (_ : c.opening.isFinite) (_ : c.close.isFinite) (future : List Step),
      let before := past ++ .bind :: mid
      let now := d.after before
      let s := now.strategy.settings
      ∀ x, now.exchange? s.tradingSession = some x → x.dryRunOn now.around →
        ∃ answer, (d.run (before ++ .candle c :: future)).2[before.length]? = some answer ∧
          EndsSanely s c answer := by
  intro h
  obtain ⟨answer, hanswer, placed, hplaced, hsane⟩ := h (spending (.infinity false))
    (ledgersReachable_spending _) [] [] (by decide +kernel) (fun a => List.not_mem_nil) flatCandle
    rfl rfl [] {} rfl (by decide +kernel)
  obtain ⟨o, rfl, ho⟩ := hsane (by decide +kernel)
  obtain rfl := Option.some.inj hanswer
  cases hplaced
  exact absurd (ho (.infinity false) List.mem_cons_self).1 Bool.false_ne_true

end Desk

end PaperVenue
