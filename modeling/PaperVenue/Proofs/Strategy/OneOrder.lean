import PaperVenue.Proofs.Strategy.Attached

/-!
# One order per signal

A candle that closes is a signal if the strategy watches it, and a signal becomes one order or none.
`candle_in_run` says which, at any point of any run at a desk: the order goes to the exchange of the
last successful binding, gets the next number there, and buys what the settings of that moment say.

The proof goes the way of the candle: the signal is a request, unless an amount signals
(`signal_cases`); the request is sent to the session that the strategy holds (`onCandle_of_signal`);
and there it is accepted or turned away (`send_dryRun`, `send_live`).  Noting the order cannot
signal any more, because the note of the signal has written the same amounts before.
-/

namespace PaperVenue

/-- One decimal is larger than another if comparing them says so. -/
theorem Decimal.gt_eq_ok_iff {a b : Decimal} {larger : Bool} :
    a.gt b = .ok larger ↔ ∃ o, compare? a b = some o ∧ larger = (o == .gt) := by
  rw [gt]
  cases compare? a b <;> simp [eq_comm]

namespace UpDown.Settings

/-! ## The signal -/

/-- A candle is watched if its symbol and its interval are those of the settings. -/
theorem watches_iff {s : Settings} {c : Candle} :
    s.watches c = true ↔ c.symbol = s.sourceSymbol ∧ c.interval = s.interval := by
  simp [watches]

/-- The amounts of a signal that was noted can be written. -/
theorem reportable_of_signalFields {s : Settings} {c : Candle} {r : OrderRequest}
    {fields : List (String × FieldValue)} (h : s.signalFields c r = .ok fields) :
    s.entryPrice.Reportable ∧ r.quantity.Reportable := by
  rw [← Decimal.exists_plainText_iff, ← Decimal.exists_plainText_iff]
  rw [signalFields] at h
  obtain ⟨_, _, h⟩ := bind_eq_ok_iff.1 h
  obtain ⟨_, _, h⟩ := bind_eq_ok_iff.1 h
  obtain ⟨price, hprice, h⟩ := bind_eq_ok_iff.1 h
  obtain ⟨_, _, h⟩ := bind_eq_ok_iff.1 h
  obtain ⟨quantity, hquantity, _⟩ := bind_eq_ok_iff.1 h
  exact ⟨⟨price, hprice⟩, ⟨quantity, hquantity⟩⟩

/-- The request for a signal of a candle, with a quantity: it buys the market that pays if the price
goes up exactly if the candle closed above its open. -/
def requestFor (s : Settings) (c : Candle) (quantity : Decimal) : OrderRequest :=
  { symbol := if c.close.compare? c.opening = some .gt then s.upSymbol else s.downSymbol
    side := .buy, orderType := .limit, quantity, price := s.entryPrice
    timeInForce := .goodTillCanceled, tag := some strategyId, clientOrderId := none }

/-- **The signal of a candle**: an amount signals, or it is a request whose amounts can be
written. -/
theorem signal_cases (s : Settings) (c : Candle) :
    (∃ e, (s.signal c).outcome = .error (.arithmetic e)) ∨
      ∃ quantity, s.quoteAmount.div s.entryPrice = .ok quantity ∧
        s.entryPrice.Reportable ∧ quantity.Reportable ∧
        (s.signal c).outcome = .ok (s.requestFor c quantity) := by
  simp only [signal, Traced.outcome_bind, Traced.outcome_ofExcept]
  cases hup : c.close.gt c.opening with
  | error e => exact Or.inl ⟨e, rfl⟩
  | ok up =>
    cases hquantity : s.quantity with
    | error e => exact Or.inl ⟨e, rfl⟩
    | ok quantity =>
      dsimp only [mapError_ok]
      cases hfields : s.signalFields c (s.request up quantity) with
      | error e => exact Or.inl ⟨e, rfl⟩
      | ok fields =>
        obtain ⟨hprice, hreportable⟩ := reportable_of_signalFields hfields
        obtain ⟨o, ho, rfl⟩ := Decimal.gt_eq_ok_iff.1 hup
        refine Or.inr ⟨quantity, hquantity, hprice, hreportable, ?_⟩
        rw [requestFor, ho]
        cases o <;> rfl

end UpDown.Settings

namespace Desk

/-! ## Sending a request -/

/-- A venue error becomes an answer without an order; everything else is passed on. -/
theorem outcome_settle_of_rejected {answer : Traced Failure Order} (h : Rejected answer) :
    (settle answer).outcome = .ok none := by
  obtain ⟨e, he, -⟩ := h
  rw [settle, he]
  rfl

theorem outcome_settle_of_ok {answer : Traced Failure Order} {o : Order}
    (h : answer.outcome = .ok o) : (settle answer).outcome = .ok (some o) := by
  rw [settle, h]
  dsimp only
  rw [Traced.outcome_map, h]
  rfl

variable {d : Desk} {name : String} {x : Exchange}

theorem send_eq (hx : d.exchange? name = some x) (r : OrderRequest) :
    d.send name r = (d.withExchange name (x.submit d.around r).1,
      settle (x.submit d.around r).2) := by
  rw [send, hx]

/-- With dry-run off a request is turned away, and every exchange stays as it is. -/
theorem send_live (hx : d.exchange? name = some x) (hlive : x.dryRunOn d.around = false)
    (r : OrderRequest) :
    (d.send name r).2.outcome = .ok none ∧
      ∀ m, (d.send name r).1.exchange? m = d.exchange? m := by
  have hfst := x.fst_submit d.around r
  have hrejected : Rejected (x.submit d.around r).2 := by
    rw [Rejected, x.outcome_submit, hlive]
    exact ⟨.liveTrading, rfl, rfl⟩
  rw [hlive] at hfst
  rw [send_eq hx]
  refine ⟨outcome_settle_of_rejected hrejected, fun m => ?_⟩
  rw [exchange?_withExchange, hfst]
  split
  · subst m; exact hx.symm
  · rfl

/-- With dry-run on a request whose amounts can be written becomes the next order. -/
theorem send_dryRun (hx : d.exchange? name = some x) (hreachable : x.ledger.Reachable)
    (hdry : x.dryRunOn d.around = true) {r : OrderRequest} (hq : r.quantity.Reportable)
    (hp : r.price.Reportable) :
    let o := Order.accept (x.ledger.size + 1) x.ledger.venue d.around.now r
    (d.send name r).2.outcome = .ok (some o) ∧
      (d.send name r).1.exchange? name = some { x with ledger := x.ledger.extended o } := by
  intro o
  have ho : Gate.submit x.ledger d.around.now r true = (x.ledger.extended o, Gate.announce o) := by
    rw [Gate.submit_dryRun_of_reachable hreachable, hreachable.nextId_eq]
  have hfst := x.fst_submit d.around r
  have houtcome : (x.submit d.around r).2.outcome = .ok o := by
    rw [x.outcome_submit, hdry, ho]
    exact (Gate.announce_of_reportable hq hp).1
  rw [hdry, ho] at hfst
  rw [send_eq hx, exchange?_withExchange, if_pos rfl, hfst]
  exact ⟨outcome_settle_of_ok houtcome, rfl⟩

theorem send_elsewhere (d : Desk) (r : OrderRequest) {other : String} (h : name ≠ other) :
    (d.send name r).1.exchange? other = d.exchange? other := by
  rw [send]
  cases d.exchange? name with
  | none => rfl
  | some x => exact (d.exchange?_withExchange name _ other).trans (if_neg h)

/-! ## A candle -/

theorem onCandle_unwatched (hname : d.strategy.trading = some name) {c : Candle}
    (hc : d.strategy.settings.watches c = false) : d.onCandle c = (d, pure none) := by
  rw [onCandle, hname]
  dsimp only
  rw [hc]
  rfl

/-- A signal is sent to the session that the strategy holds. -/
theorem onCandle_of_signal (hname : d.strategy.trading = some name) {c : Candle}
    (hc : d.strategy.settings.watches c) {r : OrderRequest}
    (hr : (d.strategy.settings.signal c).outcome = .ok r) :
    (d.onCandle c).1 = (d.send name r).1 ∧
      (d.onCandle c).2.outcome = (d.send name r).2.outcome := by
  rw [onCandle, hname]
  dsimp only
  rw [if_pos hc, hr]
  dsimp only
  rw [Traced.outcome_bind, hr]
  exact ⟨rfl, rfl⟩

/-- A candle changes no exchange but the one that the strategy holds. -/
theorem onCandle_elsewhere (hname : d.strategy.trading = some name) (c : Candle) {other : String}
    (h : name ≠ other) : (d.onCandle c).1.exchange? other = d.exchange? other := by
  rw [onCandle, hname]
  dsimp only
  split
  · split
    · rfl
    · exact d.send_elsewhere _ h
  · rfl

/-- **One order per signal.**  At any point of a run at a desk, after a binding that succeeded, a
candle closes.  Let `name` be the exchange that the last successful binding attached.

* No other exchange changes.
* If the candle is not of the symbol and the interval that the settings of that moment watch, the
  answer is that there is no order, and nothing changes.
* If it is, and no amount signals, then what happens depends on the mode of that exchange.  With
  dry-run on, the exchange gains one order, under the next number, and the answer is this order;
  with dry-run off, the answer is that there is no order, and nothing changes. -/
theorem candle_in_run (d : Desk) (hledgers : d.LedgersReachable) (past : List Step)
    {name : String} (hname : d.lastAttached past = some name)
    (hexchange : (d.exchange? name).isSome) (c : Candle) (future : List Step) :
    let now := d.after past
    let next := d.after (past ++ [.candle c])
    let s := now.strategy.settings
    ∃ x answer, now.exchange? name = some x ∧
      (d.run (past ++ .candle c :: future)).2[past.length]? = some answer ∧
      (∀ other, name ≠ other → next.exchange? other = now.exchange? other) ∧
      (¬ (c.symbol = s.sourceSymbol ∧ c.interval = s.interval) →
        answer.outcome = .ok (.order none) ∧ ∀ m, next.exchange? m = now.exchange? m) ∧
      (c.symbol = s.sourceSymbol → c.interval = s.interval →
        (∀ e, (s.signal c).outcome ≠ .error (.arithmetic e)) →
        if x.dryRunOn now.around then
          ∃ quantity, s.quoteAmount.div s.entryPrice = .ok quantity ∧
            let o := Order.accept (x.ledger.size + 1) x.ledger.venue (now.around.now + 1)
              { symbol := if c.close.compare? c.opening = some .gt then s.upSymbol
                  else s.downSymbol
                side := .buy, orderType := .limit, quantity, price := s.entryPrice
                timeInForce := .goodTillCanceled, tag := some UpDown.strategyId
                clientOrderId := none }
            answer.outcome = .ok (.order (some o)) ∧
              next.exchange? name = some { x with ledger := x.ledger.extended o }
        else answer.outcome = .ok (.order none) ∧ ∀ m, next.exchange? m = now.exchange? m) := by
  intro now next s
  obtain ⟨x, hx⟩ := exchange?_after hexchange past
  have hreachable : x.ledger.Reachable := ledgersReachable_after hledgers past name x hx
  have htrading : now.strategy.trading = some name := by
    rw [trading_after, hname]
    rfl
  -- the candle closes one moment later, at a desk that is otherwise the same
  let later : Desk := { now with around := now.around.tick }
  have hnext : next = (later.onCandle c).1 := runs.fst_concat d past (.candle c)
  have hanswer := runs.getElem?_snd d past (.candle c) future
  have houtcome : (now.step (.candle c)).2.outcome =
      (later.onCandle c).2.outcome.map Answer.order := Traced.outcome_map _ _
  refine ⟨x, _, hx, hanswer, ?_, ?_, ?_⟩
  · intro other hother
    rw [hnext]
    exact onCandle_elsewhere (d := later) htrading c hother
  · intro hother
    have hunwatched : s.watches c = false := by
      rw [← Bool.not_eq_true, UpDown.Settings.watches_iff]
      exact hother
    have hnone := onCandle_unwatched (d := later) htrading hunwatched
    rw [hnone] at hnext houtcome
    exact ⟨houtcome, fun m => by rw [hnext]; rfl⟩
  · intro hsymbol hinterval hquiet
    have hwatches : s.watches c = true := UpDown.Settings.watches_iff.2 ⟨hsymbol, hinterval⟩
    rcases s.signal_cases c with ⟨e, he⟩ | ⟨quantity, hquantity, hprice, hreportable, hrequest⟩
    · exact absurd he (hquiet e)
    obtain ⟨hfst, hsnd⟩ := onCandle_of_signal (d := later) htrading hwatches hrequest
    rw [hfst] at hnext
    rw [hsnd] at houtcome
    cases hdry : x.dryRunOn now.around with
    | true =>
      obtain ⟨hsent, hgained⟩ := send_dryRun (d := later) hx hreachable hdry
        (r := s.requestFor c quantity) hreportable hprice
      rw [hsent] at houtcome
      rw [← hnext] at hgained
      exact ⟨quantity, hquantity, houtcome, hgained⟩
    | false =>
      obtain ⟨hsent, hsame⟩ := send_live (d := later) hx hdry (s.requestFor c quantity)
      rw [hsent] at houtcome
      exact ⟨houtcome, fun m => by rw [hnext, hsame]; rfl⟩

/-- A feed that is only a name, and two exchanges. -/
def twoExchanges : Desk :=
  { sessions := [("binance", none), ("polymarket", some {}), ("spare", some {})] }

/-- A binding with the default settings, and a change of the settings to the other exchange. -/
def boundThenReassigned : List Step := [.bind, .assign { tradingSession := some "spare" }]

/-- A candle that the default settings watch, which closes where it opened. -/
def flatCandle : Candle :=
  { symbol := "BTCUSDT", interval := "15m", opening := .ofNat 1, close := .ofNat 1 }

/-- A candle that closes where it opened buys the other market, on the exchange that was attached
and not on the one that the settings name. -/
theorem candle_in_run_boundThenReassigned :
    (twoExchanges.LedgersReachable ∧
      twoExchanges.lastAttached boundThenReassigned = some "polymarket" ∧
      (twoExchanges.exchange? "polymarket").isSome ∧
      (twoExchanges.after boundThenReassigned).strategy.settings.tradingSession = "spare") ∧
    ∃ answer, (twoExchanges.run (boundThenReassigned ++ [.candle flatCandle])).2[2]? = some answer ∧
      answer.outcome = .ok (.order (some (Order.accept 1 .polymarket 3
        { symbol := "PM_BTC_15M_UP_NO_USDC", side := .buy, orderType := .limit
          quantity := .finite false 1 1, price := .finite false 5 (-1)
          tag := some "polymarket-btc15m-updown" }))) := by
  have hledgers : twoExchanges.LedgersReachable := by
    intro n x hx
    rw [exchange?, twoExchanges, Table.get?_cons, Table.get?_cons, Table.get?_cons] at hx
    split_ifs at hx
    · cases hx
    · cases hx
      exact Ledger.reachable_fresh .polymarket
    · cases hx
      exact Ledger.reachable_fresh .polymarket
    · cases hx
  have hname : twoExchanges.lastAttached boundThenReassigned = some "polymarket" := by
    decide +kernel
  have hexchange : (twoExchanges.exchange? "polymarket").isSome := by decide +kernel
  have hreassigned : (twoExchanges.after boundThenReassigned).strategy.settings.tradingSession =
      "spare" := by decide +kernel
  refine ⟨⟨hledgers, hname, hexchange, hreassigned⟩, ?_⟩
  obtain ⟨x, answer, hx, hanswer, -, -, hsignal⟩ :=
    candle_in_run twoExchanges hledgers boundThenReassigned hname hexchange flatCandle []
  obtain rfl : ({} : Exchange) = x := Option.some.inj hx
  have hquantity : Decimal.div (.ofNat 5) (.finite false 5 (-1)) = .ok (.finite false 1 1) := rfl
  have hnoted : ((twoExchanges.after boundThenReassigned).strategy.settings.signal
      flatCandle).outcome.isOk := by decide +kernel
  have hquiet : ∀ e, ((twoExchanges.after boundThenReassigned).strategy.settings.signal
      flatCandle).outcome ≠ .error (.arithmetic e) :=
    fun e he => by rw [he] at hnoted; exact Bool.false_ne_true hnoted
  obtain ⟨quantity, hq, hanswered, -⟩ := hsignal (by decide +kernel) (by decide +kernel) hquiet
  obtain rfl := Except.ok.inj (hquantity.symm.trans hq)
  exact ⟨answer, hanswer, hanswered⟩

end Desk

end PaperVenue
