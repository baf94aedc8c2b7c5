import PaperVenue.Proofs.Strategy.OneOrder

/-!
# When a candle becomes an order

A signal is noted before anything is submitted, and the note has five amounts in it.  So a candle
becomes a request only if its prices compare, the quotient of amount and price exists, and each of
the five can be written: `outcome_signal_eq_ok_iff`.  At an exchange with dry-run on nothing else
can go wrong, and the request becomes the next order (`outcome_onCandle_eq_ok_iff`).
-/

namespace PaperVenue

namespace UpDown.Settings

/-- The fields of a signal are there exactly if each of its amounts can be written. -/
theorem exists_signalFields_iff {s : Settings} {c : Candle} {r : OrderRequest} :
    (∃ fields, s.signalFields c r = .ok fields) ↔
      (∀ d ∈ [c.opening, c.close, s.entryPrice, s.quoteAmount], d.Reportable) ∧
        r.quantity.Reportable := by
  simp only [signalFields, bind_eq_ok_iff, List.forall_mem_cons, List.not_mem_nil, false_implies,
    implies_true, and_true, ← Decimal.exists_plainText_iff]
  constructor
  · rintro ⟨fields, o, ho, c, hc, p, hp, a, ha, q, hq, -⟩
    exact ⟨⟨⟨o, ho⟩, ⟨c, hc⟩, ⟨p, hp⟩, ⟨a, ha⟩⟩, ⟨q, hq⟩⟩
  · rintro ⟨⟨⟨o, ho⟩, ⟨c, hc⟩, ⟨p, hp⟩, ⟨a, ha⟩⟩, ⟨q, hq⟩⟩
    exact ⟨_, o, ho, c, hc, p, hp, a, ha, q, hq, rfl⟩

/-- How the prices compare decides what is bought. -/
theorem request_eq_requestFor {s : Settings} {c : Candle} {o : Ordering}
    (ho : c.close.compare? c.opening = some o) (quantity : Decimal) :
    s.request (o == .gt) quantity = s.requestFor c quantity := by
  rw [requestFor, ho]
  cases o <;> rfl

/-- **When a candle becomes a request**, and which. -/
theorem outcome_signal_eq_ok_iff {s : Settings} {c : Candle} {r : OrderRequest} :
    (s.signal c).outcome = .ok r ↔
      ∃ quantity, s.quoteAmount.div s.entryPrice = .ok quantity ∧
        (c.close.compare? c.opening).isSome ∧
        (∀ d ∈ [c.opening, c.close, s.entryPrice, s.quoteAmount], d.Reportable) ∧
        quantity.Reportable ∧ r = s.requestFor c quantity := by
  simp only [signal, Traced.outcome_bind_eq_ok_iff, Traced.outcome_ofExcept, mapError_eq_ok_iff,
    Traced.outcome_note, Traced.outcome_pure]
  constructor
  · rintro ⟨up, hup, quantity, hquantity, fields, hfields, -, -, hr⟩
    obtain ⟨o, ho, rfl⟩ := Decimal.gt_eq_ok_iff.1 hup
    obtain ⟨hgiven, hreportable⟩ := exists_signalFields_iff.1 ⟨fields, hfields⟩
    obtain rfl := Except.ok.inj hr
    refine ⟨quantity, hquantity, ?_, hgiven, hreportable, request_eq_requestFor ho quantity⟩
    rw [ho]
    rfl
  · rintro ⟨quantity, hquantity, hsome, hgiven, hreportable, rfl⟩
    obtain ⟨o, ho⟩ := Option.isSome_iff_exists.1 hsome
    have hrequest := request_eq_requestFor (s := s) ho quantity
    obtain ⟨fields, hfields⟩ := exists_signalFields_iff (s := s) (c := c)
      (r := s.request (o == .gt) quantity) |>.2 ⟨hgiven, hreportable⟩
    exact ⟨o == .gt, Decimal.gt_eq_ok_iff.2 ⟨o, ho, rfl⟩, quantity, hquantity, fields, hfields, (),
      trivial, congrArg Except.ok hrequest⟩

end UpDown.Settings

namespace Desk

/-- The strategy of the desk trades on an exchange with dry-run on. -/
structure TradesOn (d : Desk) (name : String) (x : Exchange) : Prop where
  trading_eq : d.strategy.trading = some name
  exchange_eq : d.exchange? name = some x
  reachable : x.ledger.Reachable
  dryRun : x.dryRunOn d.around = true

/-- An order that passed the gate is for the request that did. -/
theorem request_of_submit {x : Exchange} {around : Surroundings} {r : OrderRequest} {o : Order}
    (h : (x.submit around r).2.outcome = .ok o) : o.request = r := by
  rw [x.outcome_submit] at h
  cases hdry : x.dryRunOn around with
  | false => rw [hdry] at h; cases h
  | true =>
    rw [hdry, Gate.submit_dryRun] at h
    by_cases hwritten : r.quantity.Reportable ∧ r.price.Reportable
    · have hnoted := (Gate.announce_of_reportable
        (o := (x.ledger.submit around.now r).1) hwritten.1 hwritten.2).1
      obtain rfl := Except.ok.inj (hnoted.symm.trans h)
      rfl
    · obtain ⟨s, hs⟩ := (Gate.announce_of_not_reportable
        (o := (x.ledger.submit around.now r).1) hwritten).1
      cases hs.symm.trans h

/-- What is settled as an order came as one. -/
theorem outcome_of_settle {answer : Traced Failure Order} {o : Order}
    (h : (settle answer).outcome = .ok (some o)) : answer.outcome = .ok o := by
  cases houtcome : answer.outcome with
  | error e =>
    rw [settle, houtcome] at h
    cases e with
    | venue e => cases h
    | _ =>
      dsimp only at h
      rw [Traced.outcome_map, houtcome] at h
      cases h
  | ok o' =>
    rw [outcome_settle_of_ok houtcome] at h
    cases h
    rfl

/-- A candle whose signal fails ends as the signal does. -/
theorem outcome_onCandle_of_error {d : Desk} {name : String}
    (hname : d.strategy.trading = some name) {c : Candle} (hc : d.strategy.settings.watches c) {e : Failure}
    (he : (d.strategy.settings.signal c).outcome = .error e) :
    (d.onCandle c).2.outcome = .error e := by
  rw [onCandle, hname]
  dsimp only
  rw [if_pos hc, he]
  dsimp only
  rw [Traced.outcome_map, he]
  rfl

/-- **An order is for the request of the candle**, whatever the session and its mode. -/
theorem signal_of_onCandle {d : Desk} {c : Candle} {o : Order}
    (h : (d.onCandle c).2.outcome = .ok (some o)) :
    (d.strategy.settings.signal c).outcome = .ok o.request := by
  cases htrading : d.strategy.trading with
  | none =>
    rw [onCandle, htrading] at h
    cases h
  | some name =>
    cases hc : d.strategy.settings.watches c with
    | false =>
      rw [onCandle_unwatched htrading hc] at h
      cases h
    | true =>
      cases hsignal : (d.strategy.settings.signal c).outcome with
      | error e =>
        rw [outcome_onCandle_of_error htrading hc hsignal] at h
        cases h
      | ok r =>
        rw [(onCandle_of_signal htrading hc hsignal).2, send] at h
        cases hx : d.exchange? name with
        | none =>
          rw [hx] at h
          cases h
        | some x =>
          rw [hx] at h
          rw [request_of_submit (outcome_of_settle h)]

/-- **When a candle becomes an order**, and which: the exchange turns no request down. -/
theorem outcome_onCandle_eq_ok_iff {d : Desk} {name : String} {x : Exchange}
    (hd : d.TradesOn name x) {c : Candle} (hc : d.strategy.settings.watches c)
    {placed : Option Order} :
    (d.onCandle c).2.outcome = .ok placed ↔
      ∃ r, (d.strategy.settings.signal c).outcome = .ok r ∧
        placed = some (Order.accept (x.ledger.size + 1) x.ledger.venue d.around.now r) := by
  cases hsignal : (d.strategy.settings.signal c).outcome with
  | error e =>
    rw [outcome_onCandle_of_error hd.trading_eq hc hsignal]
    exact iff_of_false (fun h => by cases h) fun ⟨r, hr, _⟩ => by cases hr
  | ok r =>
    obtain ⟨quantity, -, -, hgiven, hquantity, rfl⟩ :=
      UpDown.Settings.outcome_signal_eq_ok_iff.1 hsignal
    obtain ⟨-, hsent⟩ := onCandle_of_signal hd.trading_eq hc hsignal
    have hprice : d.strategy.settings.entryPrice.Reportable := hgiven _ (by simp)
    obtain ⟨haccepted, -⟩ := send_dryRun hd.exchange_eq hd.reachable hd.dryRun
      (r := d.strategy.settings.requestFor c quantity) hquantity hprice
    rw [hsent, haccepted]
    simp [eq_comm]

end Desk

end PaperVenue
