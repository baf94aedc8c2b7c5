import PaperVenue.Proofs.Exchange.Bookkeeping

/-!
# Steps that leave no trace

What would have been different, had a step of a session not been taken?  A `Session.Plan` is a run
with some of its steps marked, and says two runs at once: the one in which every step is taken
(`Plan.taken`), and the one in which the marked steps are waited out (`Plan.spared`), each of them
with the time that it takes.  `answers_of_spared` compares the answers of the two.

* A step that only asks, or a submission that is rejected, leaves the session exactly where waiting
  leaves it (`step_eq_wait`).
* A query of the markets may leave a catalog behind, and nothing else (`step_query`).

So the two runs go through sessions that are `Alike`: they are the same until a query is waited out,
and from then on the same up to the catalog.  The catalog is looked at by queries of the markets
alone (`step_withCatalog`), which is why every other step answers the same in both.
-/

namespace PaperVenue

/-- An operation that asks for something and changes nothing. -/
def Operation.onlyAsks : Operation → Bool
  | .identity | .ticker _ | .tickers _ | .candles _ _ _ | .account | .balances | .openOrders _
  | .order _ => true
  | _ => false

theorem Exchange.perform_of_onlyAsks (x : Exchange) (around : Surroundings) {op : Operation}
    (h : op.onlyAsks) : (x.perform around op).1 = x := by
  cases op <;> first | rfl | exact absurd h Bool.false_ne_true

namespace Session

/-- A step that asks for something and changes nothing. -/
def Step.onlyAsks : Step → Bool
  | .perform op => op.onlyAsks
  | _ => false

/-- A step that queries the markets. -/
def Step.queries : Step → Bool
  | .perform op => op.view?.isSome
  | _ => false

/-- A step that cannot be told from waiting afterwards: it only asks, or it is a submission that is
rejected. -/
def LeavesNoTrace (s : Session) (t : Step) : Prop :=
  t.onlyAsks ∨ (∃ r, t = .perform (.submit r)) ∧ Rejected (s.step t).2

/-! ## Two runs -/

/-- A run, and for each of its steps whether it is marked. -/
abbrev Plan := List (Step × Bool)

/-- The run in which all steps are taken. -/
def Plan.taken (p : Plan) : List Step := p.map Prod.fst

/-- The run in which the marked steps are waited out. -/
def Plan.spared (p : Plan) : List Step := p.map fun e => if e.2 then .wait else e.1

/-- Every marked step leaves no trace where it is taken, or queries the markets. -/
def Plan.Admissible : Session → Plan → Prop
  | _, [] => True
  | s, e :: p => (e.2 → s.LeavesNoTrace e.1 ∨ e.1.queries) ∧ Admissible (s.step e.1).1 p

/-! ## Sessions that differ in the catalog -/

/-- The session with another catalog in its place. -/
def withCatalog (s : Session) (c : Option Catalog) : Session :=
  { s with exchange := { s.exchange with catalog := c } }

/-- The sessions are the same, or at most the catalogs differ if queries were waited out. -/
def Alike (blind : Bool) (s s' : Session) : Prop :=
  if blind then ∃ c, s' = s.withCatalog c else s' = s

/-- An operation that is no query of the markets does not look at the catalog. -/
theorem perform_withCatalog (x : Exchange) (around : Surroundings) (c : Option Catalog)
    {op : Operation} (h : op.view? = none) :
    { x with catalog := c }.perform around op =
      ({ (x.perform around op).1 with catalog := c }, (x.perform around op).2) := by
  cases op <;> first | rfl | exact absurd h (by simp [Operation.view?])

/-- A query of the markets changes nothing but the catalog. -/
theorem step_query (s : Session) {t : Step} (ht : t.queries) :
    ∃ c, (s.step t).1 = (s.step .wait).1.withCatalog c := by
  cases t with
  | perform op =>
    obtain ⟨f, hf⟩ := Option.isSome_iff_exists.1 ht
    have hfst : (s.exchange.perform s.around.tick op).1 = (s.exchange.markets s.around.tick).1 :=
      congrArg Prod.fst (s.exchange.perform_of_view s.around.tick hf)
    refine ⟨(s.exchange.markets s.around.tick).1.catalog, ?_⟩
    rw [withCatalog, step_perform, hfst]
    have hledger := s.exchange.ledger_markets s.around.tick
    have hsettings := s.exchange.settings_markets s.around.tick
    cases hx : (s.exchange.markets s.around.tick).1 with
    | mk settings catalog ledger =>
      rw [hx] at hledger hsettings
      obtain rfl : ledger = s.exchange.ledger := hledger
      obtain rfl : settings = s.exchange.settings := hsettings
      rfl
  | _ => exact absurd ht Bool.false_ne_true

/-- **A step that is no query of the markets** answers the same with any catalog, and leads to the
same session up to the catalog. -/
theorem step_withCatalog (s : Session) (c : Option Catalog) {t : Step} (ht : t.queries = false) :
    ((s.withCatalog c).step t).2 = (s.step t).2 ∧
      ∃ c', ((s.withCatalog c).step t).1 = (s.step t).1.withCatalog c' := by
  cases t with
  | wait => exact ⟨rfl, c, rfl⟩
  | change change => exact ⟨rfl, c, rfl⟩
  | renew settings => exact ⟨rfl, none, rfl⟩
  | perform op =>
    have hview : op.view? = none := by simpa [Step.queries] using ht
    have hstep : (s.withCatalog c).step (.perform op) = _ := step_perform _ op
    have hperform := perform_withCatalog s.exchange s.around.tick c hview
    rw [hstep, step_perform, withCatalog, hperform]
    exact ⟨rfl, c, rfl⟩

/-- **A step that leaves no trace** leads where waiting leads. -/
theorem step_eq_wait {s : Session} {t : Step} (ht : s.LeavesNoTrace t) :
    (s.step t).1 = (s.step .wait).1 := by
  rcases ht with hasks | ⟨⟨r, rfl⟩, hrejected⟩
  · cases t with
    | perform op =>
      rw [step_perform, s.exchange.perform_of_onlyAsks s.around.tick hasks]
      rfl
    | _ => exact absurd hasks Bool.false_ne_true
  · have hlive := (s.exchange.rejected_submit_iff s.around.tick r).1 hrejected
    have hsame : (s.exchange.perform s.around.tick (.submit r)).1 = _ :=
      s.exchange.fst_submit s.around.tick r
    rw [step_perform, hsame, hlive]
    rfl

/-! ## Alike sessions stay alike -/

namespace Alike

variable {blind : Bool} {s s' : Session}

theorem blinded (h : Alike blind s s') : Alike true s s' := by
  cases blind with
  | true => exact h
  | false => exact ⟨s.exchange.catalog, h⟩

theorem withCatalog (h : Alike true s s') (c : Option Catalog) :
    Alike true (s.withCatalog c) s' := by
  obtain ⟨c', rfl⟩ := h
  exact ⟨c', rfl⟩

/-- A step taken in both. -/
theorem step (h : Alike blind s s') (t : Step) : Alike blind (s.step t).1 (s'.step t).1 := by
  cases blind with
  | false =>
    obtain rfl : s' = s := h
    exact rfl
  | true =>
    obtain ⟨c, rfl⟩ := h
    cases ht : t.queries with
    | false => exact (s.step_withCatalog c ht).2
    | true =>
      obtain ⟨c₁, h₁⟩ := s.step_query ht
      obtain ⟨c₂, h₂⟩ := (s.withCatalog c).step_query ht
      rw [h₁, h₂]
      exact ⟨c₂, rfl⟩

/-- A step that leaves no trace, waited out in one of the two. -/
theorem spare (h : Alike blind s s') {t : Step} (ht : s.LeavesNoTrace t) :
    Alike blind (s.step t).1 (s'.step .wait).1 := by
  rw [step_eq_wait ht]
  exact h.step .wait

/-- A query of the markets, waited out in one of the two. -/
theorem spare_query (h : Alike blind s s') {t : Step} (ht : t.queries) :
    Alike true (s.step t).1 (s'.step .wait).1 := by
  obtain ⟨c, hc⟩ := s.step_query ht
  rw [hc]
  exact (h.blinded.step .wait).withCatalog c

/-- Alike sessions answer the same, except to a query of the markets after one was waited out. -/
theorem answer_eq (h : Alike blind s s') {t : Step} (ht : t.queries → blind = false) :
    (s'.step t).2 = (s.step t).2 := by
  cases blind with
  | false =>
    obtain rfl : s' = s := h
    rfl
  | true =>
    obtain ⟨c, rfl⟩ := h
    exact (s.step_withCatalog c (Bool.eq_false_iff.2 fun hq => Bool.noConfusion (ht hq))).1

/-- Alike sessions answer the same after the two runs of a plan. -/
theorem answer_after (h : Alike blind s s') {past future : Plan} {t : Step}
    (hplan : Plan.Admissible s (past ++ (t, false) :: future))
    (ht : t.queries → blind = false ∧ ∀ e ∈ past, e.2 → e.1.queries = false) :
    ((s'.after past.spared).step t).2 = ((s.after past.taken).step t).2 := by
  induction past generalizing blind s s' with
  | nil => exact h.answer_eq fun hq => (ht hq).1
  | cons e past ih =>
    obtain ⟨u, marked⟩ := e
    obtain ⟨hmarked, hrest⟩ := hplan
    have hpast : t.queries → ∀ e ∈ past, e.2 → e.1.queries = false :=
      fun hq e he => (ht hq).2 e (List.mem_cons_of_mem _ he)
    cases marked with
    | false => exact ih (h.step u) hrest fun hq => ⟨(ht hq).1, hpast hq⟩
    | true =>
      rcases hmarked rfl with hu | hu
      · exact ih (h.spare hu) hrest fun hq => ⟨(ht hq).1, hpast hq⟩
      · refine ih (h.spare_query hu) hrest fun hq => ?_
        have hno : u.queries = false := (ht hq).2 (u, true) List.mem_cons_self rfl
        exact absurd hu (by rw [hno]; exact Bool.false_ne_true)

end Alike

/-- **Rejected submissions and questions leave no trace.**  Take a run on a fresh exchange, and wait
out some of its steps: rejected submissions, steps that only ask, and queries of the markets.  Every
other step answers as before, notes and moments included; only a query of the markets may answer
differently, if it comes after another one that was waited out.

And whether a submission leaves an order behind depends on the mode alone: it is rejected exactly if
dry-run is off at that moment, and the ledger gains the order exactly if dry-run is on. -/
theorem answers_of_spared (settings : Option Settings) (around : Surroundings) (plan : Plan)
    (hplan : plan.Admissible { around, exchange := { settings } }) :
    let start : Session := { around, exchange := { settings } }
    (∀ past t future, plan = past ++ (t, false) :: future →
      (t.queries → ∀ e ∈ past, e.2 → e.1.queries = false) →
      ∃ answer, (start.run plan.taken).2[past.length]? = some answer ∧
        (start.run plan.spared).2[past.length]? = some answer) ∧
    ∀ past r future, plan.taken = past ++ .perform (.submit r) :: future →
      let now := start.after past
      ∃ answer, (start.run plan.taken).2[past.length]? = some answer ∧
        (Rejected answer ↔ now.exchange.dryRunOn now.around = false) ∧
        (start.after (past ++ [.perform (.submit r)])).exchange.ledger =
          if now.exchange.dryRunOn now.around then
            now.exchange.ledger.extended (Order.accept now.exchange.ledger.nextId
              now.exchange.ledger.venue (now.around.now + 1) r)
          else now.exchange.ledger := by
  intro start
  constructor
  · rintro past t future rfl hqueries
    have hstart : Alike false start start := rfl
    have hanswer := hstart.answer_after hplan fun hq => ⟨rfl, hqueries hq⟩
    refine ⟨_, start.getElem?_answers_map _ past (t, false) future, ?_⟩
    exact (start.getElem?_answers_map _ past (t, false) future).trans (congrArg some hanswer)
  · intro past r future hplan now
    rw [hplan, after_concat]
    refine ⟨_, start.getElem?_answers past _ future, ?_, ?_⟩
    · exact now.exchange.rejected_submit_iff now.around.tick r
    · have hreachable : now.exchange.ledger.Reachable :=
        reachable_after (Ledger.reachable_fresh .polymarket) past
      exact now.exchange.ledger_submit now.around.tick hreachable r

/-- A request for one share at a price of one. -/
def smallRequest : OrderRequest :=
  { symbol := "PM", side := .buy, orderType := .limit, quantity := .ofNat 1, price := .ofNat 1 }

/-- A run with a submission that is rejected, a look at the account and a query of the markets
between two submissions that are accepted; the three are marked. -/
def markedThree : Plan :=
  [(.perform (.submit smallRequest), false), (.change (.setVariable dryRunKey "no"), false),
    (.perform (.submit smallRequest), true), (.perform .account, true), (.perform .markets, true),
    (.change (.unsetVariable dryRunKey), false), (.perform (.submit smallRequest), false)]

/-- Without the three the last submission is still the second order, of the seventh moment. -/
theorem answers_of_spared_markedThree :
    Plan.Admissible {} markedThree ∧
      ∃ answer, (run {} markedThree.spared).2[6]? = some answer ∧
        answer.outcome = .ok (.order (Order.accept 2 .polymarket 7 smallRequest)) := by
  have hplan : Plan.Admissible {} markedThree := by
    refine ⟨fun h => Bool.noConfusion h, fun h => Bool.noConfusion h, fun _ => Or.inl (Or.inr ?_),
      fun _ => Or.inl (Or.inl rfl), fun _ => Or.inr rfl, fun h => Bool.noConfusion h,
      fun h => Bool.noConfusion h, trivial⟩
    exact ⟨⟨smallRequest, rfl⟩,
      (Exchange.rejected_submit_iff _ _ smallRequest).2 (by decide +kernel)⟩
  obtain ⟨answer, htaken, hspared⟩ := (answers_of_spared none {} markedThree hplan).1
    (markedThree.take 6) (.perform (.submit smallRequest)) [] rfl fun h => Bool.noConfusion h
  refine ⟨hplan, answer, hspared, ?_⟩
  have houtcome : ((run {} markedThree.taken).2[6]?).map Traced.outcome =
      some (.ok (.order (Order.accept 2 .polymarket 7 smallRequest))) := by
    rfl
  have htaken' : (run {} markedThree.taken).2[6]? = some answer := htaken
  rw [htaken'] at houtcome
  exact Option.some.inj houtcome

end Session

end PaperVenue
