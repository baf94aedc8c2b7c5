import PaperVenue.Proofs.Exchange.CatalogKept
import PaperVenue.Proofs.Ledger.Submission

/-!
# What an exchange does to its ledger

An exchange hands some of its operations on to its ledger, and the others do not reach it.
`Operation.onLedger?` says which operation of the ledger that is, and `ledger_perform` that nothing
else happens to the ledger.  So whatever holds of the ledgers that runs lead to holds of the ledger
of an exchange: `reachable_after`.

A submission goes through the gate, in the mode that the settings in force have at that moment.
`rejected_submit_iff` and `ledger_submit` say what becomes of it.  Neither mentions the request:
the mode alone decides.
-/

namespace PaperVenue

/-- What an operation asks of the ledger, if it asks something of it, with dry-run on or off. -/
def Operation.onLedger? (dryRun : Bool) : Operation → Option Ledger.Operation
  | .submit request => some (.pass request dryRun)
  | .openOrders symbol => some (.working (some symbol))
  | .cancel ids => some (.cancel ids)
  | .order id => some (.get id)
  | _ => none

/-- The answer is that the venue does not offer this. -/
def Rejected {α : Type} (answer : Traced Failure α) : Prop :=
  ∃ e : VenueError, answer.outcome = .error (.venue e) ∧ e.kind = .unsupported

/-- An order that was accepted is noted, or an amount signals; no error of the venue occurs. -/
theorem Gate.announce_ne_venue (o : Order) (e : VenueError) :
    (Gate.announce o).outcome ≠ .error (.venue e) := by
  intro he
  by_cases h : o.request.quantity.Reportable ∧ o.request.price.Reportable
  · exact absurd ((Gate.announce_of_reportable h.1 h.2).1.symm.trans he) (by simp)
  · obtain ⟨⟨s, hs⟩, -⟩ := Gate.announce_of_not_reportable h
    exact absurd (hs.symm.trans he) (by simp)

theorem not_rejected_announce (o : Order) : ¬ Rejected (Gate.announce o) := by
  rintro ⟨e, he, -⟩
  exact Gate.announce_ne_venue o e he

/-- The gate turns a request away exactly if dry-run is off. -/
theorem Gate.rejected_submit_iff (l : Ledger) (now : Moment) (r : OrderRequest) (dryRun : Bool) :
    Rejected (Gate.submit l now r dryRun).2 ↔ dryRun = false := by
  cases dryRun with
  | false => exact iff_of_true ⟨.liveTrading, rfl, rfl⟩ rfl
  | true => exact iff_of_false (not_rejected_announce _) Bool.noConfusion

namespace Exchange

variable (x : Exchange) (around : Surroundings)

/-- Is dry-run on, by the settings that are in force? -/
def dryRunOn : Bool :=
  (x.settings.getD (Settings.ofEnvironment around.environment).value).dryRun

/-! ## Submissions -/

theorem fst_submit (r : OrderRequest) :
    (x.submit around r).1 =
      { x with ledger := (Gate.submit x.ledger around.now r (x.dryRunOn around)).1 } := by
  rw [dryRunOn, ← value_currentSettings]
  rfl

/-- The outcome of a submission is what comes out of the gate; the settings only add notes. -/
theorem outcome_submit (r : OrderRequest) :
    (x.submit around r).2.outcome =
      (Gate.submit x.ledger around.now r (x.dryRunOn around)).2.outcome := by
  rw [dryRunOn, ← value_currentSettings, submit]
  dsimp only
  rw [Traced.outcome_bind, Traced.outcome_ofLogged]

theorem rejected_submit_iff (r : OrderRequest) :
    Rejected (x.perform around (.submit r)).2 ↔ x.dryRunOn around = false := by
  rw [← Gate.rejected_submit_iff x.ledger around.now r]
  have houtcome : (x.perform around (.submit r)).2.outcome =
      (Gate.submit x.ledger around.now r (x.dryRunOn around)).2.outcome.map Answer.order := by
    rw [← outcome_submit]
    exact Traced.outcome_map _ _
  rw [Rejected, Rejected, houtcome]
  cases (Gate.submit x.ledger around.now r (x.dryRunOn around)).2.outcome <;> simp [Except.map]

/-- **What a submission leaves behind**: one more order if dry-run is on, and nothing otherwise. -/
theorem ledger_submit (hx : x.ledger.Reachable) (r : OrderRequest) :
    (x.perform around (.submit r)).1.ledger =
      if x.dryRunOn around then
        x.ledger.extended (Order.accept x.ledger.nextId x.ledger.venue around.now r)
      else x.ledger := by
  have hledger : (x.perform around (.submit r)).1.ledger =
      (Gate.submit x.ledger around.now r (x.dryRunOn around)).1 :=
    congrArg Exchange.ledger (x.fst_submit around r)
  rw [hledger]
  cases x.dryRunOn around with
  | false => rfl
  | true => rw [Gate.submit_dryRun_of_reachable hx]; rfl

/-! ## All operations -/

/-- A query of the markets at most fills the place of the catalog. -/
theorem ledger_markets : (x.markets around).1.ledger = x.ledger := by
  cases h : x.catalog with
  | some c => rw [markets_of_catalog around h]
  | none =>
    rw [markets_of_no_catalog around h]
    cases builtNow x.settings around <;> rfl

/-- **What an operation does to the ledger** is what it asks of it. -/
theorem ledger_perform (op : Operation) :
    (x.perform around op).1.ledger =
      match op.onLedger? (x.dryRunOn around) with
      | some o => (x.ledger.perform around.now o).1
      | none => x.ledger := by
  cases op with
  | submit r => exact congrArg Exchange.ledger (x.fst_submit around r)
  | markets => exact x.ledger_markets around
  | clearMarkets => exact x.ledger_markets around
  | _ => rfl

theorem reachable_perform {x : Exchange} (hx : x.ledger.Reachable) (op : Operation) :
    (x.perform around op).1.ledger.Reachable := by
  rw [ledger_perform]
  cases op.onLedger? (x.dryRunOn around) with
  | none => exact hx
  | some o => exact hx.perform around.now o

end Exchange

namespace Session

/-- An operation in a session is performed on its exchange, at the moment of the step. -/
theorem step_perform (s : Session) (op : Operation) :
    s.step (.perform op) =
      ({ around := s.around.tick, exchange := (s.exchange.perform s.around.tick op).1 },
        (s.exchange.perform s.around.tick op).2) := rfl

theorem reachable_step (s : Session) (t : Step) (hs : s.exchange.ledger.Reachable) :
    (s.step t).1.exchange.ledger.Reachable := by
  cases t with
  | wait => exact hs
  | change c => exact hs
  | renew settings => exact Ledger.reachable_fresh .polymarket
  | perform op => exact Exchange.reachable_perform s.around.tick hs op

/-- The ledger of a session is always one that ledger operations alone can lead to. -/
theorem reachable_after {s : Session} (hs : s.exchange.ledger.Reachable) (ts : List Step) :
    (s.after ts).exchange.ledger.Reachable :=
  runs.invariant reachable_step hs ts

end Session

end PaperVenue
