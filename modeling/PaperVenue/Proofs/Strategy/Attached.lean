import PaperVenue.Strategy.Desk
import PaperVenue.Proofs.Exchange.Bookkeeping
import PaperVenue.Proofs.Outcome

/-!
# What a desk holds on to

Two things about a desk hardly ever change, and this is what makes a candle predictable.

The strategy holds on to one session.  A run says which one that is: `Desk.lastAttached` is the name
that the last successful binding of the run attached, and the invariant is that the strategy holds
this name (`trading_after`).  Its settings may have named others since.

The exchanges stay.  A step of a desk performs at most one operation, on one exchange, and leaves
the others alone; `exchange?_step` is the one statement about this.  So an exchange is still there
after any run (`exchange?_after`), and its ledger is one that ledger operations alone can lead to
(`ledgersReachable_after`).
-/

namespace PaperVenue

/-! ## Binding -/

namespace UpDown

variable {σ : Type}

theorem findSession_eq_ok_iff {sessions : Table String σ} {role : SessionRole} {name : String}
    {session : σ} :
    findSession sessions role name = .ok session ↔ Table.get? sessions name = some session := by
  rw [findSession]
  cases Table.get? sessions name <;> simp

/-- The session that settings resolve to is the one under the name of their trading session. -/
theorem get?_of_resolve {s : Settings} {sessions : Table String σ} {session : σ}
    (h : resolve s sessions = .ok session) :
    Table.get? sessions s.tradingSession = some session := by
  rw [resolve] at h
  obtain ⟨-, -, h⟩ := bind_eq_ok_iff.1 h
  obtain ⟨-, -, h⟩ := bind_eq_ok_iff.1 h
  exact findSession_eq_ok_iff.1 h

theorem trading_fillDefaults (u : UpDown σ) : u.fillDefaults.1.trading = u.trading := rfl

/-- A binding that fails keeps the session attached before. -/
theorem trading_bind_of_error {u : UpDown σ} {sessions : Table String σ} {e : Failure}
    (h : (u.bind sessions).2 = .error e) : (u.bind sessions).1.trading = u.trading := by
  rw [bind] at h ⊢
  cases hfill : u.fillDefaults with
  | mk u' done =>
    have htrading : u'.trading = u.trading := by rw [← u.trading_fillDefaults, hfill]
    rw [hfill] at h
    cases done with
    | error e' => exact htrading
    | ok _ =>
      dsimp only at h ⊢
      cases hresolve : resolve u'.settings sessions with
      | error e' => exact htrading
      | ok session => rw [hresolve] at h; exact absurd h (by simp)

/-- A binding that succeeds attaches the session under the name of the trading session. -/
theorem trading_bind_of_ok {u : UpDown σ} {sessions : Table String σ}
    (h : (u.bind sessions).2 = .ok ()) :
    (u.bind sessions).1.trading =
        Table.get? sessions (u.bind sessions).1.settings.tradingSession ∧
      (u.bind sessions).1.trading.isSome := by
  rw [bind] at h ⊢
  cases hfill : u.fillDefaults with
  | mk u' done =>
    rw [hfill] at h
    cases done with
    | error e => exact absurd h (by simp)
    | ok _ =>
      dsimp only at h ⊢
      cases hresolve : resolve u'.settings sessions with
      | error e => rw [hresolve] at h; exact absurd h (by simp)
      | ok session => exact ⟨(get?_of_resolve hresolve).symm, rfl⟩

end UpDown

namespace Desk

/-! ## Runs -/

/-- A desk is run step by step. -/
theorem runs : Runs step run := ⟨fun _ => rfl, fun _ _ _ => rfl⟩

/-- The desk after steps. -/
def after (d : Desk) (ts : List Step) : Desk := (d.run ts).1

theorem after_cons (d : Desk) (t : Step) (ts : List Step) :
    d.after (t :: ts) = (d.step t).1.after ts := rfl

/-! ## The session of the strategy -/

/-- The name that a step attaches: a binding that succeeds attaches the one that the settings name
then. -/
def attached? (d : Desk) : Step → Option String
  | .bind => match (d.step .bind).2.outcome with
    | .ok _ => some (d.step .bind).1.strategy.settings.tradingSession
    | .error _ => none
  | _ => none

/-- The name that the last successful binding of a run attaches. -/
def lastAttached (d : Desk) : List Step → Option String
  | [] => none
  | t :: ts => (lastAttached (d.step t).1 ts).or (d.attached? t)

theorem strategy_send (d : Desk) (name : String) (r : OrderRequest) :
    (d.send name r).1.strategy = d.strategy := by
  rw [send]
  cases d.exchange? name <;> rfl

theorem strategy_onCandle (d : Desk) (c : Candle) : (d.onCandle c).1.strategy = d.strategy := by
  rw [onCandle]
  cases d.strategy.trading with
  | none => rfl
  | some name =>
    dsimp only
    split
    · split
      · rfl
      · exact d.strategy_send name _
    · rfl

theorem strategy_perform (d : Desk) (name : String) (op : Operation) :
    (d.perform name op).1.strategy = d.strategy := by
  rw [perform]
  cases d.exchange? name <;> rfl

/-- A binding attaches the name of the trading session if it succeeds, and nothing if it fails. -/
theorem trading_step_bind (d : Desk) :
    (d.step .bind).1.strategy.trading = (d.attached? .bind).or d.strategy.trading := by
  have hstep : d.step .bind =
      { d with around := d.around.tick }.changeStrategy (d.strategy.bind d.sessionMap) := rfl
  rw [attached?, hstep, changeStrategy, Traced.outcome_map, Traced.outcome_ofExcept]
  cases hbind : (d.strategy.bind d.sessionMap).2 with
  | error e => exact UpDown.trading_bind_of_error hbind
  | ok _ =>
    obtain ⟨hget, hsome⟩ := UpDown.trading_bind_of_ok hbind
    obtain ⟨name, hname⟩ := Option.isSome_iff_exists.1 hsome
    have hmap := hget.symm.trans hname
    rw [sessionMap, Table.get?_mapValues, Option.map_eq_some_iff] at hmap
    obtain ⟨-, -, hsame⟩ := hmap
    exact hname.trans (congrArg some hsame.symm)

/-- **A step attaches a session** if it is a binding that succeeds, and keeps the one before
otherwise. -/
theorem trading_step (d : Desk) (t : Step) :
    (d.step t).1.strategy.trading = (d.attached? t).or d.strategy.trading := by
  cases t with
  | bind => exact d.trading_step_bind
  | candle c =>
    exact congrArg UpDown.trading (strategy_onCandle { d with around := d.around.tick } c)
  | perform name op =>
    exact congrArg UpDown.trading (strategy_perform { d with around := d.around.tick } name op)
  | _ => rfl

/-- **The strategy holds the session of the last successful binding**, whatever its settings name
by now. -/
theorem trading_after (d : Desk) (ts : List Step) :
    (d.after ts).strategy.trading = (d.lastAttached ts).or d.strategy.trading := by
  induction ts generalizing d with
  | nil => rfl
  | cons t ts ih =>
    rw [after_cons, ih, trading_step, ← Option.or_assoc]
    rfl

/-! ## The exchanges -/

/-- Every ledger of the desk is one that ledger operations can lead to. -/
def LedgersReachable (d : Desk) : Prop := ∀ n x, d.exchange? n = some x → x.ledger.Reachable

theorem exchange?_withExchange (d : Desk) (n : String) (x : Exchange) (m : String) :
    (d.withExchange n x).exchange? m = if n = m then some x else d.exchange? m := by
  rw [exchange?, withExchange, Table.get?_put]
  split <;> rfl

/-- What one operation on one exchange does to the exchanges of a desk. -/
def PerformsOne (d d' : Desk) : Prop :=
  ∃ n x op, d.exchange? n = some x ∧
    ∀ m, d'.exchange? m = if n = m then some (x.perform d.around op).1 else d.exchange? m

/-- Sending a request is submitting it. -/
theorem exchange?_send (d : Desk) (name : String) (r : OrderRequest) :
    (∀ m, (d.send name r).1.exchange? m = d.exchange? m) ∨ d.PerformsOne (d.send name r).1 := by
  rw [send]
  cases hx : d.exchange? name with
  | none => exact Or.inl fun _ => rfl
  | some x => exact Or.inr ⟨name, x, .submit r, hx, d.exchange?_withExchange name _⟩

theorem exchange?_onCandle (d : Desk) (c : Candle) :
    (∀ m, (d.onCandle c).1.exchange? m = d.exchange? m) ∨ d.PerformsOne (d.onCandle c).1 := by
  rw [onCandle]
  cases d.strategy.trading with
  | none => exact Or.inl fun _ => rfl
  | some name =>
    dsimp only
    split
    · split
      · exact Or.inl fun _ => rfl
      · exact d.exchange?_send name _
    · exact Or.inl fun _ => rfl

theorem exchange?_perform (d : Desk) (name : String) (op : Operation) :
    (∀ m, (d.perform name op).1.exchange? m = d.exchange? m) ∨
      d.PerformsOne (d.perform name op).1 := by
  rw [perform]
  cases hx : d.exchange? name with
  | none => exact Or.inl fun _ => rfl
  | some x => exact Or.inr ⟨name, x, op, hx, d.exchange?_withExchange name _⟩

/-- **What a step does to the exchanges**: nothing, or one operation on one of them. -/
theorem exchange?_step (d : Desk) (t : Step) :
    (∀ m, (d.step t).1.exchange? m = d.exchange? m) ∨
      PerformsOne { d with around := d.around.tick } (d.step t).1 := by
  cases t with
  | candle c => exact exchange?_onCandle { d with around := d.around.tick } c
  | perform name op => exact exchange?_perform { d with around := d.around.tick } name op
  | _ => exact Or.inl fun _ => rfl

theorem ledgersReachable_step (d : Desk) (t : Step) (hd : d.LedgersReachable) :
    (d.step t).1.LedgersReachable := by
  intro m y hy
  rcases d.exchange?_step t with hsame | ⟨n, x, op, hx, hone⟩
  · exact hd m y ((hsame m).symm.trans hy)
  · rw [hone] at hy
    split at hy
    · obtain rfl := Option.some.inj hy
      exact Exchange.reachable_perform d.around.tick (hd n x hx) op
    · exact hd m y hy

theorem ledgersReachable_after {d : Desk} (hd : d.LedgersReachable) (ts : List Step) :
    (d.after ts).LedgersReachable :=
  runs.invariant ledgersReachable_step hd ts

theorem isSome_exchange?_step (d : Desk) (t : Step) (m : String) (hm : (d.exchange? m).isSome) :
    ((d.step t).1.exchange? m).isSome := by
  rcases d.exchange?_step t with hsame | ⟨n, x, op, -, hone⟩
  · rwa [hsame]
  · rw [hone]
    split
    · rfl
    · exact hm

/-- An exchange stays an exchange. -/
theorem exchange?_after {d : Desk} {m : String} (hm : (d.exchange? m).isSome) (ts : List Step) :
    ∃ x, (d.after ts).exchange? m = some x :=
  Option.isSome_iff_exists.1 (runs.invariant (fun d t => d.isSome_exchange?_step t m) hm ts)

end Desk

end PaperVenue
