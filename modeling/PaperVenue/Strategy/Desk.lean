import PaperVenue.Exchange.Session
import PaperVenue.Strategy.UpDown

/-!
# The desk

A desk has a strategy and named sessions.  Some of the sessions are exchanges; the others are only
names, which count as present.  The strategy is bound to sessions by name, and holds on to the
session it was bound to even if its settings name another one later.

When a candle closes, the strategy's request goes to that session.  A venue error is noted and ends
the matter without an order.  Everything else that fails is passed on: arithmetic above all, and at
the very end, when the signal has been noted, a session that is only a name.
-/

namespace PaperVenue

/-- A desk: a strategy, the exchanges it can trade on, and what surrounds them. -/
structure Desk where
  around : Surroundings := {}
  /-- The sessions by name: exchanges, and names that are only present. -/
  sessions : Table String (Option Exchange) := []
  strategy : UpDown String := {}

namespace Desk

/-- The sessions as the strategy sees them: the name stands for the session. -/
def sessionMap (d : Desk) : Table String String := Table.mapValues (fun name _ => name) d.sessions

/-- The exchange of a name. -/
def exchange? (d : Desk) (name : String) : Option Exchange := (Table.get? d.sessions name).join

/-- Put an exchange in the place of another. -/
def withExchange (d : Desk) (name : String) (x : Exchange) : Desk :=
  { d with sessions := Table.put d.sessions name (some x) }

/-- The answer to a submission by the strategy: a venue error is noted, and there is no order. -/
def settle (answer : Traced Failure Order) : Traced Failure (Option Order) :=
  match answer.outcome with
  | .error (.venue e) => do
    let _ ← Traced.ofLogged { value := (), notes := answer.notes }
    Traced.note .error .strategy (Text.ofString "failed to submit polymarket order: " ++ e.message)
    pure none
  | _ => some <$> answer

/-- Send a request of the strategy to a session. -/
def send (d : Desk) (name : String) (request : OrderRequest) :
    Desk × Traced Failure (Option Order) :=
  match d.exchange? name with
  | none => (d, throw (.missing .exchange))
  | some x =>
    let (x, answer) := x.submit d.around request
    (d.withExchange name x, settle answer)

/-- A candle has closed. -/
def onCandle (d : Desk) (c : Candle) : Desk × Traced Failure (Option Order) :=
  match d.strategy.trading with
  | none => (d, throw .unbound)
  | some name =>
    if d.strategy.settings.watches c then
      let signal := d.strategy.settings.signal c
      match signal.outcome with
      | .error _ => (d, (fun _ => none) <$> signal)
      | .ok request =>
        let (d, answer) := d.send name request
        (d, do
          let _ ← signal
          answer)
    else (d, pure none)

/-- One step at a desk. -/
inductive Step where
  | wait
  | change (c : Change)
  | fillDefaults
  | validate
  | bind
  | settings
  | assign (a : UpDown.Assignment)
  | candle (c : Candle)
  | perform (session : String) (op : Operation)

/-- What a step at a desk can answer. -/
inductive Answer where
  | nothing
  | settings (s : UpDown.Settings)
  | order (o : Option Order)
  | exchange (a : PaperVenue.Answer)

/-- The desk with a changed strategy, answering its settings unless something failed. -/
def changeStrategy (d : Desk) (change : UpDown String × Except Failure Unit) :
    Desk × Traced Failure Answer :=
  ({ d with strategy := change.1 },
    (fun _ => Answer.settings change.1.settings) <$> Traced.ofExcept change.2)

/-- Perform an operation on the exchange of a name; a name without one answers nothing. -/
def perform (d : Desk) (name : String) (op : Operation) : Desk × Traced Failure Answer :=
  match d.exchange? name with
  | none => (d, pure .nothing)
  | some x =>
    let (x, answer) := x.perform d.around op
    (d.withExchange name x, Answer.exchange <$> answer)

/-- Take a step that has its time already. -/
def act (d : Desk) : Step → Desk × Traced Failure Answer
  | .wait => (d, pure .nothing)
  | .change c =>
    let (around, done) := d.around.change c
    ({ d with around }, (fun _ => Answer.nothing) <$> Traced.ofExcept done)
  | .fillDefaults => d.changeStrategy d.strategy.fillDefaults
  | .validate => (d, (fun _ => Answer.nothing) <$> Traced.ofExcept d.strategy.settings.validate)
  | .bind => d.changeStrategy (d.strategy.bind d.sessionMap)
  | .settings => (d, pure (.settings d.strategy.settings))
  | .assign a => d.changeStrategy (d.strategy.assign a, .ok ())
  | .candle c =>
    let (d, order) := d.onCandle c
    (d, Answer.order <$> order)
  | .perform name op => d.perform name op

/-- Take a step: time passes, and then the step is taken. -/
def step (d : Desk) (t : Step) : Desk × Traced Failure Answer :=
  { d with around := d.around.tick }.act t

/-- Take steps, each from where the one before it ended. -/
def run : Desk → List Step → Desk × List (Traced Failure Answer)
  | d, [] => (d, [])
  | d, t :: ts =>
    let (d, a) := d.step t
    let (d, as) := run d ts
    (d, a :: as)

end Desk

end PaperVenue
