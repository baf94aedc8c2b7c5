import PaperVenue.Order.Gate

/-!
# Operations on a ledger

Everything that can be asked of a ledger, directly or through the gate, as data, and what it can
answer.  `Ledger.perform` is the one function behind all of them.  An operation is performed at a
moment, which the orders that it accepts or cancels carry; nothing is assumed about the moments of
a run.
-/

namespace PaperVenue

namespace Ledger

/-- What can be asked of a ledger. -/
inductive Operation where
  /-- Accept a request. -/
  | submit (request : OrderRequest)
  /-- Pass a request through the gate. -/
  | pass (request : OrderRequest) (dryRun : Bool)
  | get (id : Int)
  | working (symbol : Option String)
  | cancel (ids : List Int)
  | size
  deriving DecidableEq

/-- What a ledger can answer. -/
inductive Answer where
  | order (o : Order)
  | found (o : Option Order)
  | orders (os : List Order)
  | count (n : Nat)
  deriving DecidableEq

/-- Perform an operation. -/
def perform (l : Ledger) (now : Moment) : Operation → Ledger × Traced Failure Answer
  | .submit request =>
    let (o, l) := l.submit now request
    (l, pure (.order o))
  | .pass request dryRun =>
    let (l, o) := Gate.submit l now request dryRun
    (l, Answer.order <$> o)
  | .get id => (l, pure (.found (l.get? id)))
  | .working symbol => (l, pure (.orders (l.working symbol)))
  | .cancel ids =>
    let done := l.cancel now ids
    (done.value.1, (fun r => Answer.count r.2) <$> Traced.ofLogged done)
  | .size => (l, pure (.count l.size))

/-- Perform operations, each at its moment, one after the other: the ledger and all the answers. -/
def run : Ledger → List (Moment × Operation) → Ledger × List (Traced Failure Answer)
  | l, [] => (l, [])
  | l, (now, op) :: ops =>
    let (l, a) := l.perform now op
    let (l, as) := run l ops
    (l, a :: as)

end Ledger

end PaperVenue
