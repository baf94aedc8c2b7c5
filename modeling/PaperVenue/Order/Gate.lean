import PaperVenue.Order.Ledger
import PaperVenue.Failure

/-!
# The gate

Every request passes the gate.  With dry-run off it is turned away, because the venue cannot trade
for real, and the ledger does not change.  With dry-run on the ledger accepts it first, and then
the order is noted in the journal.  The note holds the amounts in plain notation, so an amount that
has none makes the gate signal after the order was accepted: the order stays.
-/

namespace PaperVenue

namespace Gate

/-- Turn a request away. -/
def reject (request : OrderRequest) : Traced Failure Order := do
  Traced.note .warning .gate (Text.ofString
    ("Rejected live order for " ++ request.symbol ++ ": real trading is not implemented"))
  throw (.venue .liveTrading)

/-- Note an order that was accepted. -/
def announce (order : Order) : Traced Failure Order := do
  let text ← Traced.ofExcept (order.text.mapError .arithmetic)
  let fields ← Traced.ofExcept (order.fields.mapError .arithmetic)
  Traced.note .info .gate (Text.ofString ("polymarket(dry-run) order created: " ++ text))
    [("order", .group fields)]
  pure order

/-- Pass a request through the gate: the ledger afterwards, and the order. -/
def submit (ledger : Ledger) (now : Moment) (request : OrderRequest) (dryRun : Bool) :
    Ledger × Traced Failure Order :=
  if dryRun then
    let (order, ledger) := ledger.submit now request
    (ledger, announce order)
  else (ledger, reject request)

@[simp] theorem submit_live (l : Ledger) (now : Moment) (r : OrderRequest) :
    submit l now r false = (l, reject r) := rfl

@[simp] theorem submit_dryRun (l : Ledger) (now : Moment) (r : OrderRequest) :
    submit l now r true = ((l.submit now r).2, announce (l.submit now r).1) := rfl

end Gate

end PaperVenue
