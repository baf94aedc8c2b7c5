import PaperVenue.Order.Basic

/-!
# The ledger

The ledger holds every order ever accepted, by number.  Numbers are given out by a counter that
starts at one and only ever grows, so an order is found under the number that it carries; nothing is
ever removed, and canceling an order changes it where it stands.

That the counter and the table keep step, so that the numbers in the table are exactly those that
were given out, is no part of the type.  It holds of a fresh ledger and is kept by every operation.

Asking for a number that was never given out is no error.  `get?` finds nothing, and `cancel`
passes it over with a note.  That includes zero and negative numbers, so numbers are integers.
-/

namespace PaperVenue

/-- The orders of a venue, by number, in order of acceptance. -/
structure Ledger where
  venue : Venue := .polymarket
  /-- The number that the next order gets. -/
  nextId : Int := 1
  orders : Table Int Order := []

namespace Ledger

/-- How many orders were accepted. -/
def size (l : Ledger) : Nat := l.orders.length

/-- The order with a number. -/
def get? (l : Ledger) (id : Int) : Option Order := Table.get? l.orders id

/-- Accept a request. -/
def submit (l : Ledger) (now : Moment) (request : OrderRequest) : Order × Ledger :=
  let order := Order.accept l.nextId l.venue now request
  (order, { l with nextId := l.nextId + 1, orders := Table.put l.orders l.nextId order })

/-- The working orders, on one symbol if one is given and not empty. -/
def working (l : Ledger) (symbol : Option String) : List Order :=
  let wanted := symbol.getD ""
  (Table.values l.orders).filter fun o => o.isWorking && (wanted = "" || o.request.symbol = wanted)

/-- Cancel one order by number, and count it if it was working. -/
def cancelOne (now : Moment) (l : Ledger) (id : Int) : Logged (Ledger × Nat) :=
  match l.get? id with
  | none => do
    Logged.note
      { severity := .debug, part := .ledger
        message := Text.ofString ("Cancel ignored for unknown order #" ++ toString id) }
    pure (l, 0)
  | some o => pure
      ({ l with orders := Table.put l.orders id (o.cancel now) }, if o.isWorking then 1 else 0)

/-- Cancel orders by number, one after the other: the ledger and how many were working. -/
def cancel (now : Moment) (l : Ledger) : List Int → Logged (Ledger × Nat)
  | [] => pure (l, 0)
  | id :: ids => do
    let (l, n) ← cancelOne now l id
    let (l, m) ← cancel now l ids
    pure (l, n + m)

end Ledger

end PaperVenue
