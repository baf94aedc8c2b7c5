import PaperVenue.Exchange.Basic

/-!
# Operations on an exchange

Everything a host can ask of an exchange, as data, and what it can answer.  `Exchange.perform` is
the one function behind all of them, so a run of operations is a fold.
-/

namespace PaperVenue

/-- What a host can ask of an exchange. -/
inductive Operation where
  | identity
  | markets
  | clearMarkets
  | ticker (symbol : String)
  | tickers (symbols : List String)
  | candles (symbol interval : String) (limit : Option Int)
  | account
  | balances
  | submit (request : OrderRequest)
  | openOrders (symbol : String)
  | cancel (ids : List Int)
  | order (id : Int)

/-- What an exchange can answer. -/
inductive Answer where
  | nothing
  | identity (i : Identity)
  | catalog (c : Catalog)
  | count (n : Nat)
  | ticker (t : Ticker)
  | tickers (ts : Table String Ticker)
  | account (a : Account)
  | balances (bs : Table String Balance)
  | order (o : Order)
  | orders (os : List Order)
  | found (o : Option Order)

namespace Exchange

/-- Perform an operation.  A caller that clears the catalog it was given does not reach the one that
is kept, so clearing is a query that answers how many markets there were. -/
def perform (x : Exchange) (around : Surroundings) : Operation → Exchange × Traced Failure Answer
  | .identity => (x, pure (.identity x.identity))
  | .markets =>
    let (x, c) := x.markets around
    (x, Answer.catalog <$> c)
  | .clearMarkets =>
    let (x, c) := x.markets around
    (x, (fun c => Answer.count c.length) <$> c)
  | .ticker symbol => (x, pure (.ticker (x.ticker around symbol)))
  | .tickers symbols => (x, pure (.tickers (x.tickers around symbols)))
  | .candles _ _ _ => (x, throw (.venue .candles))
  | .account => (x, Answer.account <$> Traced.ofLogged (x.account around))
  | .balances => (x, (fun a => Answer.balances a.balances) <$> Traced.ofLogged (x.account around))
  | .submit request =>
    let (x, o) := x.submit around request
    (x, Answer.order <$> o)
  | .openOrders symbol => (x, pure (.orders (x.openOrders symbol)))
  | .cancel ids =>
    let (x, done) := x.cancelOrders around ids
    (x, (fun _ => Answer.nothing) <$> Traced.ofLogged done)
  | .order id => (x, pure (.found (x.order? id)))

end Exchange

end PaperVenue
