import PaperVenue.Account
import PaperVenue.Order.Gate
import PaperVenue.Market.Loading
import PaperVenue.Stream

/-!
# The exchange

An exchange owns a catalog and a ledger.  It may have settings of its own; without them it reads
the environment anew in each operation that needs settings.  Those are the account, submissions,
and the first successful query of the markets.  The catalog is built then and kept for good, and a
build that fails leaves the exchange as it was.

Each operation gives what the exchange is afterwards beside what it answers, because an operation
can fail and still have changed something (`Gate.submit`).
-/

namespace PaperVenue

/-- What surrounds an exchange: the environment, the files, and the time. -/
structure Surroundings where
  environment : Environment := []
  files : Files := []
  now : Moment := 0

/-- An exchange. -/
structure Exchange where
  settings : Option Settings := none
  catalog : Option Catalog := none
  ledger : Ledger := {}

/-- A ticker; no quote is ever fetched. -/
structure Ticker where
  time : Moment
  buy : Decimal := .zero
  sell : Decimal := .zero
  last : Decimal := .zero
  opening : Decimal := .zero
  high : Decimal := .zero
  low : Decimal := .zero
  volume : Decimal := .zero
  deriving DecidableEq

/-- What an exchange says about itself. -/
structure Identity where
  venue : Venue
  feeCurrency : String
  feeRates : FeeRates
  stream : ConnectionState
  deriving DecidableEq

namespace Exchange

/-- The settings in force. -/
def currentSettings (x : Exchange) (around : Surroundings) : Logged Settings :=
  match x.settings with
  | some s => pure s
  | none => Settings.ofEnvironment around.environment

/-- What the exchange says about itself. -/
def identity (_ : Exchange) : Identity :=
  { venue := .polymarket, feeCurrency := settlementCurrency, feeRates := {}
    stream := ({} : Stream).state }

/-! ## Markets -/

/-- Build the catalog from the settings in force. -/
def buildCatalog (x : Exchange) (around : Surroundings) : Traced Failure Catalog := do
  let settings ← Traced.ofLogged (x.currentSettings around)
  let catalog ← Catalog.build settings around.files
  Traced.note .info .exchange (Text.ofString
    ("Polymarket market catalog loaded: " ++ toString catalog.length ++ " markets"))
  pure catalog

/-- The exchange with a catalog to keep, if there is one. -/
def keepCatalog (x : Exchange) : Except Failure Catalog → Exchange
  | .ok catalog => { x with catalog := some catalog }
  | .error _ => x

/-- The catalog: the one that was built, or one that is built now and kept. -/
def markets (x : Exchange) (around : Surroundings) : Exchange × Traced Failure Catalog :=
  match x.catalog with
  | some catalog => (x, pure catalog)
  | none =>
    let built := x.buildCatalog around
    (x.keepCatalog built.outcome, built)

/-- A ticker for a symbol. -/
def ticker (_ : Exchange) (around : Surroundings) (_ : String) : Ticker := { time := around.now }

/-- Tickers for symbols, by symbol. -/
def tickers (x : Exchange) (around : Surroundings) (symbols : List String) : Table String Ticker :=
  Table.ofList (symbols.map fun s => (s, x.ticker around s))

/-! ## The account -/

/-- A snapshot of the account, with the balance of the settings if there is one. -/
def account (x : Exchange) (around : Surroundings) : Logged Account := do
  let settings ← x.currentSettings around
  let account : Account := { hasFeeRate := true }
  pure (match settings.balance with
    | none => account
    | some available => account.merge
        [(settlementCurrency, { currency := settlementCurrency, available })])

/-! ## Orders -/

/-- Submit a request. -/
def submit (x : Exchange) (around : Surroundings) (request : OrderRequest) :
    Exchange × Traced Failure Order :=
  let settings := x.currentSettings around
  let (ledger, answer) := Gate.submit x.ledger around.now request settings.value.dryRun
  ({ x with ledger }, do
    let _ ← Traced.ofLogged settings
    answer)

/-- The working orders, on one symbol if one is given and not empty. -/
def openOrders (x : Exchange) (symbol : String) : List Order := x.ledger.working (some symbol)

/-- Cancel orders by number. -/
def cancelOrders (x : Exchange) (around : Surroundings) (ids : List Int) :
    Exchange × Logged Unit :=
  let canceled := x.ledger.cancel around.now ids
  ({ x with ledger := canceled.value.1 }, do
    let (_, count) ← canceled
    Logged.note
      { severity := .debug, part := .exchange
        message := Text.ofString
          ("Canceled " ++ toString count ++ " of " ++ toString ids.length ++ " referenced orders") })

/-- The order with a number. -/
def order? (x : Exchange) (id : Int) : Option Order := x.ledger.get? id

end Exchange

end PaperVenue
