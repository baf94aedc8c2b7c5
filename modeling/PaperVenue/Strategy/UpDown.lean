import PaperVenue.Failure
import PaperVenue.Order.Basic
import PaperVenue.Decimal.Comparison

/-!
# The up-or-down strategy

The strategy watches candles of one symbol on one session and trades on another: a candle that
closes above its open buys the market that pays if the price goes up, any other candle the market
that pays if it does not.  It spends a fixed amount per signal at a fixed price, so the quantity is
their quotient.

Binding a strategy fills unset settings with defaults, checks them, and attaches the trading
session.  A binding that fails leaves the session attached before; the defaults it has filled in
stay.  Filling in stops midway if an amount is a signaling not-a-number, because it cannot be
compared with zero.

What a session is does not matter here: the strategy holds whatever the session map holds under the
name.
-/

namespace PaperVenue

/-- A candle that has closed. -/
structure Candle where
  symbol : String
  interval : String
  opening : Decimal
  close : Decimal

namespace UpDown

/-- The name of the strategy; its orders carry it as their tag. -/
def strategyId : String := "polymarket-btc15m-updown"

/-- The settings of the strategy; empty texts and zeros are unset. -/
structure Settings where
  feedSession : String := ""
  tradingSession : String := ""
  sourceSymbol : String := ""
  interval : String := ""
  upSymbol : String := ""
  downSymbol : String := ""
  entryPrice : Decimal := .zero
  quoteAmount : Decimal := .zero
  deriving DecidableEq

/-- New values for some of the settings. -/
structure Assignment where
  feedSession : Option String := none
  tradingSession : Option String := none
  sourceSymbol : Option String := none
  interval : Option String := none
  upSymbol : Option String := none
  downSymbol : Option String := none
  entryPrice : Option Decimal := none
  quoteAmount : Option Decimal := none

namespace Settings

/-- The settings with new values for some of them. -/
def assign (s : Settings) (a : Assignment) : Settings :=
  { feedSession := a.feedSession.getD s.feedSession
    tradingSession := a.tradingSession.getD s.tradingSession
    sourceSymbol := a.sourceSymbol.getD s.sourceSymbol
    interval := a.interval.getD s.interval
    upSymbol := a.upSymbol.getD s.upSymbol
    downSymbol := a.downSymbol.getD s.downSymbol
    entryPrice := a.entryPrice.getD s.entryPrice
    quoteAmount := a.quoteAmount.getD s.quoteAmount }

/-- A text, or a default if it is empty. -/
def orDefault (s default : String) : String := if s = "" then default else s

/-- The texts, with defaults for the empty ones. -/
def withTexts (s : Settings) : Settings :=
  { s with
    feedSession := orDefault s.feedSession "binance"
    tradingSession := orDefault s.tradingSession "polymarket"
    sourceSymbol := orDefault s.sourceSymbol "BTCUSDT"
    interval := orDefault s.interval "15m"
    upSymbol := orDefault s.upSymbol "PM_BTC_15M_UP_YES_USDC"
    downSymbol := orDefault s.downSymbol "PM_BTC_15M_UP_NO_USDC" }

/-- The price that an unset one becomes: a half. -/
def defaultPrice : Decimal := .finite false 5 (-1)

/-- The amount that an unset one becomes. -/
def defaultAmount : Decimal := .ofNat 5

/-- An amount, or a default if it is zero. -/
def amountOr (d default : Decimal) : Except Decimal.Signal Decimal := do
  pure (if ← d.numericallyEqual .zero then default else d)

/-- Fill unset settings; a signal stops the filling where it occurs. -/
def fill (s : Settings) : Settings × Except Decimal.Signal Unit :=
  let s := s.withTexts
  match amountOr s.entryPrice defaultPrice with
  | .error e => (s, .error e)
  | .ok entryPrice =>
    let s := { s with entryPrice }
    match amountOr s.quoteAmount defaultAmount with
    | .error e => (s, .error e)
    | .ok quoteAmount => ({ s with quoteAmount }, .ok ())

/-- Refuse the settings for a fault if a condition holds. -/
def refuseIf (condition : Bool) (fault : SettingFault) : Except Failure Unit :=
  if condition then .error (.value (.setting fault)) else .ok ()

/-- Refuse the settings for a fault unless an amount is positive. -/
def requirePositive (d : Decimal) (fault : SettingFault) : Except Failure Unit := do
  refuseIf (← (d.le .zero).mapError .arithmetic) fault

/-- Check the settings. -/
def validate (s : Settings) : Except Failure Unit := do
  refuseIf (s.feedSession = "" || s.tradingSession = "") .noSession
  refuseIf (s.sourceSymbol = "") .noSourceSymbol
  refuseIf (s.interval = "") .noInterval
  refuseIf (s.upSymbol = "" || s.downSymbol = "") .noTarget
  requirePositive s.entryPrice .entryPrice
  requirePositive s.quoteAmount .quoteAmount

/-- Is the candle one that the strategy watches? -/
def watches (s : Settings) (c : Candle) : Bool :=
  c.symbol = s.sourceSymbol && c.interval = s.interval

/-- The symbol to buy. -/
def target (s : Settings) (up : Bool) : String := if up then s.upSymbol else s.downSymbol

/-- How much to buy. -/
def quantity (s : Settings) : Except Decimal.Signal Decimal := s.quoteAmount.div s.entryPrice

/-- The request for a signal. -/
def request (s : Settings) (up : Bool) (quantity : Decimal) : OrderRequest :=
  { symbol := s.target up, side := .buy, orderType := .limit, price := s.entryPrice, quantity
    timeInForce := .goodTillCanceled, tag := some strategyId }

/-- The fields of a signal for the journal. -/
def signalFields (s : Settings) (c : Candle) (r : OrderRequest) :
    Except Decimal.Signal (List (String × FieldValue)) := do
  let opening ← c.opening.plainText
  let close ← c.close.plainText
  let price ← s.entryPrice.plainText
  let amount ← s.quoteAmount.plainText
  let quantity ← r.quantity.plainText
  pure
    [("source", .text s.sourceSymbol), ("interval", .text s.interval), ("open", .text opening),
      ("close", .text close), ("target_symbol", .text r.symbol), ("entry_price", .text price),
      ("quote_amount", .text amount), ("order_quantity", .text quantity)]

/-- The signal of a candle that the strategy watches: the request, which is noted. -/
def signal (s : Settings) (c : Candle) : Traced Failure OrderRequest := do
  let up ← Traced.ofExcept ((c.close.gt c.opening).mapError .arithmetic)
  let quantity ← Traced.ofExcept (s.quantity.mapError .arithmetic)
  let r := s.request up quantity
  let fields ← Traced.ofExcept ((s.signalFields c r).mapError .arithmetic)
  Traced.note .info .strategy
    (Text.ofString "signal generated, submitting polymarket order") fields
  pure r

end Settings

end UpDown

/-- A strategy: its settings, and the session it trades on, if one is attached. -/
structure UpDown (σ : Type) where
  settings : UpDown.Settings := {}
  trading : Option σ := none

namespace UpDown

variable {σ : Type}

/-- Fill unset settings. -/
def fillDefaults (u : UpDown σ) : UpDown σ × Except Failure Unit :=
  let (settings, done) := u.settings.fill
  ({ u with settings }, done.mapError .arithmetic)

/-- Give some of the settings new values; nothing is checked. -/
def assign (u : UpDown σ) (a : Assignment) : UpDown σ :=
  { u with settings := u.settings.assign a }

/-- The session under a name. -/
def findSession (sessions : Table String σ) (role : SessionRole) (name : String) :
    Except Failure σ :=
  match Table.get? sessions name with
  | some session => .ok session
  | none => .error (.value (.unknownSession role name))

/-- The trading session that checked settings name. -/
def resolve (s : Settings) (sessions : Table String σ) : Except Failure σ := do
  s.validate
  let _ ← findSession sessions .feed s.feedSession
  findSession sessions .trading s.tradingSession

/-- Bind the strategy to sessions. -/
def bind (u : UpDown σ) (sessions : Table String σ) : UpDown σ × Except Failure Unit :=
  match u.fillDefaults with
  | (u, .error e) => (u, .error e)
  | (u, .ok ()) => match resolve u.settings sessions with
    | .error e => (u, .error e)
    | .ok session => ({ u with trading := some session }, .ok ())

end UpDown

end PaperVenue
