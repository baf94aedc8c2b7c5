import PaperVenue.Venue
import PaperVenue.Journal
import PaperVenue.Decimal.Plain

/-!
# Orders

A request is what the host wants: a symbol, a side, an amount, a price.  An order is a request that
was accepted, with its number, its venue, its state and the times of its creation and of its last
change.  An order is new and working until it is canceled, and then it is neither, for good; fills
and rejections do not occur.

The one-line text of an order and its fields for the journal give amounts in plain notation.  An
amount that has none makes both of them signal.
-/

namespace PaperVenue

/-- Which way an order trades. -/
inductive Side where
  | buy | sell
  deriving DecidableEq

/-- How an order is priced. -/
inductive OrderType where
  | market | limit
  deriving DecidableEq

/-- How long an order stays. -/
inductive TimeInForce where
  | goodTillCanceled | immediateOrCancel | fillOrKill
  deriving DecidableEq

/-- Where an order is in its life. -/
inductive OrderStatus where
  | new | canceled
  deriving DecidableEq

/-! ## Texts of the enumerations -/

namespace Side

/-- Every side, in order of declaration. -/
def all : List Side := [buy, sell]

/-- The text of a side. -/
def text : Side → String
  | buy => "BUY"
  | sell => "SELL"

/-- The side with exactly this text. -/
def ofText? (s : String) : Option Side := all.find? fun x => x.text == s

theorem ofText?_text (x : Side) : ofText? x.text = some x := by cases x <;> rfl

end Side

namespace OrderType

/-- Every order type, in order of declaration. -/
def all : List OrderType := [market, limit]

/-- The text of an order type. -/
def text : OrderType → String
  | market => "MARKET"
  | limit => "LIMIT"

/-- The order type with exactly this text. -/
def ofText? (s : String) : Option OrderType := all.find? fun x => x.text == s

theorem ofText?_text (x : OrderType) : ofText? x.text = some x := by cases x <;> rfl

end OrderType

namespace TimeInForce

/-- Every time in force, in order of declaration. -/
def all : List TimeInForce := [goodTillCanceled, immediateOrCancel, fillOrKill]

/-- The text of a time in force. -/
def text : TimeInForce → String
  | goodTillCanceled => "GTC"
  | immediateOrCancel => "IOC"
  | fillOrKill => "FOK"

/-- The time in force with exactly this text. -/
def ofText? (s : String) : Option TimeInForce := all.find? fun x => x.text == s

theorem ofText?_text (x : TimeInForce) : ofText? x.text = some x := by cases x <;> rfl

end TimeInForce

namespace OrderStatus

/-- Every status, in order of declaration. -/
def all : List OrderStatus := [new, canceled]

/-- The text of a status. -/
def text : OrderStatus → String
  | new => "NEW"
  | canceled => "CANCELED"

/-- The status with exactly this text. -/
def ofText? (s : String) : Option OrderStatus := all.find? fun x => x.text == s

/-- Is no further change possible? -/
def isTerminal : OrderStatus → Bool
  | new => false
  | canceled => true

/-- Does an order with this status rest on the book? -/
def isWorking : OrderStatus → Bool
  | new => true
  | canceled => false

theorem ofText?_text (x : OrderStatus) : ofText? x.text = some x := by cases x <;> rfl

end OrderStatus

/-! ## Requests and orders -/

/-- What the host wants; the tag is the host's own mark, and may be missing. -/
structure OrderRequest where
  symbol : String
  side : Side
  orderType : OrderType
  quantity : Decimal
  price : Decimal := .zero
  timeInForce : TimeInForce := .goodTillCanceled
  tag : Option String := some ""
  clientOrderId : Option String := none
  deriving DecidableEq

/-- A moment: the number of the step in which something happens. -/
abbrev Moment := Nat

/-- An accepted order. -/
structure Order where
  id : Int
  venue : Venue
  request : OrderRequest
  status : OrderStatus := .new
  /-- The status in the venue's own words. -/
  venueStatus : String := "NEW"
  isWorking : Bool := true
  executedQuantity : Decimal := .zero
  created : Moment
  updated : Moment
  deriving DecidableEq

namespace Order

/-- A request just accepted. -/
def accept (id : Int) (venue : Venue) (now : Moment) (request : OrderRequest) : Order :=
  { id, venue, request, created := now, updated := now }

/-- The order, canceled. -/
def cancel (now : Moment) (o : Order) : Order :=
  { o with status := .canceled, venueStatus := "CANCELED", isWorking := false, updated := now }

/-- The order in one line. -/
def text (o : Order) : Except Decimal.Signal String := do
  let quantity ← o.request.quantity.plainText
  let price ← o.request.price.plainText
  pure ("ORDER #" ++ toString o.id ++ " " ++ o.request.symbol ++ " " ++ o.request.side.text ++ " " ++
    o.request.orderType.text ++ " " ++ quantity ++ " @ " ++ price ++ " -> " ++ o.status.text)

/-- The fields of the order for the journal. -/
def fields (o : Order) : Except Decimal.Signal (List (String × FieldValue)) := do
  let price ← o.request.price.plainText
  let quantity ← o.request.quantity.plainText
  pure
    [("exchange", .text o.venue.text), ("order_id", .integer o.id),
      ("symbol", .text o.request.symbol), ("side", .text o.request.side.text),
      ("order_type", .text o.request.orderType.text), ("price", .text price),
      ("quantity", .text quantity), ("time_in_force", .text o.request.timeInForce.text),
      ("status", .text o.status.text), ("tag", .ofText? o.request.tag)]

@[simp] theorem id_cancel (now : Moment) (o : Order) : (o.cancel now).id = o.id := rfl

@[simp] theorem isWorking_cancel (now : Moment) (o : Order) : (o.cancel now).isWorking = false := rfl

@[simp] theorem request_cancel (now : Moment) (o : Order) : (o.cancel now).request = o.request := rfl

end Order

end PaperVenue
