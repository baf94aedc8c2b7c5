import PaperVenue.Text.Blank
import PaperVenue.Text.Lowercase

/-!
# Venues

The host trades on two venues.  A venue is written by its text; a venue that a user typed is
recognised after blanks at the ends are cut off and capitals are made small, so ` PolyMarket` is
one, and a name that is not recognised is reported as it was typed.
-/

namespace PaperVenue

/-- A venue known to the host. -/
inductive Venue where
  | binance | polymarket
  deriving DecidableEq

namespace Venue

/-- Every venue, in order of declaration. -/
def all : List Venue := [binance, polymarket]

/-- The text of a venue. -/
def text : Venue → String
  | binance => "binance"
  | polymarket => "polymarket"

/-- The constant that names a venue. -/
def constant : Venue → String
  | binance => "BINANCE"
  | polymarket => "POLYMARKET"

/-- The venue with exactly this text. -/
def ofText? (s : String) : Option Venue := all.find? fun v => v.text == s

/-- The venue that a typed name means. -/
def ofName? (name : String) : Option Venue := ofText? (lowercase (trimBlanks name))

/-- The picture shown beside notices about a venue. -/
def icon : Venue → String
  | binance => "https://bin.bnbstatic.com/static/images/common/favicon.ico"
  | polymarket => "https://polymarket.com/favicon.ico"

/-- Is there a picture for the venue? -/
def isSupported (v : Venue) : Bool := !v.icon.isEmpty

theorem ofText?_text (v : Venue) : ofText? v.text = some v := by cases v <;> rfl

end Venue

end PaperVenue
