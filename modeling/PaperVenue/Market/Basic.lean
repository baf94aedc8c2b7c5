import PaperVenue.Venue
import PaperVenue.Table
import PaperVenue.Text.CodePoint
import PaperVenue.Decimal.Basic

/-!
# Markets

A market is an instrument that can be traded: its names, its two currencies, and the steps and
minima that orders on it have to keep.  Names and currencies may hold surrogates, because they come
out of catalog documents.  A market belongs to no venue until its catalog is normalized.
-/

namespace PaperVenue

/-- A tradable instrument. -/
structure Market where
  symbol : Text
  localSymbol : Text := []
  venue : Option Venue := none
  baseCurrency : Text := []
  quoteCurrency : Text := []
  pricePrecision : Int := 0
  volumePrecision : Int := 0
  quotePrecision : Int := 0
  tickSize : Decimal := .zero
  stepSize : Decimal := .zero
  minNotional : Decimal := .zero
  minQuantity : Decimal := .zero
  deriving DecidableEq

/-- Markets by key. -/
abbrev Catalog := Table Text Market

end PaperVenue
