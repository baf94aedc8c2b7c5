import PaperVenue.Market.Document

/-!
# Loading the catalog

The catalog comes from the file that the settings name, or else from the document that they hold,
or else there is none.  A catalog without markets, for whichever reason, is replaced by two example
markets.  Whatever it comes from, it is then normalized: every market is stamped with the venue,
and a market without a symbol takes the key under which it stands.
-/

namespace PaperVenue

namespace Catalog

/-- Load the catalog that the settings name; an empty one if they name none. -/
def load (settings : Settings) (files : Files) : Traced Failure Catalog :=
  match settings.marketsFile.filter (· ≠ "") with
  | some name => do
    if name.toList.contains '\x00' then throw (.value .embeddedNul)
    let path := Path.ofString name
    match files.read path.text with
    | .error fault => throw (.venue (.unreadable path fault))
    | .ok octets => do
      Traced.note .info .catalog (Text.ofString ("Loading market catalog from " ++ path.text))
      (decode (.octets octets)).mapError .venue
  | none => match settings.marketsJson.filter (· ≠ "") with
    | some document => do
      Traced.note .info .catalog (Text.ofString ("Loading market catalog from " ++ marketsJsonKey))
      (decode (.inline (Text.ofString document))).mapError .venue
    | none => pure []

/-- Stamp every market with the venue, and give a market without a symbol its key. -/
def normalize (catalog : Catalog) : Catalog :=
  Table.mapValues (fun key m =>
    { m with venue := some .polymarket, symbol := if m.symbol = [] then key else m.symbol }) catalog

/-- An example market: a position on the price of bitcoin a quarter of an hour ahead. -/
def exampleMarket (base : String) : Market :=
  let symbol := Text.ofString (base ++ "_" ++ settlementCurrency)
  { symbol, localSymbol := symbol
    baseCurrency := Text.ofString base
    quoteCurrency := Text.ofString settlementCurrency
    pricePrecision := 4, volumePrecision := 2, quotePrecision := 2
    tickSize := .finite false 1 (-4), stepSize := .finite false 1 (-2)
    minNotional := .ofNat 1, minQuantity := .ofNat 1 }

/-- The example markets, by symbol. -/
def examples : Catalog :=
  (["PM_BTC_15M_UP_YES", "PM_BTC_15M_UP_NO"].map exampleMarket).map fun m => (m.symbol, m)

/-- Load the catalog, put the example markets in place of an empty one, and normalize it. -/
def build (settings : Settings) (files : Files) : Traced Failure Catalog := do
  let catalog ← load settings files
  if catalog.isEmpty then
    Traced.note .info .catalog
      (Text.ofString "No market catalog configured, using built-in example markets")
    pure (normalize examples)
  else pure (normalize catalog)

end Catalog

end PaperVenue
