import PaperVenue.Files
import PaperVenue.Settings
import PaperVenue.Json.Error
import PaperVenue.Market.Record

/-!
# What can go wrong

A `VenueError` is an error of the venue itself: a catalog that cannot be read or understood, or an
operation that the venue does not offer.  It is kept as its cause, and what is reported about it,
the category, the code, the message, the operation, is computed from the cause.

A `Failure` is anything that can end an operation.  Beside venue errors these are signals of decimal
arithmetic, values that are refused before anything happens, something missing in the middle of an
operation, and an environment file that is no text.
-/

namespace PaperVenue

/-! ## Errors of the venue -/

/-- The category of a venue error. -/
inductive ErrorCategory where
  | catalogFile | catalogDocument | unsupported
  deriving DecidableEq

/-- The kind of a venue error; the general kind is for hosts that raise errors of their own. -/
inductive ErrorKind where
  | general | catalogFile | catalogDocument | unsupported
  deriving DecidableEq

namespace ErrorCategory

/-- Every category, in order of declaration. -/
def all : List ErrorCategory := [catalogFile, catalogDocument, unsupported]

/-- The text of a category. -/
def text : ErrorCategory → String
  | catalogFile => "CATALOG_IO"
  | catalogDocument => "CATALOG_DECODE"
  | unsupported => "UNSUPPORTED"

end ErrorCategory

namespace ErrorKind

/-- The category that a kind belongs to. -/
def category : ErrorKind → ErrorCategory
  | catalogFile => .catalogFile
  | catalogDocument => .catalogDocument
  | general | unsupported => .unsupported

/-- The code of a kind. -/
def code : ErrorKind → String
  | general => "ADAPTER_ERROR"
  | catalogFile => "CATALOG_IO"
  | catalogDocument => "CATALOG_DECODE"
  | unsupported => "UNSUPPORTED_OPERATION"

end ErrorKind

/-- What is reported about an error. -/
structure ErrorReport where
  kind : ErrorKind
  message : Text
  operation : Option String := none

/-- An error of the venue, as its cause. -/
inductive VenueError where
  /-- The catalog file cannot be read. -/
  | unreadable (path : Path) (fault : FileFault)
  /-- The catalog document is no JSON. -/
  | malformed (error : Json.ReadError)
  /-- A record of the catalog was refused: the place of the record, and its first error. -/
  | refusedRecord (record : Text) (error : Record.FieldError)
  /-- The catalog document has neither of the two shapes, or is an empty object. -/
  | shapeless
  /-- A record of an array has no symbol. -/
  | nameless (index : Nat)
  /-- Live trading is not offered. -/
  | liveTrading
  /-- Candles are not offered. -/
  | candles

/-- An error of another kind from which an error of the venue is raised. -/
inductive Cause where
  | file (fault : FileFault)
  | reader (error : Json.ReadError)
  | validation (record : Text) (error : Record.FieldError)

namespace VenueError

/-- The kind of an error. -/
def kind : VenueError → ErrorKind
  | unreadable _ _ => .catalogFile
  | malformed _ | refusedRecord _ _ | shapeless | nameless _ => .catalogDocument
  | liveTrading | candles => .unsupported

/-- The operation that fails with an error. -/
def operation : VenueError → String
  | unreadable _ _ => "load_catalog"
  | malformed _ | refusedRecord _ _ | shapeless | nameless _ => "decode_markets_json"
  | liveTrading => "submit_order"
  | candles => "query_klines"

/-- A refused record: its place, with the field if there is one, and the problem. -/
def refusal (record : Text) (error : Record.FieldError) : Text :=
  record ++ (match error.field with
    | some f => Text.ofString ("." ++ f)
    | none => []) ++ Text.ofString (": " ++ error.problem.message)

/-- The message for a document that cannot be decoded. -/
def undecoded (detail : Text) : Text :=
  Text.ofString "polymarket: decode markets json failed: " ++ detail

/-- The message of an error. -/
def message : VenueError → Text
  | unreadable path fault => Text.ofString
      ("polymarket: read " ++ marketsFileKey ++ " failed: " ++ fault.message path.text)
  | malformed error => undecoded (Text.ofString error.message)
  | refusedRecord record error => undecoded (refusal record error)
  | shapeless =>
      undecoded (Text.ofString "expected an object keyed by symbol or an array of markets")
  | nameless index => Text.ofString
      ("polymarket: market symbol is empty in json (record #" ++ toString index ++ ")")
  | liveTrading => Text.ofString
      ("polymarket: real trading is not implemented yet; set " ++ dryRunKey ++
        "=true to use dry-run")
  | candles => Text.ofString
      "polymarket: query_klines is not implemented (use a Binance session as the kline source)"

/-- The error that an error of the venue was raised from, if it was raised from one. -/
def cause? : VenueError → Option Cause
  | unreadable _ fault => some (.file fault)
  | malformed error => some (.reader error)
  | refusedRecord record error => some (.validation record error)
  | shapeless | nameless _ | liveTrading | candles => none

/-- What is reported about an error. -/
def report (e : VenueError) : ErrorReport :=
  { kind := e.kind, message := e.message, operation := some e.operation }

end VenueError

/-! ## Refused values -/

/-- A setting of a strategy that keeps it from being bound. -/
inductive SettingFault where
  | noSession | noSourceSymbol | noInterval | noTarget | entryPrice | quoteAmount
  deriving DecidableEq

/-- The two roles that a session can have for a strategy. -/
inductive SessionRole where
  | feed | trading
  deriving DecidableEq

/-- A value that is refused before anything happens. -/
inductive ValueFault where
  | embeddedNul
  | variableName
  | emptyVariableName
  | notAMember (enumeration value : String)
  /-- A word of an enumeration is wanted, and there is none. -/
  | noMember (enumeration : String)
  | unknownVenue (name : String)
  | setting (fault : SettingFault)
  | unknownSession (role : SessionRole) (name : String)
  deriving DecidableEq

/-- The wording of a setting's fault. -/
def SettingFault.message : SettingFault → String
  | noSession => "binance_session/polymarket_session is required"
  | noSourceSymbol => "source_symbol is required"
  | noInterval => "interval is required"
  | noTarget => "yes_symbol/no_symbol is required"
  | entryPrice => "entry_price must be positive"
  | quoteAmount => "quote_amount must be positive"

/-- The venue that a role needs. -/
def SessionRole.venue : SessionRole → Venue
  | feed => .binance
  | trading => .polymarket

/-- The wording of a refused value. -/
def ValueFault.message : ValueFault → String
  | embeddedNul => "embedded null byte"
  | variableName => "illegal environment variable name"
  | emptyVariableName => "[Errno 22] Invalid argument"
  | notAMember enumeration value => quoted value ++ " is not a valid " ++ enumeration
  | noMember enumeration => "[] is not a valid " ++ enumeration
  | unknownVenue name => "Unsupported exchange: " ++ name
  | setting fault => fault.message
  | unknownSession role name => role.venue.text ++ " session " ++ quoted name ++ " not found"

/-! ## Failures -/

/-- What an operation finds missing when it comes to need it. -/
inductive Missing where
  /-- The log level was left blank. -/
  | logLevel
  /-- An amount of an order was left blank. -/
  | amount
  /-- The session that a strategy is bound to is no exchange. -/
  | exchange
  deriving DecidableEq

/-- Anything that can end an operation. -/
inductive Failure where
  | venue (error : VenueError)
  | arithmetic (signal : Decimal.Signal)
  | value (fault : ValueFault)
  | unbound
  | missing (what : Missing)
  | environmentFile (error : DecodingError)

end PaperVenue
