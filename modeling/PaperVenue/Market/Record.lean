import PaperVenue.Market.Basic
import PaperVenue.Market.IntegerText
import PaperVenue.Json.Value
import PaperVenue.Binary64.Shortest
import PaperVenue.Decimal.Numeral
import PaperVenue.Checked

/-!
# Records of a catalog document

A market stands in a document as an object, its record.  Every field of a record has two spellings,
of which the first one counts if both are there, even if its value is `null`; `null` and a missing
field mean the default; members that are no field are ignored.

Three kinds of fields read their values by different rules, `readText`, `readInteger` and
`readDecimal`, and each gives the `Problem` of a value it refuses.  A record is read by
`Record.read`, which finds the problems of all its fields, in the order in which the fields are
declared, each with the spelling under which the field was found.
-/

namespace PaperVenue

-- powers are those of the core library
attribute [local instance (1100)] instPowNat

/-- Why a value is refused. -/
inductive Problem where
  | notARecord
  | notText | notUnicodeText
  | notAnInteger | notAnIntegerText | fraction | tooLarge
  | notADecimal | notADecimalText
  | notFinite
  deriving DecidableEq

/-- The wording of a problem. -/
def Problem.message : Problem → String
  | notARecord => "Input should be a valid dictionary or instance of MarketRecord"
  | notText => "Input should be a valid string"
  | notUnicodeText => "Input should be a valid string, unable to parse raw data as a unicode string"
  | notAnInteger => "Input should be a valid integer"
  | notAnIntegerText => "Input should be a valid integer, unable to parse string as an integer"
  | fraction => "Input should be a valid integer, got a number with a fractional part"
  | tooLarge => "Unable to parse input string as an integer, exceeded maximum size"
  | notADecimal => "Decimal input should be an integer, float, string or Decimal object"
  | notADecimalText => "Input should be a valid decimal"
  | notFinite => "Input should be a finite number"

namespace Record

/-! ## Texts -/

/-- A field that holds a text. -/
def readText : Json → Except Problem Text
  | .text t => .ok t
  | _ => .error .notText

/-! ## Integers -/

/-- A text that spells an integer. -/
def readIntegerText (cs : List Char) : Except Problem Int :=
  (IntegerText.read cs).mapError fun
    | .malformed => .notAnIntegerText
    | .tooLong => .tooLarge

/-- A double that is an integer, of a magnitude below `2^63`. -/
def readIntegerDouble (x : Binary64) : Except Problem Int :=
  if !x.isFinite then .error .notFinite
  else match x.toInt? with
    | none => .error .fraction
    | some n => if n.natAbs < 2 ^ (63 : Nat) then .ok n else .error .tooLarge

/-- A field that holds an integer. -/
def readInteger : Json → Except Problem Int
  | .integer n => .ok n
  | .boolean b => .ok (if b then 1 else 0)
  | .double x => readIntegerDouble x
  | .text t => match t.toChars? with
    | none => .error .notUnicodeText
    | some cs => readIntegerText cs
  | _ => .error .notAnInteger

/-! ## Decimals -/

/-- A decimal, if it is finite. -/
def finiteOnly (d : Decimal) : Except Problem Decimal :=
  if d.isFinite then .ok d else .error .notFinite

/-- A field that holds a decimal.  A double stands for the decimal it is written as. -/
def readDecimal : Json → Except Problem Decimal
  | .integer n => .ok (.ofInt n)
  | .double x => match x.toDecimal? with
    | none => .error .notFinite
    | some d => .ok d
  | .text t => match t.toChars?.bind Decimal.read? with
    | none => .error .notADecimalText
    | some d => finiteOnly d
  | _ => .error .notADecimal

/-! ## Fields -/

/-- The two spellings of a field; the first one counts if both are there. -/
structure Spelling where
  main : String
  other : String

/-- A value that was refused, and the spelling under which it stood; a refused record has none. -/
structure FieldError where
  field : Option String
  problem : Problem

/-- The value of a field with the spelling under which it was found. -/
def find? (members : Table Text Json) (s : Spelling) : Option (String × Json) :=
  match Table.get? members (Text.ofString s.main) with
  | some v => some (s.main, v)
  | none => (Table.get? members (Text.ofString s.other)).map fun v => (s.other, v)

/-- Read a field: its value, or the default if it is missing or `null`. -/
def readField {α : Type} (read : Json → Except Problem α) (default : α)
    (members : Table Text Json) (main other : String) : Checked FieldError α :=
  match find? members ⟨main, other⟩ with
  | none => .ok default
  | some (_, .null) => .ok default
  | some (field, v) => (read v).mapError fun problem => { first := { field := some field, problem } }

/-- A field that holds a text, empty by default. -/
def textField (members : Table Text Json) : String → String → Checked FieldError Text :=
  readField readText [] members

/-- A field that holds an integer, zero by default. -/
def integerField (members : Table Text Json) : String → String → Checked FieldError Int :=
  readField readInteger 0 members

/-- A field that holds a decimal, zero by default. -/
def decimalField (members : Table Text Json) : String → String → Checked FieldError Decimal :=
  readField readDecimal .zero members

/-- The market of a record's fields, in the order in which they are declared. -/
def market (symbol localSymbol baseCurrency quoteCurrency : Text)
    (pricePrecision volumePrecision quotePrecision : Int)
    (tickSize stepSize minNotional minQuantity : Decimal) : Market :=
  { symbol, localSymbol, baseCurrency, quoteCurrency, pricePrecision, volumePrecision,
    quotePrecision, tickSize, stepSize, minNotional, minQuantity }

/-- Read the members of a record. -/
def readMembers (members : Table Text Json) : Checked FieldError Market :=
  let read := Checked.ap (.ok market) (textField members "symbol" "symbol")
  let read := read.ap (textField members "localSymbol" "local_symbol")
  let read := read.ap (textField members "baseCurrency" "base_currency")
  let read := read.ap (textField members "quoteCurrency" "quote_currency")
  let read := read.ap (integerField members "pricePrecision" "price_precision")
  let read := read.ap (integerField members "volumePrecision" "volume_precision")
  let read := read.ap (integerField members "quotePrecision" "quote_precision")
  let read := read.ap (decimalField members "tickSize" "tick_size")
  let read := read.ap (decimalField members "stepSize" "step_size")
  let read := read.ap (decimalField members "minNotional" "min_notional")
  read.ap (decimalField members "minQuantity" "min_quantity")

/-- Read a record. -/
def read : Json → Checked FieldError Market
  | .object members => readMembers members
  | _ => .error { first := { field := none, problem := .notARecord } }

end Record

end PaperVenue
