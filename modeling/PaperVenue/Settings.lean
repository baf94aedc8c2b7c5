import PaperVenue.Journal
import PaperVenue.Text.Blank
import PaperVenue.Text.Lowercase
import PaperVenue.Text.Quoted
import PaperVenue.Decimal.Numeral

/-!
# Settings

Four settings govern the venue: two catalog sources, the trading mode, and the balance that account
snapshots show.  They are given explicitly, or read from the environment.

Settings from the environment are lenient.  Blanks around a value do not count, and a value that is
blank counts as absent.  A flag or a decimal that cannot be understood is noted and otherwise
treated as absent; an infinity or a not-a-number is treated as absent without a note.
-/

namespace PaperVenue

/-- The variables of a process. -/
abbrev Environment := Table String String

/-- The variable that names a catalog file. -/
def marketsFileKey : String := "POLYMARKET_MARKETS_FILE"

/-- The variable that holds a catalog document. -/
def marketsJsonKey : String := "POLYMARKET_MARKETS_JSON"

/-- The variable that chooses the trading mode. -/
def dryRunKey : String := "POLYMARKET_DRY_RUN"

/-- The variable that holds the balance. -/
def balanceKey : String := "POLYMARKET_BALANCE_USDC"

/-- The currency in which markets settle. -/
def settlementCurrency : String := "USDC"

/-- What governs the venue. -/
structure Settings where
  /-- A catalog file; an empty path means none. -/
  marketsFile : Option String := none
  /-- A catalog document; it counts only if there is no catalog file. -/
  marketsJson : Option String := none
  /-- Orders are accepted into the ledger and go nowhere else. -/
  dryRun : Bool := true
  /-- The balance of account snapshots. -/
  balance : Option Decimal := none

namespace Settings

/-- The words for yes. -/
def yesWords : List String := ["1", "t", "true", "y", "yes", "on"]

/-- The words for no. -/
def noWords : List String := ["0", "f", "false", "n", "no", "off"]

/-- The value of a word, blanks around it and capitals not counting. -/
def flagOf? (s : String) : Option Bool :=
  let word := lowercase (trimBlanks s)
  if yesWords.contains word then some true
  else if noWords.contains word then some false
  else none

/-- The text of a flag in a note. -/
def flagText (b : Bool) : String := if b then "True" else "False"

/-- A note of the settings. -/
def debugNote (message : String) : Logged Unit :=
  Logged.note { severity := .debug, part := .config, message := Text.ofString message }

/-- Read a flag. -/
def readFlag (value : Option String) (default : Bool) : Logged Bool :=
  match value with
  | none => pure default
  | some s => match flagOf? s with
    | some b => pure b
    | none =>
      if trimBlanks s = "" then pure default
      else do
        debugNote ("Unparseable boolean " ++ quoted s ++ ", using default " ++ flagText default)
        pure default

/-- Read a decimal. -/
def readDecimal (value : Option String) : Logged (Option Decimal) :=
  match value with
  | none => pure none
  | some s =>
    if trimBlanks s = "" then pure none
    else match Decimal.ofString? (trimBlanks s) with
      | none => do
        debugNote ("Unparseable decimal " ++ quoted s ++ ", ignoring")
        pure none
      | some d => pure (if d.isFinite then some d else none)

/-- Read a text: blanks around it go, and a blank text is none. -/
def readText (value : Option String) : Option String :=
  (value.map trimBlanks).filter (· ≠ "")

/-- Read the settings from the environment. -/
def ofEnvironment (env : Environment) : Logged Settings := do
  let dryRun ← readFlag (Table.get? env dryRunKey) true
  let balance ← readDecimal (Table.get? env balanceKey)
  pure
    { marketsFile := readText (Table.get? env marketsFileKey)
      marketsJson := readText (Table.get? env marketsJsonKey)
      dryRun, balance }

end Settings

end PaperVenue
