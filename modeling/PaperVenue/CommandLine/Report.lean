import PaperVenue.CommandLine.Invocation
import PaperVenue.EnvFile.Loading
import PaperVenue.Decimal.Scientific

/-!
# Carrying out a command line

A command line is read, the environment file is loaded, and the command is put to a fresh exchange
without settings of its own.  What it answers is printed: the markets in order of their keys, the
account with its balances in order of currency, or the order in one line.  A venue error is printed
as an error, and nothing else is; every other failure ends the program.

The notes of `run` are those of the venue.  `journal` puts those of the loader of environment files
in front of them, as they are written.

Options that were left blank fail where they are needed.  A blank log level ends the program before
anything else happens.  A blank amount ends it when the amount is to be shown, which that of an
order that is turned away never is.
-/

namespace PaperVenue

namespace CommandLine

/-- How the program ended: stopped over its command line, or with an exit code and what it printed. -/
inductive Outcome where
  | stopped (why : Stop)
  | finished (code : Nat) (output errors : Text)

/-- A line of output. -/
def line (t : Text) : Text := t ++ [.scalar '\n']

/-- A text filled up with spaces to a width. -/
def padded (width : Nat) (t : Text) : Text := t ++ List.replicate (width - t.length) (.scalar ' ')

/-- The width of the column of keys. -/
def keyWidth : Nat := 32

/-- A decimal in a line. -/
def amount (d : Decimal) : Text := Text.ofChars d.toChars

/-- The line of a market. -/
def marketLine (key : Text) (m : Market) : Text :=
  line (padded keyWidth key ++ " local=" ++ m.localSymbol ++ " " ++ m.baseCurrency ++ "/" ++
    m.quoteCurrency ++ " tick=" ++ amount m.tickSize ++ " step=" ++ amount m.stepSize ++
    " min_notional=" ++ amount m.minNotional ++ " min_qty=" ++ amount m.minQuantity)

/-- The markets, in order of their keys. -/
def marketsOutput (c : Catalog) : Text :=
  (c.mergeSort fun a b => Text.le a.1 b.1).flatMap fun e => marketLine e.1 e.2

/-- The line of a balance. -/
def balanceLine (currency : String) (b : Balance) : Text :=
  line (currency ++ ": available=" ++ amount b.available ++ " locked=" ++ amount b.locked)

/-- The account: its balances in order of currency, and its fee rates. -/
def accountOutput (a : Account) : Text :=
  let balances := a.balances.mergeSort fun a b => Text.le (Text.ofString a.1) (Text.ofString b.1)
  (if balances.isEmpty then line "No balances configured" else []) ++
    (balances.flatMap fun e => balanceLine e.1 e.2) ++
    line ("maker_fee=" ++ amount a.feeRates.maker ++ " taker_fee=" ++ amount a.feeRates.taker)

/-- Is a note shown at a log level?  It is if its severity is that level or above. -/
def isShown (logLevel : Option String) (n : Note) : Bool :=
  logLevel.any fun level => logLevels.idxOf level ≤ logLevels.idxOf n.severity.text

/-- The lines of the journal at a log level. -/
def journalOutput (logLevel : Option String) (notes : List Note) : Text :=
  (notes.filter (isShown logLevel)).flatMap fun n =>
    line (n.severity.text ++ " | " ++ n.part.logger ++ " | " ++ n.message)

/-- The failure of an accepted order that lacks an amount; the quantity is shown before the price,
so one that cannot be shown fails first. -/
def lackFailure (f : OrderForm) : Failure :=
  match f.quantity.map Decimal.plainText with
  | some (.error signal) => .arithmetic signal
  | _ => .missing .amount

/-- Submit the order of a form to a fresh exchange. -/
def submit (around : Surroundings) (f : OrderForm) : Traced Failure Order := do
  let request ← Traced.ofExcept (f.request.mapError .value)
  let exchange : Exchange := {}
  let settings := exchange.currentSettings around
  if f.hasAmounts || !settings.value.dryRun then (exchange.submit around request).2
  else do
    let _ ← Traced.ofLogged settings
    throw (lackFailure f)

/-- Put a command to a fresh exchange: what is printed. -/
def output (around : Surroundings) : Command → Traced Failure Text
  | .markets => marketsOutput <$> (({} : Exchange).markets around).2
  | .account => accountOutput <$> Traced.ofLogged (({} : Exchange).account around)
  | .submit form => do
    let order ← submit around form
    let text ← Traced.ofExcept (order.text.mapError .arithmetic)
    pure (line text)

/-- Print what a command answers, or the venue error that ended it. -/
def finish (answer : Traced Failure Text) : Traced Failure Outcome :=
  match answer.outcome with
  | .error (.venue e) => do
    Traced.ofLogged { value := (), notes := answer.notes }
    pure (.finished 1 [] (line ("Error: " ++ e.message)))
  | _ => (fun t => .finished 0 t []) <$> answer

/-- Carry out a command that was read. -/
def carryOut (invocation : Invocation) (env : Environment) (files : Files) :
    Traced Failure Outcome := do
  if invocation.logLevel.isNone then throw (.missing .logLevel)
  let environment ← Traced.ofExcept (EnvFile.load env files invocation.envFile)
  finish (output { environment, files } invocation.command)

/-- Carry out a command line. -/
def run (args : List String) (env : Environment) (files : Files) : Traced Failure Outcome :=
  match Invocation.ofArguments args with
  | .error why => pure (.stopped why)
  | .ok invocation => carryOut invocation env files

/-- Everything that is noted when a command line is carried out: what the loader notes, and then
what the venue notes.  Wrong usage and a blank log level come before any note. -/
def journal (args : List String) (env : Environment) (files : Files) : List Note :=
  match Invocation.ofArguments args with
  | .error _ => []
  | .ok invocation =>
    if invocation.logLevel.isNone then []
    else EnvFile.notes env files invocation.envFile ++ (run args env files).notes

/-! ## What a command line looks at -/

/-- The variables that a command line can look at. -/
def variableNames (invocation : Invocation) (files : Files) : List String :=
  [marketsFileKey, marketsJsonKey, dryRunKey, balanceKey] ++
    EnvFile.mentioned files invocation.envFile

/-- The catalog file that the settings name, once the environment file is loaded. -/
def catalogPath? (invocation : Invocation) (env : Environment) (files : Files) : Option String :=
  match EnvFile.load env files invocation.envFile with
  | .ok environment => (Settings.ofEnvironment environment).value.marketsFile
  | .error _ => none

end CommandLine

end PaperVenue
