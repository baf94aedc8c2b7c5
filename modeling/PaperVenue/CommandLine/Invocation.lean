import PaperVenue.CommandLine.Arguments
import PaperVenue.Decimal.Numeral
import PaperVenue.Failure
import PaperVenue.Order.Basic

/-!
# What the program can be told to do

The program prints the markets, prints the account, or submits one order.  Before the command stand
the options of the program, behind it those of the command.  `Invocation.ofArguments` reads a command
line.

What the options say about an order is collected in a form.  A field of the form is empty if the
option was left blank, which no default makes good.  `OrderForm.request` turns the form into a
request and refuses empty fields where one of several words is needed; a tag may be missing, and
zero stands in for a missing amount, so whoever carries out the request has to ask the form whether
it `hasAmounts`.
-/

namespace PaperVenue

namespace CommandLine

/-- An order as the options describe it; a field that was left blank is empty. -/
structure OrderForm where
  symbol : String := ""
  side : Option Side := some .buy
  orderType : Option OrderType := some .limit
  price : Option Decimal := some .zero
  quantity : Option Decimal := none
  timeInForce : Option TimeInForce := some .goodTillCanceled
  tag : Option String := some "cli"

/-- What to do. -/
inductive Command where
  | markets
  | account
  | submit (form : OrderForm)

/-- A command line that was read; a log level that was left blank is none. -/
structure Invocation where
  envFile : Option String := none
  logLevel : Option String := some "INFO"
  command : Command := .markets

/-- The name of the program. -/
def programName : String := "polymarket-adapter"

/-! ## Options -/

/-- The request for help. -/
def helpOption {α : Type} : OptionRule α := { flags := ["-h", "--help"], take := none }

/-- An option whose text is taken as it stands. -/
def textOption {α : Type} (flag : String) (set : Option String → α → α) : OptionRule α :=
  { flags := [flag], take := some fun s a => .ok (set s a) }

/-- An option whose text is one of several. -/
def choiceOption {α β : Type} (flag : String) (choices : List β) (text : β → String)
    (set : Option β → α → α) : OptionRule α :=
  { flags := [flag]
    take := some fun s a => match s with
      | none => .ok (set none a)
      | some s => match choices.find? fun c => text c == s with
        | some c => .ok (set (some c) a)
        | none => .error (invalidChoice s (choices.map text)) }

/-- An option whose text is a decimal. -/
def decimalOption {α : Type} (flag : String) (isRequired : Bool) (set : Option Decimal → α → α) :
    OptionRule α :=
  { flags := [flag], isRequired
    take := some fun s a => match s with
      | none => .ok (set none a)
      | some s => match Decimal.ofString? s with
        | some d => .ok (set (some d) a)
        | none => .error ("invalid decimal value: " ++ quoted s) }

/-! ## Submitting -/

namespace OrderForm

/-- The arguments of a submission; only the symbol and the quantity have to be given. -/
def grammar : Grammar OrderForm :=
  { program := programName ++ " submit"
    options :=
      [helpOption,
        choiceOption "--side" Side.all Side.text fun side f => { f with side },
        choiceOption "--type" OrderType.all OrderType.text fun orderType f => { f with orderType },
        decimalOption "--price" false fun price f => { f with price },
        decimalOption "--quantity" true fun quantity f => { f with quantity },
        choiceOption "--time-in-force" TimeInForce.all TimeInForce.text
          fun timeInForce f => { f with timeInForce },
        textOption "--tag" fun tag f => { f with tag }]
    positional := some
      { name := "symbol", takesRest := false
        take := fun ss f => .ok { f with symbol := ss.headD "" } } }

/-- Does the form hold both amounts? -/
def hasAmounts (f : OrderForm) : Bool := f.quantity.isSome && f.price.isSome

/-- A field that must hold one of several words. -/
def chosen {α : Type} (enumeration : String) (field : Option α) : Except ValueFault α :=
  match field with
  | some a => .ok a
  | none => .error (.noMember enumeration)

/-- The request that a form describes. -/
def request (f : OrderForm) : Except ValueFault OrderRequest := do
  let side ← chosen "OrderSide" f.side
  let orderType ← chosen "OrderType" f.orderType
  let timeInForce ← chosen "TimeInForce" f.timeInForce
  return { symbol := f.symbol, side, orderType, quantity := f.quantity.getD .zero
           price := f.price.getD .zero, timeInForce, tag := f.tag }

end OrderForm

/-- The arguments of a command that has none. -/
def plainGrammar (name : String) : Grammar Unit :=
  { program := programName ++ " " ++ name, options := [helpOption], positional := none }

/-! ## The program -/

/-- The names of the commands. -/
def commandNames : List String := ["markets", "account", "submit"]

/-- Read a command and its arguments: the command, and the arguments that were not recognised. -/
def readCommand (name : String) (args : List String) : Except Stop (Command × List String) :=
  match name with
  | "markets" => return (.markets, (← (plainGrammar name).parse () args).2)
  | "account" => return (.account, (← (plainGrammar name).parse () args).2)
  | "submit" => do
    let (form, extras) ← OrderForm.grammar.parse {} args
    return (.submit form, extras)
  | _ => .error (.usage programName
      ("argument command: " ++ invalidChoice name commandNames))

/-- The severities that a log level can name. -/
def logLevels : List String := ["DEBUG", "INFO", "WARNING", "ERROR", "CRITICAL"]

/-- The arguments of the program; the command takes the rest, and what it does not recognise is
collected beside the invocation. -/
def grammar : Grammar (Invocation × List String) :=
  { program := programName
    options :=
      [helpOption,
        textOption "--env-file" fun envFile v => ({ v.1 with envFile }, v.2),
        choiceOption "--log-level" logLevels id fun logLevel v => ({ v.1 with logLevel }, v.2)]
    positional := some
      { name := "command", takesRest := true
        take := fun ss v => do
          let (command, extras) ← readCommand (ss.headD "") ss.tail
          return ({ v.1 with command }, v.2 ++ extras) } }

/-- Read a command line; arguments that nobody recognises are wrong usage. -/
def Invocation.ofArguments (args : List String) : Except Stop Invocation := do
  let ((invocation, inner), outer) ← grammar.parse ({}, []) args
  match outer ++ inner with
  | [] => return invocation
  | extras => .error (.usage programName
      ("unrecognized arguments: " ++ String.intercalate " " extras))

end CommandLine

end PaperVenue
