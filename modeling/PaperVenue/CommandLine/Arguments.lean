import PaperVenue.Text.Quoted
import PaperVenue.Text.DecimalDigit

/-!
# Command lines

A `Grammar` says which options a program knows and what its positional argument is; `Grammar.parse`
reads a command line by it.  What is read is collected in a value of the caller's choice, `α`: every
option and the positional argument bring a function that takes the text into that value or refuses
it.

Each argument is first sorted into one of three kinds of `Word`, and that depends on nothing but the
argument.  An argument that starts with a dash is an option: one of the grammar, spelled out or
shortened to a beginning that only one option has, possibly with its text behind `=`; or one that
nobody knows.  It is an ordinary argument if it is a dash alone, looks like a negative number, or
holds a space and is not an option of the grammar.  A lone `--` separates: everything behind it is
ordinary.

The words are then taken from the left.  An option takes the text behind its `=` or else the ordinary
argument right behind it; the first ordinary argument that is free is the positional one, and it may
take all the rest with it; what remains is handed back as unrecognized.

A text `--` behind an `=` separates nothing and is no text either: the option counts as given, but
is left blank.  Nobody checks a blank, so each option says itself what becomes of it.
-/

namespace PaperVenue

namespace CommandLine

/-- Why a command line is not carried out: help was asked for, or the usage is wrong. -/
inductive Stop where
  | help (program : String)
  | usage (program message : String)
  deriving DecidableEq

/-- The last line that is printed about wrong usage. -/
def usageLine (program message : String) : String := program ++ ": error: " ++ message

/-- An option: its spellings, whether it must be given, and what becomes of its text, or of none if
it is left blank.  Only the request for help takes no text. -/
structure OptionRule (α : Type) where
  flags : List String
  isRequired : Bool := false
  take : Option (Option String → α → Except String α)

/-- The positional argument: its name, whether it takes all the rest with it, and what becomes of
it. -/
structure Positional (α : Type) where
  name : String
  takesRest : Bool
  take : List String → α → Except Stop α

/-- What a program accepts. -/
structure Grammar (α : Type) where
  program : String
  options : List (OptionRule α)
  positional : Option (Positional α)

/-- The name of an option in messages: all its spellings. -/
def OptionRule.name {α : Type} (o : OptionRule α) : String := String.intercalate "/" o.flags

/-- A list of choices in a message. -/
def choiceList (choices : List String) : String := String.intercalate ", " (choices.map quoted)

/-- The message for a text that is none of the choices. -/
def invalidChoice (text : String) (choices : List String) : String :=
  "invalid choice: " ++ quoted text ++ " (choose from " ++ choiceList choices ++ ")"

/-! ## Words -/

/-- An argument that was recognised as an option: how it was typed, the option and how that is
spelled in full, and the text that came with it. -/
structure Recognised (α : Type) where
  typed : String
  rule : OptionRule α
  flag : String
  text : Option String := none

/-- An argument by its kind. -/
inductive Word (α : Type) where
  | ordinary (s : String)
  | separator (s : String)
  | option (r : Recognised α)
  | unknown (s : String)

/-- Split a text at its first `=`. -/
def splitAtEquals (cs : List Char) : String × Option String :=
  let front := cs.takeWhile (· ≠ '=')
  (String.ofList front, match cs.drop front.length with
    | _ :: back => some (String.ofList back)
    | [] => none)

/-- Does the first text begin the second? -/
def begins (a b : String) : Bool := a.toList.isPrefixOf b.toList

/-- Is it a digit of any script? -/
def isAnyDigit (c : Char) : Bool := (digitValue? c).isSome

/-- A dash and a number, with digits behind its point if it has one; one line feed may follow. -/
def looksNegative (s : String) : Bool :=
  match s.toList with
  | '-' :: cs =>
    let cs := if cs.getLast? = some '\n' then cs.dropLast else cs
    let whole := cs.takeWhile isAnyDigit
    match cs.drop whole.length with
    | [] => !whole.isEmpty
    | '.' :: fraction => !fraction.isEmpty && fraction.all isAnyDigit
    | _ => false
  | _ => false

namespace Grammar

variable {α : Type}

/-- Every spelling of every option, in order of declaration. -/
def spellings (g : Grammar α) : List (String × OptionRule α) :=
  g.options.flatMap fun o => o.flags.map fun f => (f, o)

/-- The option with exactly this spelling. -/
def spelledOut? (g : Grammar α) (flag : String) : Option (OptionRule α) :=
  (g.spellings.find? fun e => e.1 = flag).map Prod.snd

/-- The options that an argument may be short for.  Behind two dashes the part before `=` is short
for every spelling that it begins; behind one dash the text may be joined to a spelling of one
letter. -/
def candidates (g : Grammar α) (s : String) : List (Recognised α) :=
  match s.toList with
  | '-' :: '-' :: _ =>
    let (front, text) := splitAtEquals s.toList
    (g.spellings.filter fun e => begins front e.1).map fun e =>
      { typed := s, rule := e.2, flag := e.1, text }
  | cs =>
    g.spellings.filterMap fun e =>
      if e.1.toList = cs.take 2 then
        some { typed := s, rule := e.2, flag := e.1, text := some (String.ofList (cs.drop 2)) }
      else if begins s e.1 then some { typed := s, rule := e.2, flag := e.1 }
      else none

/-- The kind of an argument that starts with a dash and has more to it. -/
def classifyDashed (g : Grammar α) (s : String) : Except Stop (Word α) :=
  let (front, text) := splitAtEquals s.toList
  match g.spelledOut? s, text.bind fun t => (g.spelledOut? front).map fun o => (o, t) with
  | some rule, _ => .ok (.option { typed := s, rule, flag := s })
  | none, some (rule, t) => .ok (.option { typed := s, rule, flag := front, text := some t })
  | none, none => match g.candidates s with
    | [r] => .ok (.option r)
    | [] =>
      if looksNegative s || s.toList.contains ' ' then .ok (.ordinary s) else .ok (.unknown s)
    | several => .error (.usage g.program ("ambiguous option: " ++ s ++ " could match " ++
        String.intercalate ", " (several.map fun r => r.flag)))

/-- The kind of an argument. -/
def classify (g : Grammar α) (s : String) : Except Stop (Word α) :=
  match s.toList with
  | '-' :: _ :: _ => g.classifyDashed s
  | _ => .ok (.ordinary s)

/-- The kinds of all arguments; behind a separator all are ordinary. -/
def words (g : Grammar α) : List String → Except Stop (List (Word α))
  | [] => .ok []
  | s :: rest =>
    if s = "--" then .ok (.separator s :: rest.map .ordinary)
    else do
      let w ← g.classify s
      return w :: (← g.words rest)

/-! ## Taking words -/

/-- What was taken so far. -/
structure Progress (α : Type) where
  value : α
  given : List String := []
  unrecognized : List String := []

/-- The usage error of an option. -/
def optionError (g : Grammar α) (o : OptionRule α) (message : String) : Stop :=
  .usage g.program ("argument " ++ o.name ++ ": " ++ message)

/-- The text that leaves an option blank. -/
def blankText : String := "--"

/-- Take the text of an option, or none if it is left blank. -/
def takeText (g : Grammar α) (r : Recognised α) (take : Option String → α → Except String α)
    (text : Option String) (p : Progress α) : Except Stop (Progress α) :=
  match take text p.value with
  | .error message => .error (g.optionError r.rule message)
  | .ok value => .ok { p with value, given := r.rule.name :: p.given }

/-- What is left of a text that came with a flag which takes none: if the flag is a single letter,
the same letter may be repeated. -/
def unusedText (flag text : String) : String :=
  match flag.toList with
  | ['-', letter] => String.ofList (text.toList.dropWhile (· = letter))
  | _ => text

/-- A request for help: a text that came with it is an error, unless it only repeats the request. -/
def takeHelp (g : Grammar α) (r : Recognised α) : Stop :=
  match r.text with
  | none => .help g.program
  | some text =>
    let unused := unusedText r.flag text
    if unused = "" && text ≠ "" then .help g.program
    else g.optionError r.rule ("ignored explicit argument " ++ quoted unused)

/-- Take the positional argument. -/
def takePositional (a : Positional α) (texts : List String) (p : Progress α) :
    Except Stop (Progress α) := do
  let value ← a.take texts p.value
  return { p with value, given := a.name :: p.given }

/-- The argument as it was typed. -/
def spelled : Word α → String
  | .ordinary s => s
  | .separator s => s
  | .unknown s => s
  | .option r => r.typed

/-- Add an argument to the unrecognized ones. -/
def leave (p : Progress α) (s : String) : Progress α :=
  { p with unrecognized := p.unrecognized ++ [s] }

/-- Take the text that came with an option, or the ordinary argument behind it if there is one.  The
answer says whether that argument was used. -/
def takeOption (g : Grammar α) (r : Recognised α) (next : Option String) (p : Progress α) :
    Except Stop (Progress α × Bool) :=
  match r.rule.take with
  | none => .error (g.takeHelp r)
  | some take => match r.text, next with
    | some t, _ => return (← g.takeText r take (if t = blankText then none else some t) p, false)
    | none, some t => return (← g.takeText r take (some t) p, true)
    | none, none => .error (g.optionError r.rule "expected one argument")

/-- Take words from the left; `free` is the positional argument that was not taken yet.  A separator
beside the positional argument goes with it. -/
def consume (g : Grammar α) :
    List (Word α) → Option (Positional α) → Progress α → Except Stop (Progress α)
  | [], _, p => .ok p
  | .unknown s :: rest, free, p => g.consume rest free (leave p s)
  | .option r :: .ordinary t :: rest, free, p =>
    match g.takeOption r (some t) p with
    | .error e => .error e
    | .ok (p, true) => g.consume rest free p
    | .ok (p, false) => g.consume (.ordinary t :: rest) free p
  | .option r :: rest, free, p =>
    match g.takeOption r none p with
    | .error e => .error e
    | .ok (p, _) => g.consume rest free p
  | .ordinary s :: .separator t :: rest, some a, p =>
    if a.takesRest then takePositional a (s :: t :: rest.map spelled) p
    else match takePositional a [s] p with
      | .error e => .error e
      | .ok p => g.consume rest none p
  | .separator s :: .ordinary t :: rest, some a, p =>
    if a.takesRest then takePositional a (s :: t :: rest.map spelled) p
    else match takePositional a [t] p with
      | .error e => .error e
      | .ok p => g.consume rest none p
  | .ordinary s :: rest, some a, p =>
    if a.takesRest then takePositional a (s :: rest.map spelled) p
    else match takePositional a [s] p with
      | .error e => .error e
      | .ok p => g.consume rest none p
  | .ordinary s :: rest, none, p => g.consume rest none (leave p s)
  | .separator s :: rest, free, p => g.consume rest free (leave p s)

/-- The arguments that must be given and are not. -/
def missing (g : Grammar α) (given : List String) : List String :=
  let names := (g.positional.map Positional.name).toList ++
    (g.options.filter OptionRule.isRequired).map OptionRule.name
  names.filter fun n => !given.contains n

/-- Read a command line: the value, and the arguments that were not recognised. -/
def parse (g : Grammar α) (init : α) (args : List String) : Except Stop (α × List String) := do
  let p ← g.consume (← g.words args) g.positional { value := init }
  match g.missing p.given with
  | [] => return (p.value, p.unrecognized)
  | names => .error (.usage g.program
      ("the following arguments are required: " ++ String.intercalate ", " names))

end Grammar

end CommandLine

end PaperVenue
