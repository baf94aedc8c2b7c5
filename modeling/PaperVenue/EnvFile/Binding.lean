import PaperVenue.Text.Blank
import PaperVenue.Encoding.Utf8

/-!
# The lines of an environment file

An environment file holds bindings, one to a line unless a quoted value runs over several lines:

    binding  =  ["export" blanks] [key] [blanks] ["=" [blanks] value] [comment]
    key      =  "'" characters "'"  |  characters without "=", "#" and blanks
    value    =  "'" ... "'"  |  '"' ... '"'  |  the rest of the line
    comment  =  [blanks] "#" characters

A key without `=` is bound to no value.  An unquoted value ends before a `#` that has a blank in
front of it, the blanks behind the `=` included, and blanks at its end go.  A quoted value ends at
the first quote that is not behind a backslash, where a backslash that is itself behind a backslash
does not count; some characters behind a backslash stand for others.

A line that is not of this form is skipped from the place where it went wrong, and the next line is
read as if it had not been there.  A `Parser` therefore gives, when it fails, what was still unread.

So a file is a list of statements, `statements`: its bindings, and the numbers of the lines at which
something begins that cannot be read.
-/

namespace PaperVenue

namespace EnvFile

/-- A key and its value, if it has one. -/
structure Binding where
  key : String
  value : Option String
  deriving DecidableEq

/-- A reader of characters: what it read and what is left, or what is left where it failed. -/
abbrev Parser (α : Type) := List Char → Except (List Char) (α × List Char)

/-- Is it a blank that does not end the line? -/
def isGap (c : Char) : Bool := isBlank c && c ≠ '\n' && c ≠ '\r'

/-- What is left behind the blanks of this line. -/
def skipGap (cs : List Char) : List Char := cs.dropWhile isGap

/-- What is left behind `export` and the blanks that must follow it. -/
def skipExport (cs : List Char) : List Char :=
  match cs with
  | 'e' :: 'x' :: 'p' :: 'o' :: 'r' :: 't' :: c :: rest => if isGap c then skipGap rest else cs
  | _ => cs

/-- A key, or none in front of a comment. -/
def key : Parser (Option String)
  | '#' :: rest => .ok (none, '#' :: rest)
  | '\'' :: rest =>
    let name := rest.takeWhile (· ≠ '\'')
    match name, rest.drop name.length with
    | _ :: _, _ :: after => .ok (some (String.ofList name), after)
    | _, _ => .error ('\'' :: rest)
  | cs =>
    let name := cs.takeWhile fun c => !(c = '=' || c = '#' || isBlank c)
    if name.isEmpty then .error cs else .ok (some (String.ofList name), cs.drop name.length)

/-! ## Quoted values -/

/-- Split a text at its closing quote.  A backslash goes together with the character behind it, so
neither of the two can close the value. -/
def splitAtQuote? (quote : Char) : List Char → Option (List Char × List Char)
  | [] => none
  | '\\' :: c :: cs => (splitAtQuote? quote cs).map fun r => ('\\' :: c :: r.1, r.2)
  | c :: cs =>
    if c = quote then some ([], cs)
    else (splitAtQuote? quote cs).map fun r => (c :: r.1, r.2)

/-- What a character behind a backslash stands for in single quotes. -/
def singleEscape? : Char → Option Char
  | '\\' => some '\\'
  | '\'' => some '\''
  | _ => none

/-- What a character behind a backslash stands for in double quotes. -/
def doubleEscape? : Char → Option Char
  | '\\' => some '\\'
  | '\'' => some '\''
  | '"' => some '"'
  | 'a' => some '\x07'
  | 'b' => some '\x08'
  | 'f' => some '\x0C'
  | 'n' => some '\n'
  | 'r' => some '\r'
  | 't' => some '\t'
  | 'v' => some '\x0B'
  | _ => none

/-- Replace the escapes that are known; a backslash in front of another character stays. -/
def unescape (escape? : Char → Option Char) : List Char → List Char
  | '\\' :: c :: cs => match escape? c with
    | some d => d :: unescape escape? cs
    | none => '\\' :: unescape escape? (c :: cs)
  | c :: cs => c :: unescape escape? cs
  | [] => []

/-- A quoted value behind its opening quote. -/
def quotedValue (quote : Char) (escape? : Char → Option Char) : Parser String := fun cs =>
  match splitAtQuote? quote cs with
  | none => .error (quote :: cs)
  | some (inner, rest) => .ok (String.ofList (unescape escape? inner), rest)

/-! ## Bindings -/

/-- A line up to a `#` with a blank in front of it. -/
def beforeComment (afterBlank : Bool) : List Char → List Char
  | [] => []
  | c :: cs => if c = '#' && afterBlank then [] else c :: beforeComment (isBlank c) cs

/-- Does the character end a line? -/
def isLineEnd (c : Char) : Bool := c = '\n' || c = '\r'

/-- A value behind the `=` and its blanks, if there are any. -/
def value (afterBlank : Bool) : Parser String
  | '\'' :: cs => quotedValue '\'' singleEscape? cs
  | '"' :: cs => quotedValue '"' doubleEscape? cs
  | cs =>
    let line := cs.takeWhile fun c => !isLineEnd c
    .ok (String.ofList (trimRight isBlank (beforeComment afterBlank line)), cs.drop line.length)

/-- A value with its `=`, or none. -/
def optionalValue : Parser (Option String)
  | '=' :: cs => (value (cs.head?.any isGap) (skipGap cs)).map fun r => (some r.1, r.2)
  | cs => .ok (none, cs)

/-- What is left behind a comment, if there is one. -/
def skipComment (cs : List Char) : List Char :=
  match skipGap cs with
  | '#' :: rest => rest.dropWhile fun c => !isLineEnd c
  | _ => cs

/-- The end of a line, blanks in front of it not counting. -/
def lineEnd : Parser Unit := fun cs =>
  match skipGap cs with
  | [] => .ok ((), [])
  | '\n' :: rest => .ok ((), rest)
  | '\r' :: rest => .ok ((), rest)
  | _ => .error cs

/-- One binding, from its first character on; none if the line holds only a comment. -/
def binding : Parser (Option Binding) := fun cs => do
  let (name, rest) ← key (skipExport cs)
  let (given, rest) ← optionalValue (skipGap rest)
  let ((), rest) ← lineEnd (skipComment rest)
  pure (name.map fun k => { key := k, value := given }, rest)

/-- What is left behind the rest of a line. -/
def skipLine (cs : List Char) : List Char := (cs.dropWhile fun c => !isLineEnd c).drop 1

/-- What a file states: a binding, or something that cannot be read and begins on a line. -/
inductive Statement where
  | binding (b : Binding)
  | unreadable (line : Nat)
  deriving DecidableEq

/-- The binding, if it is one. -/
def Statement.binding? : Statement → Option Binding
  | binding b => some b
  | unreadable _ => none

/-- The number of the line, if it cannot be read. -/
def Statement.unreadable? : Statement → Option Nat
  | binding _ => none
  | unreadable line => some line

/-- How many lines end between a place in a text and a later one. -/
def linesBetween (cs after : List Char) : Nat := cs.count '\n' - after.count '\n'

/-- The statements of a text that begins on a line, at most `limit` of them.  The blanks in front of
a statement belong to it, so it begins on the line of the first of them. -/
def statementsUpTo : Nat → Nat → List Char → List Statement
  | 0, _, _ => []
  | limit + 1, line, cs => match cs.dropWhile isBlank with
    | [] => []
    | rest => match binding rest with
      | .ok (some b, after) =>
        .binding b :: statementsUpTo limit (line + linesBetween cs after) after
      | .ok (none, after) => statementsUpTo limit (line + linesBetween cs after) after
      | .error unread =>
        let after := skipLine unread
        .unreadable line :: statementsUpTo limit (line + linesBetween cs after) after

/-- Line ends of every system as line feeds. -/
def unifyLineEnds : List Char → List Char
  | '\r' :: '\n' :: cs => '\n' :: unifyLineEnds cs
  | '\r' :: cs => '\n' :: unifyLineEnds cs
  | c :: cs => c :: unifyLineEnds cs
  | [] => []

/-- The text without a byte order mark at its start. -/
def dropMark (cs : List Char) : List Char := if cs.head? = some '\uFEFF' then cs.drop 1 else cs

/-- The statements of a text. -/
def statements (cs : List Char) : List Statement :=
  let cs := unifyLineEnds (dropMark cs)
  statementsUpTo (cs.length + 1) 1 cs

/-- The bindings of a text. -/
def bindings (cs : List Char) : List Binding := (statements cs).filterMap Statement.binding?

/-- The numbers of the lines at which something begins that cannot be read. -/
def unreadableLines (cs : List Char) : List Nat := (statements cs).filterMap Statement.unreadable?

end EnvFile

end PaperVenue
