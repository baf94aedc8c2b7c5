import PaperVenue.Json.Value
import PaperVenue.Json.Error
import PaperVenue.Encoding.Utf16
import PaperVenue.Text.DecimalDigit

/-!
# The lexemes of a document

A document is cut into lexemes without regard to where they may stand: brackets and braces, colons
and commas, texts, and the values that are a single word or number.  Each carries the offset at
which it starts.

Whatever is no lexeme becomes a lexeme `broken`, which carries the error it will be if the reader
wants a value there.  Where the reader wants something else, a comma say, it is that which is
reported, so the error must wait; and no reader gets past a broken lexeme, so nothing behind it is
ever needed.

Three points of the spelling decide where lexemes end.

* A word or number needs no delimiter: `nullx` is `null` and then something broken.
* A fraction or exponent belongs to a number only if it has a digit: `1.` is `1` and then a stray
  point.
* An escape `\uXXXX` needs a code point behind its four digits; the text would not be closed
  otherwise.
-/

namespace PaperVenue

namespace Json

/-- What the reader reports if it wants a value at a broken lexeme. -/
inductive Broken where
  | stray
  | text (fault : Fault) (offset : Nat)
  | digits (count : Nat)

/-- The smallest part of a document. -/
inductive Token where
  | openArray | closeArray | openObject | closeObject | colon | comma
  | text (t : Text)
  | value (v : Json)
  | broken (why : Broken)

/-- A token and the offset at which it starts. -/
structure Lexeme where
  token : Token
  offset : Nat

/-- The blanks between lexemes. -/
def isSpace (p : CodePoint) : Bool := p.is ' ' || p.is '\t' || p.is '\n' || p.is '\r'

/-! ## Texts -/

/-- One unit of a text: a code point as it stands, or sixteen bits of an escape. -/
inductive TextUnit where
  | plain (p : CodePoint)
  | escaped (n : Nat)

/-- The value of a hexadecimal digit. -/
def hexValue? (p : CodePoint) : Option Nat := do
  let c ← p.toChar?
  if '0' ≤ c ∧ c ≤ '9' then some (c.toNat - 0x30)
  else if 'a' ≤ c ∧ c ≤ 'f' then some (c.toNat - 0x57)
  else if 'A' ≤ c ∧ c ≤ 'F' then some (c.toNat - 0x37)
  else none

/-- The character that a backslash and a letter stand for. -/
def escapedChar? (p : CodePoint) : Option Char :=
  match p with
  | .scalar '"' => some '"'
  | .scalar '\\' => some '\\'
  | .scalar '/' => some '/'
  | .scalar 'b' => some '\x08'
  | .scalar 'f' => some '\x0C'
  | .scalar 'n' => some '\n'
  | .scalar 'r' => some '\r'
  | .scalar 't' => some '\t'
  | _ => none

/-- The code points of units: an escaped high surrogate and the escaped low surrogate right behind
it are one code point. -/
def joinUnits : List TextUnit → Text
  | [] => []
  | .plain p :: us => p :: joinUnits us
  | .escaped n :: .escaped m :: us =>
    if isHighSurrogate n && isLowSurrogate m then Utf8.point (joinSurrogates n m) :: joinUnits us
    else Utf8.point n :: joinUnits (.escaped m :: us)
  | .escaped n :: us => Utf8.point n :: joinUnits us

/-- Where the scan of a text stands: between units, behind a backslash, or inside the digits of an
escape that started at an offset. -/
inductive TextState where
  | units
  | escape
  | digits (left value start : Nat)

/-- Scan a text behind its quote at offset `quote`: its units, and the code points behind its
closing quote with their offset. -/
def scanText (quote : Nat) :
    TextState → Nat → List TextUnit → Text → Except (Fault × Nat) (List TextUnit × Nat × Text)
  | .digits _ _ start, _, _, [] => .error (.invalidUnicodeEscape, start)
  | _, _, _, [] => .error (.unterminatedText, quote)
  | .units, offset, done, p :: rest =>
    if p.is '"' then .ok (done.reverse, offset + 1, rest)
    else if p.is '\\' then scanText quote .escape (offset + 1) done rest
    else if p.toNat < 0x20 then .error (.controlCharacter, offset)
    else scanText quote .units (offset + 1) (.plain p :: done) rest
  | .escape, offset, done, p :: rest =>
    if p.is 'u' then scanText quote (.digits 4 0 offset) (offset + 1) done rest
    else match escapedChar? p with
      | some c => scanText quote .units (offset + 1) (.plain (.scalar c) :: done) rest
      | none => .error (.invalidEscape, offset - 1)
  | .digits left value start, offset, done, p :: rest =>
    match hexValue? p with
    | none => .error (.invalidUnicodeEscape, start)
    | some d =>
      let value := value * 0x10 + d
      if 1 < left then scanText quote (.digits (left - 1) value start) (offset + 1) done rest
      else if rest.isEmpty then .error (.invalidUnicodeEscape, start)
      else scanText quote .units (offset + 1) (.escaped value :: done) rest

/-! ## Words and numbers -/

/-- The rest of a text behind a word. -/
def afterWord? : List Char → Text → Option Text
  | [], t => some t
  | c :: cs, p :: t => if p.is c then afterWord? cs t else none
  | _ :: _, [] => none

/-- The ASCII digits at the front of a text, and the rest. -/
def spanDigits : Text → List Char × Text
  | .scalar c :: t =>
    if '0' ≤ c ∧ c ≤ '9' then
      let (ds, rest) := spanDigits t
      (c :: ds, rest)
    else ([], .scalar c :: t)
  | t => ([], t)

/-- The digits of the whole part of a number: a zero alone, or digits that start with another. -/
def wholePart? (t : Text) : Option (List Char × Text) :=
  match spanDigits t with
  | ([], _) => none
  | ('0' :: ds, rest) => some (['0'], Text.ofChars ds ++ rest)
  | r => some r

/-- The digits of a fraction, if there is one. -/
def fractionPart (t : Text) : List Char × Text :=
  match t with
  | .scalar '.' :: rest => match spanDigits rest with
    | ([], _) => ([], t)
    | r => r
  | _ => ([], t)

/-- The exponent, if there is one. -/
def exponentPart (t : Text) : Option Int × Text :=
  match t with
  | .scalar c :: rest =>
    if c = 'e' ∨ c = 'E' then
      let (negative, digits) := match rest with
        | .scalar '-' :: r => (true, r)
        | .scalar '+' :: r => (false, r)
        | r => (false, r)
      match spanDigits digits with
      | ([], _) => (none, t)
      | (ds, after) =>
        let n : Int := digitsValue ds
        (some (if negative then -n else n), after)
    else (none, t)
  | _ => (none, t)

/-- The number at the front of a text, and the rest. -/
def scanNumber? (t : Text) : Option (Token × Text) := do
  let (negative, body) := match t with
    | .scalar '-' :: r => (true, r)
    | r => (false, r)
  let (whole, rest) ← wholePart? body
  let (fraction, rest) := fractionPart rest
  let (exponent, rest) := exponentPart rest
  if fraction.isEmpty && exponent.isNone then
    if maxIntegerDigits < whole.length then some (.broken (.digits whole.length), rest)
    else
      let n : Int := digitsValue whole
      some (.value (.integer (if negative then -n else n)), rest)
  else
    let coefficient := digitsValue (whole ++ fraction)
    let x := Binary64.nearest negative coefficient (exponent.getD 0 - fraction.length)
    some (.value (.double x), rest)

/-- The words that are values. -/
def words : List (String × Json) :=
  [("null", .null), ("true", .boolean true), ("false", .boolean false),
    ("NaN", .double .nan), ("Infinity", .double (.infinity false)),
    ("-Infinity", .double (.infinity true))]

/-- The word at the front of a text, and the rest. -/
def scanWord? (t : Text) : Option (Token × Text) :=
  words.findSome? fun w => (afterWord? w.1.toList t).map fun rest => (.value w.2, rest)

/-! ## The whole document -/

/-- The token that a single code point is. -/
def punctuation? : CodePoint → Option Token
  | .scalar '[' => some .openArray
  | .scalar ']' => some .closeArray
  | .scalar '{' => some .openObject
  | .scalar '}' => some .closeObject
  | .scalar ':' => some .colon
  | .scalar ',' => some .comma
  | _ => none

/-- The token at the front of a text that does not start with a blank, and what lies behind it: the
offset and the rest.  Behind a broken token there is nothing. -/
def scanToken (offset : Nat) (p : CodePoint) (rest : Text) : Token × Nat × Text :=
  match punctuation? p with
  | some token => (token, offset + 1, rest)
  | none =>
    if p.is '"' then
      match scanText offset .units (offset + 1) [] rest with
      | .ok (units, after, rest) => (.text (joinUnits units), after, rest)
      | .error (fault, place) => (.broken (.text fault place), offset, [])
    else
      match (scanWord? (p :: rest)).or (scanNumber? (p :: rest)) with
      | some (token, after) => (token, offset + ((p :: rest).length - after.length), after)
      | none => (.broken .stray, offset, [])

/-- The lexemes of a text, of which at most `limit` code points remain. -/
def lexemesUpTo : Nat → Nat → Text → List Lexeme
  | 0, _, _ => []
  | _, _, [] => []
  | limit + 1, offset, p :: rest =>
    if isSpace p then lexemesUpTo limit (offset + 1) rest
    else
      let (token, after, rest) := scanToken offset p rest
      { token, offset } :: lexemesUpTo limit after rest

/-- The lexemes of a text. -/
def lexemes (t : Text) : List Lexeme := lexemesUpTo t.length 0 t

end Json

end PaperVenue
