import PaperVenue.Text.CodePoint
import PaperVenue.Encoding.Basic

/-!
# What is wrong with a document

A document that is no JSON has a fault at a place.  Places are counted three ways at once, in code
points from the start, in lines, and in columns of the line; only a line feed ends a line.

Two limits guard the reader, one on the digits of an integer and one on the depth of nesting.
Beyond them a document may be well-formed and is refused all the same.
-/

namespace PaperVenue

namespace Json

/-- A way in which a document fails to be JSON. -/
inductive Fault where
  | expectingValue | expectingName | expectingColon | expectingComma | extraData
  | unterminatedText | controlCharacter | invalidEscape | invalidUnicodeEscape | byteOrderMark
  deriving DecidableEq

/-- The two kinds of containers. -/
inductive Container where
  | array | object
  deriving DecidableEq

/-- A place in a document. -/
structure Place where
  line : Nat
  column : Nat
  offset : Nat
  deriving DecidableEq

/-- Why a document cannot be read. -/
inductive ReadError where
  | malformed (fault : Fault) (place : Place)
  | tooManyDigits (digits : Nat)
  | tooDeep (container : Container)
  | undecodable (error : DecodingError)
  deriving DecidableEq

/-- The most digits an integer may have. -/
def maxIntegerDigits : Nat := 4300

/-- The most containers that may be open at once. -/
def maxDepth : Nat := 990

/-- Is the code point a line feed? -/
def isLineFeed (p : CodePoint) : Bool := p.is '\n'

/-- The place of an offset in a text. -/
def placeOf (t : Text) (offset : Nat) : Place :=
  let before := t.take offset
  { line := before.countP isLineFeed + 1
    column := (before.reverse.takeWhile fun p => !isLineFeed p).length + 1
    offset }

/-- The wording of a fault. -/
def Fault.message : Fault → String
  | expectingValue => "Expecting value"
  | expectingName => "Expecting property name enclosed in double quotes"
  | expectingColon => "Expecting ':' delimiter"
  | expectingComma => "Expecting ',' delimiter"
  | extraData => "Extra data"
  | unterminatedText => "Unterminated string starting at"
  | controlCharacter => "Invalid control character at"
  | invalidEscape => "Invalid \\escape"
  | invalidUnicodeEscape => "Invalid \\uXXXX escape"
  | byteOrderMark => "Unexpected UTF-8 BOM (decode using utf-8-sig)"

/-- The word for a container. -/
def Container.name : Container → String
  | array => "array"
  | object => "object"

/-- The wording of a place. -/
def Place.message (p : Place) : String :=
  "line " ++ toString p.line ++ " column " ++ toString p.column ++ " (char " ++
    toString p.offset ++ ")"

/-- The message of a reading error. -/
def ReadError.message : ReadError → String
  | malformed fault place => fault.message ++ ": " ++ place.message
  | tooManyDigits digits =>
    "Exceeds the limit (" ++ toString maxIntegerDigits ++
      " digits) for integer string conversion: value has " ++ toString digits ++
      " digits; use sys.set_int_max_str_digits() to increase the limit"
  | tooDeep container =>
    "maximum recursion depth exceeded while decoding a JSON " ++ container.name ++
      " from a unicode string"
  | undecodable error => error.message

end Json

end PaperVenue
