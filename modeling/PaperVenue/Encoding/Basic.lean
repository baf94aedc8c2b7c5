import PaperVenue.Text.CodePoint
import PaperVenue.Text.Quoted

/-!
# Encodings of documents

A catalog file holds octets.  `Encoding` names the forms that are recognised, and `DecodingError`
says where a sequence of octets stops being one of them: the octets from `first` up to but not
including `stop`, of which the first one is quoted if it stands alone.
-/

namespace PaperVenue

/-- An encoding of Unicode text in octets. -/
inductive Encoding where
  | utf8
  | utf16 (bigEndian : Bool)
  | utf32 (bigEndian : Bool)
  deriving DecidableEq

/-- Why octets are no text. -/
inductive DecodingFault where
  | invalidStart | invalidContinuation | unexpectedEnd | truncated | outOfRange
  deriving DecidableEq

/-- The place where octets stop being text. -/
structure DecodingError where
  encoding : Encoding
  fault : DecodingFault
  first : Nat
  stop : Nat
  octet : UInt8
  deriving DecidableEq

/-- The registered name of an encoding. -/
def Encoding.name : Encoding → String
  | utf8 => "utf-8"
  | utf16 true => "utf-16-be"
  | utf16 false => "utf-16-le"
  | utf32 true => "utf-32-be"
  | utf32 false => "utf-32-le"

/-- The wording of a fault. -/
def DecodingFault.message : DecodingFault → String
  | invalidStart => "invalid start byte"
  | invalidContinuation => "invalid continuation byte"
  | unexpectedEnd => "unexpected end of data"
  | truncated => "truncated data"
  | outOfRange => "code point not in range(0x110000)"

/-- The octets that are at fault: one is quoted, several are given by their places. -/
def DecodingError.spot (e : DecodingError) : String :=
  if e.stop = e.first + 1 then
    "byte 0x" ++ String.ofList (hexDigits 2 e.octet.toNat) ++ " in position " ++ toString e.first
  else
    "bytes in position " ++ toString e.first ++ "-" ++ toString (e.stop - 1)

/-- The message of a decoding error. -/
def DecodingError.message (e : DecodingError) : String :=
  "'" ++ e.encoding.name ++ "' codec can't decode " ++ e.spot ++ ": " ++ e.fault.message

end PaperVenue
