import PaperVenue.Encoding.Utf8

/-!
# UTF-16 and UTF-32

A code point of UTF-16 is one unit of two octets, or a high surrogate followed by a low one; a
surrogate that is not part of such a pair stands for itself.  A code point of UTF-32 is one unit of
four octets.  Octets that do not fill a unit at the end are an error, and so is a unit of UTF-32
above `0x10FFFF`.
-/

namespace PaperVenue

/-- The number that octets spell. -/
def unitValue (bigEndian : Bool) (octets : List UInt8) : Nat :=
  (if bigEndian then octets else octets.reverse).foldl (fun n b => n * 0x100 + b.toNat) 0

/-- Is the unit a surrogate that opens a pair? -/
def isHighSurrogate (n : Nat) : Bool := 0xD800 ≤ n && n < 0xDC00

/-- Is the unit a surrogate that closes a pair? -/
def isLowSurrogate (n : Nat) : Bool := 0xDC00 ≤ n && n < 0xE000

/-- The code point that a pair of surrogates stands for. -/
def joinSurrogates (high low : Nat) : Nat := 0x10000 + (high - 0xD800) * 0x400 + (low - 0xDC00)

namespace Utf16

/-- Decode octets from a given place on. -/
def decodeFrom (bigEndian : Bool) (place : Nat) : List UInt8 → Except DecodingError Text
  | [] => .ok []
  | [a] => .error
      { encoding := .utf16 bigEndian, fault := .truncated, first := place, stop := place + 1, octet := a }
  | a :: b :: c :: d :: rest =>
    let n := unitValue bigEndian [a, b]
    let m := unitValue bigEndian [c, d]
    if isHighSurrogate n && isLowSurrogate m then
      (decodeFrom bigEndian (place + 4) rest).map (Utf8.point (joinSurrogates n m) :: ·)
    else (decodeFrom bigEndian (place + 2) (c :: d :: rest)).map (Utf8.point n :: ·)
  | a :: b :: rest =>
    (decodeFrom bigEndian (place + 2) rest).map (Utf8.point (unitValue bigEndian [a, b]) :: ·)

end Utf16

namespace Utf32

/-- Decode octets from a given place on. -/
def decodeFrom (bigEndian : Bool) (place : Nat) : List UInt8 → Except DecodingError Text
  | [] => .ok []
  | a :: b :: c :: d :: rest =>
    match CodePoint.ofNat? (unitValue bigEndian [a, b, c, d]) with
    | some p => (decodeFrom bigEndian (place + 4) rest).map (p :: ·)
    | none => .error
        { encoding := .utf32 bigEndian, fault := .outOfRange, first := place, stop := place + 4,
          octet := a }
  | a :: rest => .error
      { encoding := .utf32 bigEndian, fault := .truncated, first := place,
        stop := place + rest.length + 1, octet := a }

end Utf32

end PaperVenue
