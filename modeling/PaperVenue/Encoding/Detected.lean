import PaperVenue.Encoding.Utf16

/-!
# Recognising the encoding of a document

A byte order mark settles the encoding and is not part of the text.  Without one, the first
characters of a document are ASCII, so the zeros among the first four octets show the width and
order of its units; with no zero there it is UTF-8.

Places in errors count from the first octet, except that the mark of UTF-8 does not count.
-/

namespace PaperVenue

/-- The byte order marks with their encodings; a longer mark comes before one that begins it. -/
def marks : List (List UInt8 × Encoding) :=
  [([0x00, 0x00, 0xFE, 0xFF], .utf32 true), ([0xFF, 0xFE, 0x00, 0x00], .utf32 false),
    ([0xFE, 0xFF], .utf16 true), ([0xFF, 0xFE], .utf16 false), ([0xEF, 0xBB, 0xBF], .utf8)]

/-- The encoding of a document without a mark: the zeros among its first octets show how wide its
units are. -/
def unmarkedEncoding : List UInt8 → Encoding
  | a :: b :: c :: d :: _ =>
    if a = 0 then (if b = 0 then .utf32 true else .utf16 true)
    else if b = 0 then (if c = 0 ∧ d = 0 then .utf32 false else .utf16 false)
    else .utf8
  | [a, b] => if a = 0 then .utf16 true else if b = 0 then .utf16 false else .utf8
  | _ => .utf8

/-- The encoding of a document, and how many octets its mark takes. -/
def detectEncoding (octets : List UInt8) : Encoding × Nat :=
  match marks.find? fun m => m.1.isPrefixOf octets with
  | some (mark, encoding) => (encoding, mark.length)
  | none => (unmarkedEncoding octets, 0)

/-- The text of a document. -/
def decodeDocument (octets : List UInt8) : Except DecodingError Text :=
  let (encoding, mark) := detectEncoding octets
  let body := octets.drop mark
  match encoding with
  | .utf8 => Utf8.decode true body
  | .utf16 bigEndian => Utf16.decodeFrom bigEndian mark body
  | .utf32 bigEndian => Utf32.decodeFrom bigEndian mark body

end PaperVenue
