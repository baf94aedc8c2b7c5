import PaperVenue.Encoding.Basic

/-!
# UTF-8

`Utf8.encode` writes a code point in one to four octets, the way UTF-8 writes characters; a
surrogate takes three, like any code point of its size.  `Utf8.decode` reads octets one at a time.
Between two octets it knows only the octets of the character it is in, `pending`, and the first
octet that cannot continue them is where the error lies: the error covers the octets of the broken
character so far, not the octet that broke it.

Documents may hold surrogates written in three octets, environment files may not, so the reader
takes that permission as an argument.  A pair of octets that can only begin a surrogate is kept
until the third octet shows whether it is one; if not, its first octet alone is at fault, just as
when surrogates are refused.
-/

namespace PaperVenue

namespace Utf8

/-- The octets of a code point. -/
def encodePoint (p : CodePoint) : List UInt8 :=
  let n := p.toNat
  if n < 0x80 then [n.toUInt8]
  else if n < 0x800 then [(0xC0 + n / 0x40).toUInt8, (0x80 + n % 0x40).toUInt8]
  else if n < 0x10000 then
    [(0xE0 + n / 0x1000).toUInt8, (0x80 + n / 0x40 % 0x40).toUInt8, (0x80 + n % 0x40).toUInt8]
  else
    [(0xF0 + n / 0x40000).toUInt8, (0x80 + n / 0x1000 % 0x40).toUInt8,
      (0x80 + n / 0x40 % 0x40).toUInt8, (0x80 + n % 0x40).toUInt8]

/-- The octets of a text. -/
def encode (t : Text) : List UInt8 := t.flatMap encodePoint

/-- Can the octet stand inside a character? -/
def isContinuation (b : UInt8) : Bool := 0x80 ≤ b && b < 0xC0

/-- The bits that a continuation octet carries. -/
def bits (b : UInt8) : Nat := b.toNat % 0x40

/-- The code point of a number that is known to be one. -/
def point (n : Nat) : CodePoint := (CodePoint.ofNat? n).getD (.scalar '\uFFFD')

/-- What one octet does: it completes a code point, leaves octets pending, or is refused, and then
the first few pending octets are at fault. -/
inductive Step where
  | complete (p : CodePoint)
  | pending (octets : List UInt8)
  | refused (fault : DecodingFault) (octets : Nat)

/-- May the second octet `b` follow the first octet `a` of three or four? -/
def secondFits (surrogates : Bool) (a b : UInt8) : Bool :=
  isContinuation b && (a != 0xE0 || 0xA0 ≤ b) && (a != 0xED || b < 0xA0 || surrogates)
    && (a != 0xF0 || 0x90 ≤ b) && (a != 0xF4 || b < 0x90)

/-- Do the first two octets begin a surrogate? -/
def beginsSurrogate (a b : UInt8) : Bool := a == 0xED && 0xA0 ≤ b

/-- The next octet, after the octets of an unfinished character. -/
def step (surrogates : Bool) : List UInt8 → UInt8 → Step
  | [], b =>
    if b < 0x80 then .complete (point b.toNat)
    else if (0xC2 ≤ b && b < 0xF5) then .pending [b]
    else .refused .invalidStart 1
  | [a], b =>
    if a < 0xE0 then
      if isContinuation b then .complete (point ((a.toNat - 0xC0) * 0x40 + bits b))
      else .refused .invalidContinuation 1
    else if secondFits surrogates a b then .pending [a, b]
    else .refused .invalidContinuation 1
  | [a, b], c =>
    if isContinuation c then
      if a < 0xF0 then .complete (point ((a.toNat - 0xE0) * 0x1000 + bits b * 0x40 + bits c))
      else .pending [a, b, c]
    else .refused .invalidContinuation (if beginsSurrogate a b then 1 else 2)
  | a :: b :: c :: _, d =>
    if isContinuation d then
      .complete (point ((a.toNat - 0xF0) * 0x40000 + bits b * 0x1000 + bits c * 0x40 + bits d))
    else .refused .invalidContinuation 3

/-- What is wrong if the octets end inside a character. -/
def atEnd : List UInt8 → DecodingFault × Nat
  | [a, b] => if beginsSurrogate a b then (.invalidContinuation, 1) else (.unexpectedEnd, 2)
  | pending => (.unexpectedEnd, pending.length)

/-- The error in the character that starts at `start`. -/
def errorAt (start : Nat) (fault : DecodingFault) (octets : Nat) (first : UInt8) : DecodingError :=
  { encoding := .utf8, fault, first := start, stop := start + octets, octet := first }

/-- Decode octets, of which `pending` have been read since `start`. -/
def decodeFrom (surrogates : Bool) (start : Nat) (pending : List UInt8) :
    List UInt8 → Except DecodingError Text
  | [] => match pending with
    | [] => .ok []
    | a :: r =>
      let (fault, octets) := atEnd (a :: r)
      .error (errorAt start fault octets a)
  | b :: rest => match step surrogates pending b with
    | .complete p =>
      (decodeFrom surrogates (start + pending.length + 1) [] rest).map (p :: ·)
    | .pending octets => decodeFrom surrogates start octets rest
    | .refused fault octets => .error (errorAt start fault octets (pending.headD b))

/-- Decode octets. -/
def decode (surrogates : Bool) (octets : List UInt8) : Except DecodingError Text :=
  decodeFrom surrogates 0 [] octets

end Utf8

end PaperVenue
