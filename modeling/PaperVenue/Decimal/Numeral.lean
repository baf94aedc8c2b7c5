import PaperVenue.Decimal.Basic
import PaperVenue.Text.Blank
import PaperVenue.Text.DecimalDigit

/-!
# Reading decimals

The grammar of a decimal text, after blanks at its ends are cut off, every `_` is deleted and
each digit of another script is replaced by its ASCII counterpart:

    text      =  [sign] (number | infinity | notANumber)
    number    =  (digits ["." [digits]] | "." digits) [("e" | "E") [sign] digits]
    infinity  =  "inf" | "infinity"                  in any case
    notANumber = ("nan" | "snan") [digits]           in any case

Reading is exact: no digit is rounded away, and leading zeros of the coefficient have no weight.
What bounds it is the range of exponents.  The leading digit may stand at most at `10^18 - 1`
and the last digit at least at `-2 · 10^18 + 3`; a number outside is no decimal.
-/

namespace PaperVenue

namespace Decimal

/-- The largest exponent that the leading digit of a decimal can have. -/
def maxAdjusted : Int := 999999999999999999

/-- The least exponent that the last digit of a decimal can have. -/
def minExponent : Int := -1999999999999999997

/-- Can the number be held as a decimal? -/
def inRange (coefficient : Nat) (exponent : Int) : Bool :=
  adjusted coefficient exponent ≤ maxAdjusted && minExponent ≤ exponent

/-- A digit of any script as an ASCII digit; other characters pass only if they are ASCII and
not NUL. -/
def plainChar? (c : Char) : Option Char :=
  if c.toNat < 0x80 then (if c.toNat = 0 then none else some c)
  else (digitValue? c).map fun d => Char.ofNat (0x30 + d)

/-- The text reduced to ASCII: ends cut, underscores deleted, digits of every script replaced. -/
def plainText? (cs : List Char) : Option (List Char) :=
  ((trim isBlank cs).filter (· ≠ '_')).mapM plainChar?

/-- Split a sign off: is it a minus, and the rest. -/
def splitSign : List Char → Bool × List Char
  | '-' :: cs => (true, cs)
  | '+' :: cs => (false, cs)
  | cs => (false, cs)

/-- The value of a non-empty list of digits and nothing else. -/
def digits? (cs : List Char) : Option Nat :=
  if !cs.isEmpty && cs.all isAsciiDigit then some (digitsValue cs) else none

/-- An exponent part: none at all is zero. -/
def exponentPart? : List Char → Option Int
  | [] => some 0
  | c :: cs =>
    if c == 'e' || c == 'E' then
      let (negative, ds) := splitSign cs
      (digits? ds).map fun n => if negative then -(n : Int) else n
    else none

/-- A number without its sign. -/
def number? (negative : Bool) (cs : List Char) : Option Decimal :=
  let whole := cs.takeWhile isAsciiDigit
  let rest := cs.dropWhile isAsciiDigit
  let (fraction, rest) := match rest with
    | '.' :: r => (r.takeWhile isAsciiDigit, r.dropWhile isAsciiDigit)
    | r => ([], r)
  if whole.isEmpty && fraction.isEmpty then none
  else do
    let shift ← exponentPart? rest
    let coefficient := digitsValue (whole ++ fraction)
    let exponent := shift - fraction.length
    if inRange coefficient exponent then some (finite negative coefficient exponent) else none

/-- The digits behind the word for a not-a-number; there may be none. -/
def payload? (ds : List Char) : Option Nat := if ds.isEmpty then some 0 else digits? ds

/-- A not-a-number without its sign, in small letters. -/
def notANumber? (negative : Bool) : List Char → Option Decimal
  | 'n' :: 'a' :: 'n' :: ds => (payload? ds).map (nan negative false)
  | 's' :: 'n' :: 'a' :: 'n' :: ds => (payload? ds).map (nan negative true)
  | _ => none

/-- Read a decimal. -/
def read? (cs : List Char) : Option Decimal := do
  let (negative, body) := splitSign (← plainText? cs)
  let small := body.map Char.toLower
  if small == ['i', 'n', 'f'] || small == ['i', 'n', 'f', 'i', 'n', 'i', 't', 'y'] then
    some (infinity negative)
  else
    (notANumber? negative small).or (number? negative body)

/-- Read a decimal from a string. -/
def ofString? (s : String) : Option Decimal := read? s.toList

/-- A decimal is read from what is left of its text: ends cut, underscores deleted, digits of every
script replaced. -/
theorem read?_congr {cs cs' : List Char} (h : plainText? cs = plainText? cs') :
    read? cs = read? cs' := by
  rw [read?, read?, h]

/-- Blanks at the ends do not count, so cutting them off before reading does no harm. -/
theorem read?_trim (cs : List Char) : read? (trim isBlank cs) = read? cs := by
  refine read?_congr ?_
  rw [plainText?, plainText?, trim_trim]

end Decimal

end PaperVenue
