import PaperVenue.Decimal.Basic

/-!
# Writing decimals exactly

`Decimal.toChars` writes a decimal so that nothing is lost: sign, coefficient and exponent can be
read off.  Positional notation is used where it shows the exponent, that is for an exponent of at
most zero and a leading digit at `10^-6` or above; otherwise one digit stands before the point
and the exponent of the leading digit is written with its sign, `1E+3`, `0E-9`.
-/

namespace PaperVenue

namespace Decimal

/-- The least exponent of a leading digit that is written positionally. -/
def minPositional : Int := -6

/-- The digits `ds` with a point so that `places` digits follow it; zeros fill the front. -/
def withPoint (ds : List Char) (places : Nat) : List Char :=
  if places = 0 then ds
  else
    let ds := List.replicate (places + 1 - ds.length) '0' ++ ds
    ds.take (ds.length - places) ++ '.' :: ds.drop (ds.length - places)

/-- An exponent with its sign. -/
def exponentText (e : Int) : List Char :=
  (if e < 0 then '-' else '+') :: decimalDigits e.natAbs

/-- A magnitude, exactly. -/
def magnitudeText (coefficient : Nat) (exponent : Int) : List Char :=
  let ds := decimalDigits coefficient
  let lead := adjusted coefficient exponent
  if exponent ≤ 0 && minPositional ≤ lead then withPoint ds exponent.natAbs
  else withPoint ds (ds.length - 1) ++ 'E' :: exponentText lead

/-- The payload of a not-a-number; zero is not written. -/
def payloadText (payload : Nat) : List Char := if payload = 0 then [] else decimalDigits payload

/-- Write a decimal exactly. -/
def toChars : Decimal → List Char
  | finite negative coefficient exponent => signText negative ++ magnitudeText coefficient exponent
  | infinity negative => signText negative ++ "Infinity".toList
  | nan negative signaling payload =>
    signText negative ++ (if signaling then "sNaN" else "NaN").toList ++ payloadText payload

instance : ToString Decimal := ⟨fun d => String.ofList d.toChars⟩

end Decimal

end PaperVenue
