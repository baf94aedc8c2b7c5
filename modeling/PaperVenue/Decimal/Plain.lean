import PaperVenue.Decimal.Rounding
import PaperVenue.Decimal.Scientific

/-!
# Plain notation

Orders and signals report amounts in plain notation: rounded to 28 digits, without an exponent and
without zeros at the end of the fraction, `10` and not `1E+1`, `0.5` and not `0.50`.  A zero keeps
its sign, so a negative amount that is too small for the grid is reported as `-0`.

Two things cannot be reported, and signal instead: an amount too large after rounding, and a
signaling not-a-number.
-/

namespace PaperVenue

namespace Decimal

/-- The number without trailing zeros in its coefficient; a zero is put at exponent zero. -/
def stripZeros (c : Nat) (e : Int) : Nat × Int :=
  if c = 0 then (0, 0) else dropZeros (digitCount c) c e

/-- Digits and an exponent, written out. -/
def positional (c : Nat) (e : Int) : List Char :=
  if 0 ≤ e then
    if c = 0 then ['0'] else decimalDigits c ++ List.replicate e.toNat '0'
  else withPoint (decimalDigits c) e.natAbs

/-- The plain form of a decimal. -/
def plain : Decimal → Except Signal (List Char)
  | finite negative c e => do
    match ← rounded negative c e with
    | finite negative c e =>
      let (c, e) := stripZeros c e
      pure (signText negative ++ positional c e)
    | special => pure special.toChars
  | infinity negative => pure (infinity negative).toChars
  | nan _ true _ => throw .invalidOperation
  | nan negative false payload => pure (quieted negative payload).toChars

/-- The plain form of a decimal, as a string. -/
def plainText (d : Decimal) : Except Signal String := (plain d).map String.ofList

end Decimal

end PaperVenue
