import PaperVenue.Decimal.Rounding

/-!
# Sum and quotient

Both are exact and then rounded once.  What remains to be said is the exponent of an exact result,
because it shows: a sum has the smaller of the two exponents, and a quotient that comes out even
has the difference of the exponents, or the next larger one that its digits need.

Operands can lie `10^18` orders of magnitude apart, so neither operation aligns them blindly.

* In a sum, an operand that lies wholly below the last digit that rounding can look at is replaced
  by one unit at that place (or by nothing, if it is zero).
* A quotient is computed to 29 digits or more, and one more digit, zero or one, says whether
  anything was left over.
-/

namespace PaperVenue

-- powers are those of the core library
attribute [local instance (1100)] instPowNat

namespace Decimal

/-- The first not-a-number among two operands; a signaling one counts before a quiet one. -/
def firstNaN (a b : Decimal) : Option (Except Signal Decimal) :=
  if a.isSignaling || b.isSignaling then some (.error .invalidOperation)
  else match a, b with
    | nan n _ p, _ => some (.ok (quieted n p))
    | _, nan n _ p => some (.ok (quieted n p))
    | _, _ => none

/-- A coefficient with its sign. -/
def signed (negative : Bool) (c : Nat) : Int := if negative then -(c : Int) else c

/-- The sum of two finite numbers of which the first has the larger exponent. -/
def addAligned (na : Bool) (ca : Nat) (ea : Int) (nb : Bool) (cb : Nat) (eb : Int) :
    Except Signal Decimal :=
  let (cb, eb) :=
    if ca = 0 then (cb, eb)
    else
      let floor := ea - 1 + min 0 ((digitCount ca : Int) - precision - 1)
      if adjusted cb eb < floor then (if cb = 0 then 0 else 1, floor) else (cb, eb)
  let total := signed na (if ca = 0 then 0 else ca * 10 ^ (ea - eb).toNat) + signed nb cb
  rounded (if total = 0 then na && nb else total < 0) total.natAbs eb

/-- The sum, rounded. -/
def add (a b : Decimal) : Except Signal Decimal :=
  match firstNaN a b with
  | some r => r
  | none => match a, b with
    | infinity n, infinity m => if n = m then .ok (infinity n) else .error .invalidOperation
    | infinity n, _ => .ok (infinity n)
    | _, infinity m => .ok (infinity m)
    | finite na ca ea, finite nb cb eb =>
      if eb ≤ ea then addAligned na ca ea nb cb eb else addAligned nb cb eb na ca ea
    | _, _ => .error .invalidOperation

/-- The quotient of two magnitudes, neither of them zero, with at least 29 digits unless it comes
out even. -/
def quotient (ca : Nat) (ea : Int) (cb : Nat) (eb : Int) : Nat × Int :=
  let shift : Int := (digitCount cb : Int) - digitCount ca + precision + 1
  let n := ca * 10 ^ shift.toNat
  let d := cb * 10 ^ (-shift).toNat
  let q := n / d
  let e := ea - eb - shift
  if n % d = 0 then dropZeros shift.toNat q e else (10 * q + 1, e - 1)

/-- The quotient, rounded. -/
def div (a b : Decimal) : Except Signal Decimal :=
  match firstNaN a b with
  | some r => r
  | none => match a, b with
    | infinity _, infinity _ => .error .invalidOperation
    | infinity n, finite m _ _ => .ok (infinity (n != m))
    | finite n _ _, infinity m => .ok (finite (n != m) 0 minQuantum)
    | finite n ca ea, finite m cb eb =>
      if cb = 0 then .error (if ca = 0 then .invalidOperation else .divisionByZero)
      else if ca = 0 then rounded (n != m) 0 (ea - eb)
      else
        let (q, e) := quotient ca ea cb eb
        rounded (n != m) q e
    | _, _ => .error .invalidOperation

end Decimal

end PaperVenue
