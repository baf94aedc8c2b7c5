import PaperVenue.Decimal.Arithmetic

/-!
# Comparing decimals

Finite decimals are compared as numbers: `0.50` equals `0.5`, and a zero equals every zero.  The
order is refused for every not-a-number; equality is refused only for a signaling one, and a quiet
one equals nothing.
-/

namespace PaperVenue

-- powers are those of the core library
attribute [local instance (1100)] instPowNat

namespace Decimal

/-- Compare two magnitudes, neither of them zero.  The leading digits decide unless they stand at
the same place; then the exponents differ by no more than the digits do. -/
def compareMagnitude (ca : Nat) (ea : Int) (cb : Nat) (eb : Int) : Ordering :=
  match compare (adjusted ca ea) (adjusted cb eb) with
  | .eq => compare (ca * 10 ^ (ea - eb).toNat) (cb * 10 ^ (eb - ea).toNat)
  | o => o

/-- Compare two finite decimals as numbers. -/
def compareFinite (na : Bool) (ca : Nat) (ea : Int) (nb : Bool) (cb : Nat) (eb : Int) : Ordering :=
  if ca = 0 then
    if cb = 0 then .eq else if nb then .gt else .lt
  else if cb = 0 then (if na then .lt else .gt)
  else match na, nb with
    | false, true => .gt
    | true, false => .lt
    | false, false => compareMagnitude ca ea cb eb
    | true, true => (compareMagnitude ca ea cb eb).swap

/-- Compare two decimals; a not-a-number compares with nothing. -/
def compare? : Decimal → Decimal → Option Ordering
  | finite na ca ea, finite nb cb eb => some (compareFinite na ca ea nb cb eb)
  | infinity n, infinity m => some (if n = m then .eq else if n then .lt else .gt)
  | infinity n, finite _ _ _ => some (if n then .lt else .gt)
  | finite _ _ _, infinity m => some (if m then .gt else .lt)
  | _, _ => none

/-- Is the first larger? -/
def gt (a b : Decimal) : Except Signal Bool :=
  match compare? a b with
  | some o => .ok (o == .gt)
  | none => .error .invalidOperation

/-- Is the first at most the second? -/
def le (a b : Decimal) : Except Signal Bool :=
  match compare? a b with
  | some o => .ok (o != .gt)
  | none => .error .invalidOperation

/-- Are they equal as numbers? -/
def numericallyEqual (a b : Decimal) : Except Signal Bool :=
  if a.isSignaling || b.isSignaling then .error .invalidOperation
  else .ok (compare? a b == some .eq)

end Decimal

end PaperVenue
