import PaperVenue.Binary64.Basic

/-!
# The shortest decimal of a double

A double is reported by the fewest decimal digits that are read back as the same double, and of
those by the nearest; an exact tie goes to the even digit.

The numbers that read back as `m · 2^e` form an interval around it, half a step wide on each side,
a quarter below if `m` is the least mantissa of its exponent; the ends belong to it exactly if `m`
is even.  On the grid of `n` significant digits only the two neighbours of the double can be the
answer, so the first `n` for which one of them lies in the interval settles it, and 17 digits
always suffice.

Which decimal stands for the double is then a matter of notation.  From `10^-4` up to below `10^16`
a double is written positionally with at least one digit behind the point, so `1000.0` has
coefficient `10000`; elsewhere it is written with an exponent and has no such zero.
-/

namespace PaperVenue

-- powers are those of the core library
attribute [local instance (1100)] instPowNat

namespace Binary64

/-- The exponent of the leading decimal digit of `m · 2^e`, where `m` is not zero.  Shifting by 340
places makes even the smallest double larger than one. -/
def decimalLead (m : Nat) (e : Int) : Int :=
  (digitCount (m * 2 ^ e.toNat * 10 ^ (340 : Nat) / 2 ^ (-e).toNat) : Int) - 1 - 340

/-- The numbers that read back as `m · 2^e`, as bounds in units of `2^(e-2)`. -/
def readBack (m : Nat) (e : Int) : Nat × Nat :=
  (if m = 2 ^ (mantissaBits - 1) ∧ minExponent < e then 4 * m - 1 else 4 * m - 2, 4 * m + 2)

/-- Does `q · 10^k` read back as `m · 2^e`? -/
def readsBack (m : Nat) (e : Int) (q : Nat) (k : Int) : Bool :=
  let (lo, hi) := readBack m e
  let b := e - 2
  let x := q * 10 ^ k.toNat * 2 ^ (-b).toNat
  let scale := 10 ^ (-k).toNat * 2 ^ b.toNat
  if m % 2 = 0 then lo * scale ≤ x && x ≤ hi * scale else lo * scale < x && x < hi * scale

/-- The neighbour of `m · 2^e` on the grid `10^k` that reads back, the nearer of two. -/
def onGrid? (m : Nat) (e : Int) (k : Int) : Option Nat :=
  let n := m * 2 ^ e.toNat * 10 ^ (-k).toNat
  let d := 2 ^ (-e).toNat * 10 ^ k.toNat
  let below := n / d
  match readsBack m e below k, readsBack m e (below + 1) k with
  | true, true => some (roundQuotient n d)
  | true, false => some below
  | false, true => some (below + 1)
  | false, false => none

/-- The answer on the first of several grids that has one. -/
def shortestOn (m : Nat) (e : Int) : List Int → Option (Nat × Int)
  | [] => none
  | k :: ks => match onGrid? m e k with
    | some q => some (q, k)
    | none => shortestOn m e ks

/-- The grids of 1, 2, … 17 significant digits for a number with the given leading place. -/
def grids (lead : Int) : List Int := (List.range 17).map fun (n : Nat) => lead - n

/-- The fewest digits that read back as `m · 2^e`, as a coefficient without zeros at its end and
an exponent. -/
def shortest (m : Nat) (e : Int) : Nat × Int :=
  match shortestOn m e (grids (decimalLead m e)) with
  | some (q, k) => Decimal.dropZeros 17 q k
  | none => (m, e)

/-- The places of a leading digit that are written positionally, ends included. -/
def positionalPlaces : Int × Int := (-4, 15)

/-- The decimal that stands for a double; the infinities and the not-a-number have none. -/
def toDecimal? : Binary64 → Option Decimal
  | finite negative 0 _ => some (.finite negative 0 (-1))
  | finite negative m e =>
    let (c, k) := shortest m e
    let lead := Decimal.adjusted c k
    if positionalPlaces.1 ≤ lead && lead ≤ positionalPlaces.2 && 0 ≤ k then
      some (.finite negative (c * 10 ^ (k.toNat + 1)) (-1))
    else some (.finite negative c k)
  | _ => none

end Binary64

end PaperVenue
