import PaperVenue.Decimal.Rounding

/-!
# Double precision numbers

A number with a point or an exponent in a catalog document is a double: 53 binary digits, and
exponents from `-1074` on.  A double is kept as the exact number that it is, `± m · 2^e`, so that
nothing here depends on machine arithmetic.

`Binary64.nearest` is the double nearest to a decimal literal, an even mantissa on a tie.  Literals
are not bounded in length, so the two ends of the range are recognised by the leading digit before
any power is computed: from `10^310` on everything is infinite, and below `10^-326` everything is
zero.
-/

namespace PaperVenue

-- powers are those of the core library
attribute [local instance (1100)] instPowNat

/-- A double precision number. -/
inductive Binary64 where
  | finite (negative : Bool) (mantissa : Nat) (exponent : Int)
  | infinity (negative : Bool)
  | nan
  deriving DecidableEq

namespace Binary64

/-- Binary digits of a mantissa. -/
def mantissaBits : Nat := 53

/-- The exponent of the smallest double. -/
def minExponent : Int := -1074

/-- The exponent of the largest doubles. -/
def maxExponent : Int := 971

/-- The largest `k` with `2^k ≤ n / d`; both are positive. -/
def log2Quotient (n d : Nat) : Int :=
  let k : Int := (Nat.log2 n : Int) - Nat.log2 d
  if d * 2 ^ k.toNat ≤ n * 2 ^ (-k).toNat then k else k - 1

/-- The double nearest to a positive quotient. -/
def nearestQuotient (negative : Bool) (n d : Nat) : Binary64 :=
  let e := max (log2Quotient n d - (mantissaBits - 1 : Nat)) minExponent
  let m := roundQuotient (n * 2 ^ (-e).toNat) (d * 2 ^ e.toNat)
  let (m, e) := if m = 2 ^ mantissaBits then (2 ^ (mantissaBits - 1), e + 1) else (m, e)
  if maxExponent < e then infinity negative else finite negative m e

/-- The double nearest to `± c · 10^k`. -/
def nearest (negative : Bool) (c : Nat) (k : Int) : Binary64 :=
  if c = 0 then finite negative 0 0
  else
    let lead := Decimal.adjusted c k
    if 310 ≤ lead then infinity negative
    else if lead < -326 then finite negative 0 0
    else nearestQuotient negative (c * 10 ^ k.toNat) (10 ^ (-k).toNat)

/-- The integer that a finite double is, if it is one. -/
def toInt? : Binary64 → Option Int
  | finite negative m e =>
    let scaled := m * 2 ^ e.toNat
    let unit := 2 ^ (-e).toNat
    if scaled % unit = 0 then
      some (if negative then -((scaled / unit : Nat) : Int) else (scaled / unit : Nat))
    else none
  | _ => none

/-- Is it neither infinite nor a not-a-number? -/
def isFinite : Binary64 → Bool
  | finite _ _ _ => true
  | _ => false

end Binary64

end PaperVenue
