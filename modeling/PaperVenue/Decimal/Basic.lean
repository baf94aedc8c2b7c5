/-!
# Decimals

A finite decimal is a sign, a coefficient and an exponent: `neg c e` stands for `± c · 10^e`.
The three are kept apart because they show.  `0.50` and `0.5` are equal as numbers and are written
differently, and so are `0` and `-0`; a market's tick and an account's balance are reported the
way they were given.

Beside the finite ones there are two infinities and the not-a-numbers, quiet or signaling, with a
payload of digits.

Exponents come as far as `± 10^18`, so nothing here may write a number out in full before it is
known to be short.  The comparison and the arithmetic look at the *adjusted* exponent first, that
of the leading digit.
-/

namespace PaperVenue

/-- A decimal number, infinity or not-a-number. -/
inductive Decimal where
  | finite (negative : Bool) (coefficient : Nat) (exponent : Int)
  | infinity (negative : Bool)
  | nan (negative signaling : Bool) (payload : Nat)
  deriving DecidableEq

/-- The decimal digits of a number, most significant first; zero has the one digit `0`. -/
def decimalDigits (n : Nat) : List Char := Nat.toDigits 10 n

/-- How many decimal digits a number has; zero has one. -/
def digitCount (n : Nat) : Nat := (decimalDigits n).length

theorem digitCount_pos (n : Nat) : 0 < digitCount n := by
  simp [digitCount, decimalDigits, Nat.length_toDigits_pos]

namespace Decimal

/-- What arithmetic signals instead of a result. -/
inductive Signal where
  | invalidOperation | overflow | divisionByZero
  deriving DecidableEq

/-- The decimal of a natural number. -/
def ofNat (n : Nat) : Decimal := finite false n 0

/-- The decimal of an integer. -/
def ofInt (n : Int) : Decimal := finite (decide (n < 0)) n.natAbs 0

/-- Zero, with exponent zero and no sign. -/
def zero : Decimal := finite false 0 0

/-- Is it a finite number? -/
def isFinite : Decimal → Bool
  | finite _ _ _ => true
  | _ => false

/-- Is it a not-a-number? -/
def isNaN : Decimal → Bool
  | nan _ _ _ => true
  | _ => false

/-- Is it a signaling not-a-number? -/
def isSignaling : Decimal → Bool
  | nan _ s _ => s
  | _ => false

/-- The exponent of the leading digit of `coefficient · 10^exponent`. -/
def adjusted (coefficient : Nat) (exponent : Int) : Int :=
  exponent + digitCount coefficient - 1

/-- The sign as it is written in front of a number. -/
def signText (negative : Bool) : List Char := if negative then ['-'] else []

end Decimal

end PaperVenue
