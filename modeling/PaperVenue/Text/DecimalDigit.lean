/-!
# Decimal digits of every script

A number may be typed with the digits of any script: Unicode's category `Nd` holds 66 blocks of
ten consecutive characters, zero to nine.  `digitZeros` lists the zeros of the blocks, and
`digitValue?` is the value of a digit.
-/

namespace PaperVenue

-- powers are those of the core library
attribute [local instance (1100)] instPowNat

/-- The zero of each block of decimal digits, in code point order (Unicode 14). -/
def digitZeros : List Nat :=
  [
    0x30, 0x660, 0x6F0, 0x7C0, 0x966, 0x9E6, 0xA66, 0xAE6, 0xB66, 0xBE6, 0xC66, 0xCE6, 0xD66,
    0xDE6, 0xE50, 0xED0, 0xF20, 0x1040, 0x1090, 0x17E0, 0x1810, 0x1946, 0x19D0, 0x1A80, 0x1A90,
    0x1B50, 0x1BB0, 0x1C40, 0x1C50, 0xA620, 0xA8D0, 0xA900, 0xA9D0, 0xA9F0, 0xAA50, 0xABF0,
    0xFF10, 0x104A0, 0x10D30, 0x11066, 0x110F0, 0x11136, 0x111D0, 0x112F0, 0x11450, 0x114D0,
    0x11650, 0x116C0, 0x11730, 0x118E0, 0x11950, 0x11C50, 0x11D50, 0x11DA0, 0x16A60, 0x16AC0,
    0x16B50, 0x1D7CE, 0x1D7D8, 0x1D7E2, 0x1D7EC, 0x1D7F6, 0x1E140, 0x1E2F0, 0x1E950, 0x1FBF0 ]

/-- The value of a decimal digit of any script. -/
def digitValue? (c : Char) : Option Nat :=
  if c.toNat < 0x80 then
    if 0x30 ≤ c.toNat && c.toNat ≤ 0x39 then some (c.toNat - 0x30) else none
  else
    (digitZeros.find? fun z => z ≤ c.toNat && c.toNat ≤ z + 9).map fun z => c.toNat - z

/-- Is this one of the ten ASCII digits? -/
def isAsciiDigit (c : Char) : Bool := '0' ≤ c && c ≤ '9'

/-- The number written by a list of ASCII digits, most significant first. -/
def digitsValue (cs : List Char) : Nat := Nat.ofDigitChars 10 cs 0

@[simp] theorem digitsValue_nil : digitsValue [] = 0 := rfl

/-- The digits of a number read back as that number. -/
theorem digitsValue_toDigits (n : Nat) : digitsValue (Nat.toDigits 10 n) = n :=
  Nat.ofDigitChars_toDigits (by decide) (by decide)

theorem isAsciiDigit_iff {c : Char} : isAsciiDigit c = true ↔ '0' ≤ c ∧ c ≤ '9' := by
  rw [isAsciiDigit, Bool.and_eq_true, decide_eq_true_eq, decide_eq_true_eq]

/-- Digits make a number below the power of ten of their count. -/
theorem digitsValue_lt {cs : List Char} (h : ∀ c ∈ cs, isAsciiDigit c = true) :
    digitsValue cs < 10 ^ cs.length := by
  suffices hfrom : ∀ n, Nat.ofDigitChars 10 cs n < (n + 1) * 10 ^ cs.length by
    simpa only [digitsValue, Nat.zero_add, Nat.one_mul] using hfrom 0
  induction cs with
  | nil =>
    intro n
    rw [Nat.ofDigitChars_nil, List.length_nil]
    omega
  | cons c cs ih =>
    intro n
    obtain ⟨hc, hcs⟩ := List.forall_mem_cons.1 h
    have hdigit : c.toNat ≤ '9'.toNat := (isAsciiDigit_iff.1 hc).2
    have hnine : c.toNat - '0'.toNat ≤ 9 := Nat.sub_le_sub_right hdigit _
    have hstep : 10 * n + (c.toNat - '0'.toNat) + 1 ≤ (n + 1) * 10 := by omega
    rw [Nat.ofDigitChars_cons, List.length_cons, Nat.pow_succ']
    refine Nat.lt_of_lt_of_le (ih hcs _) ?_
    rw [← Nat.mul_assoc]
    exact Nat.mul_le_mul_right _ hstep

example : digitZeros.length = 66 := rfl

end PaperVenue
