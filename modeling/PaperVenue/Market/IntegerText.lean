import PaperVenue.Text.Blank
import PaperVenue.Text.DecimalDigit

/-!
# Integers written as texts

A text is read up to two times.  If it is a numeral, a minus if the number is negative and then
digits without a zero in front, it stands for that number.  Any other text is tidied, and what is
left of it has to be a numeral:

    " +7.00 "  is  7        "1_000"  is  1000        "-007"  is  -7

Tidying takes away blanks at the ends, a plus, zeros in front of the number, zeros behind a point,
and underscores, if each of them stands alone between two other characters.  Among the zeros in
front underscores may stand as they like, and what these zeros stand in front of may be a minus as
well as a digit: `"0__5"` is 5 and `"00-7"` is -7.

A numeral has at most `maxDigits` digits.  Of the two readings only the first one says that there
are too many, and it says so without a look at what stands behind them.  So one digit too many is
`tooLong` if the text starts with its digits and `malformed` if it has to be tidied.
-/

namespace PaperVenue

namespace IntegerText

/-- Why a text stands for no integer. -/
inductive Fault where
  | malformed | tooLong
  deriving DecidableEq

/-- The most digits of a numeral. -/
def maxDigits : Nat := 4300

/-! ## Numerals -/

/-- Split a minus off: is there one, and the rest. -/
def splitMinus : List Char → Bool × List Char
  | '-' :: cs => (true, cs)
  | cs => (false, cs)

/-- The value of a numeral. -/
def numeral (cs : List Char) : Except Fault Int :=
  let (negative, body) := splitMinus cs
  let digits := body.takeWhile isAsciiDigit
  if digits.head? = some '0' && 1 < digits.length then .error .malformed
  else if maxDigits < digits.length then .error .tooLong
  else if digits.isEmpty || digits.length < body.length then .error .malformed
  else .ok (if negative then -(digitsValue digits : Int) else digitsValue digits)

/-! ## Tidying -/

/-- What stands behind a plus, if there is one; a plus in front of a minus is no sign. -/
def dropPlus? : List Char → Option (List Char)
  | '+' :: '-' :: _ => none
  | '+' :: cs => some cs
  | cs => some cs

/-- Can it stand among the zeros in front of a number? -/
def isFiller (c : Char) : Bool := c = '0' || c = '_'

/-- Can a number start with it? -/
def isLeading (c : Char) : Bool := isAsciiDigit c || c = '-'

/-- A number without the zeros in front of it.  If it has nothing else in front of its point, the
last of them stays. -/
def dropZeros? (cs : List Char) : Option (List Char) :=
  if cs.head? = some '0' then
    let fillers := cs.takeWhile isFiller
    match cs.drop fillers.length with
    | [] => some (fillers.drop (fillers.length - 1))
    | '.' :: rest => some (fillers.drop (fillers.length - 1) ++ '.' :: rest)
    | c :: rest => if isLeading c then some (c :: rest) else none
  else if cs.head?.any isLeading then some cs
  else none

/-- A number without its point, if there is nothing but zeros behind it. -/
def dropZeroFraction (cs : List Char) : List Char :=
  let whole := cs.takeWhile (· ≠ '.')
  let zeros := cs.drop (whole.length + 1)
  if !zeros.isEmpty && zeros.all (· = '0') then whole else cs

/-- Do two underscores stand side by side? -/
def hasDouble : List Char → Bool
  | '_' :: '_' :: _ => true
  | _ :: cs => hasDouble cs
  | [] => false

/-- A number without its underscores, if each of them stands alone between other characters. -/
def dropUnderscores (cs : List Char) : List Char :=
  if cs.head? = some '_' || cs.getLast? = some '_' || hasDouble cs then cs
  else cs.filter (· ≠ '_')

/-- A text that was tidied. -/
def tidied? (cs : List Char) : Option (List Char) := do
  let (negative, body) := splitMinus (← dropPlus? (trim isWhiteSpace cs))
  let body ← dropZeros? body
  some (dropUnderscores (dropZeroFraction (if negative then '-' :: body else body)))

/-! ## Reading -/

/-- The integer that a text stands for. -/
def read (cs : List Char) : Except Fault Int :=
  match numeral cs with
  | .ok n => .ok n
  | .error .tooLong => .error .tooLong
  | .error .malformed => match tidied? cs with
    | none => .error .malformed
    | some tidy => (numeral tidy).mapError fun _ => .malformed

/-- A numeral is not tidied. -/
theorem read_of_numeral {cs : List Char} {n : Int} (h : numeral cs = .ok n) : read cs = .ok n := by
  simp [read, h]

example : read [' ', '+', '7', '.', '0', '0', ' '] = .ok 7 := rfl
example : read ['0', '_', '_', '5'] = .ok 5 := rfl
example : read ['0', '0', '-', '7'] = .ok (-7) := rfl
example : read ['0', '-', '0', '7'] = .error .malformed := rfl

end IntegerText

end PaperVenue
