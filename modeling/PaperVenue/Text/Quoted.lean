import PaperVenue.Text.Printable

/-!
# Quoted texts

Messages that mention a text quote it so that the reader sees where it ends and what is in it.
The quote is `'`, unless the text holds a `'` and no `"`; then it is `"`.  A backslash and the
quote itself take a backslash, tab, line feed and carriage return have escapes of their own, and
a character that does not print is written by its number in hexadecimal: two digits below
`U+0100`, four below `U+10000`, eight from there on.
-/

namespace PaperVenue

/-- A number in small hexadecimal digits, filled up with zeros to a width. -/
def hexDigits (width n : Nat) : List Char :=
  let ds := Nat.toDigits 16 n
  List.replicate (width - ds.length) '0' ++ ds

/-- The quote for a text: `'`, unless the text holds a `'` and no `"`. -/
def quoteFor (cs : List Char) : Char :=
  if cs.contains '\'' && !cs.contains '"' then '"' else '\''

/-- One character of a quoted text. -/
def quoteChar (quote c : Char) : List Char :=
  if c == quote || c == '\\' then ['\\', c]
  else if c == '\t' then ['\\', 't']
  else if c == '\n' then ['\\', 'n']
  else if c == '\r' then ['\\', 'r']
  else if isPrintable c then [c]
  else if c.toNat < 0x100 then '\\' :: 'x' :: hexDigits 2 c.toNat
  else if c.toNat < 0x10000 then '\\' :: 'u' :: hexDigits 4 c.toNat
  else '\\' :: 'U' :: hexDigits 8 c.toNat

/-- The text between quotes. -/
def quoted (s : String) : String :=
  let cs := s.toList
  let q := quoteFor cs
  String.ofList (q :: cs.flatMap (quoteChar q) ++ [q])

example : quoted "it's" = "\"it's\"" := by cbv

end PaperVenue
