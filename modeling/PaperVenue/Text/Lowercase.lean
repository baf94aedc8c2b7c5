/-!
# Lower case, for words spelled in ASCII

The words that settings and exchange names are compared with are spelled in ASCII small letters.
To decide whether the lower case of a text is such a word, it is enough to know the characters
whose lower case is a single ASCII letter: the ASCII capitals, and the Kelvin sign `U+212A`,
whose lower case is `k`.  Every other character keeps a non-ASCII character in its lower case,
so leaving it as it stands cannot make a text equal to such a word, nor keep it from being one.
-/

namespace PaperVenue

/-- Lower case of the characters whose lower case is an ASCII letter; others stay. -/
def lowerChar (c : Char) : Char :=
  if c == '\u212A' then 'k' else c.toLower

/-- Lower case of a text that is to be compared with an ASCII word. -/
def lowercase (s : String) : String := String.ofList (s.toList.map lowerChar)

/-- Case folding for the same purpose: the long s, a small letter already, folds to `s`. -/
def foldCase (s : String) : String :=
  String.ofList (s.toList.map fun c => if c == '\u017F' then 's' else lowerChar c)

end PaperVenue
