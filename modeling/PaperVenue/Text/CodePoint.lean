/-!
# Texts that may hold a lone surrogate

A catalog document can spell `\ud800` inside a string, and the documents' rules accept it: a
market may well be called by a code point that is no character.  A `String` cannot hold such a
symbol, so whatever is read out of a document, or written about it, is a `Text`, a list of code
points of which some may be surrogates.

Everything else in this library (order symbols, environment values, paths) is known to consist
of characters and stays a `String`; `Text.ofString` and `Text.toString?` pass between the two,
and `Text.toString?_ofString` says that nothing is lost on the way.
-/

namespace PaperVenue

/-- A Unicode code point: a character, or one of the 2048 surrogates that no character uses. -/
inductive CodePoint where
  | scalar (c : Char)
  | surrogate (n : Fin 0x800)
  deriving DecidableEq

namespace CodePoint

/-- The number of the code point. -/
def toNat : CodePoint → Nat
  | scalar c => c.toNat
  | surrogate n => 0xD800 + n

/-- The code point of a number; there is none from `0x110000` on. -/
def ofNat? (n : Nat) : Option CodePoint :=
  if h : 0xD800 ≤ n ∧ n < 0xE000 then some (.surrogate ⟨n - 0xD800, by omega⟩)
  else if n < 0x110000 then some (.scalar (Char.ofNat n))
  else none

/-- The character, unless the code point is a surrogate. -/
def toChar? : CodePoint → Option Char
  | scalar c => some c
  | surrogate _ => none

/-- Is this the given character? -/
def is (c : Char) : CodePoint → Bool
  | scalar d => d == c
  | surrogate _ => false

@[simp] theorem toChar?_scalar (c : Char) : (scalar c).toChar? = some c := rfl

end CodePoint

/-- A sequence of code points. -/
abbrev Text := List CodePoint

namespace Text

/-- The characters of a list, as a text. -/
def ofChars (cs : List Char) : Text := cs.map .scalar

/-- A string, as a text. -/
def ofString (s : String) : Text := ofChars s.toList

/-- The characters of a text that holds no surrogate. -/
def toChars? (t : Text) : Option (List Char) := t.mapM CodePoint.toChar?

/-- The string of a text that holds no surrogate. -/
def toString? (t : Text) : Option String := t.toChars?.map String.ofList

/-- Texts in code point order: the order of the first difference, and a text before its
extensions. -/
def le : Text → Text → Bool
  | [], _ => true
  | _ :: _, [] => false
  | a :: s, b :: t =>
    if a.toNat < b.toNat then true
    else if b.toNat < a.toNat then false
    else le s t

instance : Coe String Text := ⟨ofString⟩

@[simp] theorem toChars?_ofChars (cs : List Char) : toChars? (ofChars cs) = some cs := by
  induction cs with
  | nil => rfl
  | cons c cs ih =>
    have h : List.mapM CodePoint.toChar? (ofChars cs) = some cs := ih
    simp [toChars?, ofChars] at h ⊢
    simp [h]

@[simp] theorem toString?_ofString (s : String) : toString? (ofString s) = some s := by
  simp [toString?, ofString]

end Text

end PaperVenue
