import PaperVenue.Text.CodePoint
import PaperVenue.Binary64.Basic

/-!
# JSON values

A value is what a document says, with the distinctions that catalog records care about: an integer
is not a double, and a text may hold surrogates.  The members of an object stand in the order in
which their names first came; a name occurs once, with the value that came last (`Table.put`).
-/

namespace PaperVenue

/-- A JSON value. -/
inductive Json where
  | null
  | boolean (b : Bool)
  | integer (n : Int)
  | double (x : Binary64)
  | text (t : Text)
  | array (items : List Json)
  | object (members : List (Text × Json))

end PaperVenue
