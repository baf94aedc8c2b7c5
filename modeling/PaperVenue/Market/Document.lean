import PaperVenue.Failure
import PaperVenue.Json.Reader

/-!
# The two shapes of a catalog document

A document is an object whose members are records, keyed by symbol, or an array of records, each of
which has to name its symbol.  An object with at least one member is a catalog in which the member
names are the keys, whatever symbols the records name; in an array a later record replaces an
earlier one with the same symbol.

A document that is refused is refused for one reason.  The records are read in order and all their
errors are counted for the journal, but only the first is reported.
-/

namespace PaperVenue

namespace Catalog

/-- An error of a record: the place of the record, and what is wrong with it. -/
structure RecordError where
  record : Text
  error : Record.FieldError

/-- Read the record at a place. -/
def readAt (e : Text × Json) : Checked RecordError Market :=
  (Record.read e.2).mapError (Errors.map fun error => { record := e.1, error })

/-- Read records, each at its place; the errors of all of them are collected. -/
def readRecords : List (Text × Json) → Checked RecordError (List Market)
  | [] => .ok []
  | e :: rest => Checked.ap ((readAt e).map List.cons) (readRecords rest)

/-- A code point of a place in a message: a surrogate, which cannot be shown, becomes three
replacement characters. -/
def shownPoint : CodePoint → Text
  | .scalar c => [.scalar c]
  | .surrogate _ => List.replicate 3 (.scalar '\uFFFD')

/-- The members of an object, each at its name. -/
def memberPlaces (members : Table Text Json) : List (Text × Json) :=
  members.map fun e => (e.1.flatMap shownPoint, e.2)

/-- The items of an array, each at its index. -/
def itemPlaces (items : List Json) : List (Text × Json) :=
  items.zipIdx.map fun e => (Text.ofString (toString e.2), e.1)

/-- Note that a document does not have a shape, and refuse it for the first of its errors. -/
def refuse {α : Type} (shape : String) (es : Errors RecordError) : Traced VenueError α := do
  Traced.note .debug .catalog
    (Text.ofString ("Catalog is not " ++ shape ++ ": " ++ toString es.count ++ " errors"))
  throw (.refusedRecord es.first.record es.first.error)

/-- The catalog of an object: the member names are the keys. -/
def ofMembers (members : Table Text Json) : Traced VenueError Catalog :=
  match readRecords (memberPlaces members) with
  | .error es => refuse "a symbol-keyed mapping" es
  | .ok ms =>
    if members.isEmpty then throw .shapeless else pure ((Table.keys members).zip ms)

/-- Add the market of an array's record to a catalog under its symbol. -/
def addNamed (catalog : Catalog) (item : Market × Nat) : Except VenueError Catalog :=
  if item.1.symbol.isEmpty then .error (.nameless item.2)
  else .ok (Table.put catalog item.1.symbol item.1)

/-- The catalog of an array: the symbols are the keys. -/
def ofItems (items : List Json) : Traced VenueError Catalog :=
  match readRecords (itemPlaces items) with
  | .error es => refuse "an array of markets" es
  | .ok ms => Traced.ofExcept (ms.zipIdx.foldlM addNamed [])

/-- The catalog of a JSON value. -/
def ofJson : Json → Traced VenueError Catalog
  | .object members => ofMembers members
  | .array items => ofItems items
  | _ => throw .shapeless

/-- The catalog of a document. -/
def decode (document : Json.Document) : Traced VenueError Catalog :=
  match document.read with
  | .error e => throw (.malformed e)
  | .ok v => ofJson v

end Catalog

end PaperVenue
