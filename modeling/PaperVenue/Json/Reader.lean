import PaperVenue.Json.Lexeme
import PaperVenue.Encoding.Detected
import PaperVenue.Table

/-!
# Reading a document

The reader takes one lexeme after the other.  Between two lexemes it knows the containers that are
open, innermost first, and what may come next; that is its `State`.  `State.step` is the whole
grammar: for each state it says which lexemes may come, and every other lexeme is the error that
the state stands for, at the offset of the lexeme.  Reading is then a fold over the lexemes, and
the end of the document is judged by `State.atEnd`.

The containers are kept in a list and not on a stack of calls, so the depth of nesting is the
length of that list, and the limit on it is a comparison.
-/

namespace PaperVenue

namespace Json

/-- A container that waits for a value: the items so far, last one first, or the members so far and
the name of the next. -/
inductive Frame where
  | array (items : List Json)
  | object (members : Table Text Json) (label : Text)

/-- What may come next, and what is open around it. -/
inductive State where
  | value (outer : List Frame)
  | firstItem (outer : List Frame)
  | firstName (outer : List Frame)
  | nextName (members : Table Text Json) (outer : List Frame)
  | colon (members : Table Text Json) (label : Text) (outer : List Frame)
  | afterItem (items : List Json) (outer : List Frame)
  | afterMember (members : Table Text Json) (outer : List Frame)
  | finished (v : Json)

/-- An error before its place in lines and columns is known. -/
inductive Failure where
  | fault (fault : Fault) (offset : Nat)
  | tooManyDigits (digits : Nat)
  | tooDeep (container : Container)

namespace State

/-- A value is complete; the innermost container takes it. -/
def close (v : Json) : List Frame → State
  | [] => finished v
  | .array items :: outer => afterItem (v :: items) outer
  | .object members label :: outer => afterMember (Table.put members label v) outer

/-- Open a container, unless too many are open. -/
def enter (container : Container) (outer : List Frame) : Except Failure State :=
  if maxDepth ≤ outer.length then .error (.tooDeep container)
  else match container with
    | .array => .ok (firstItem outer)
    | .object => .ok (firstName outer)

/-- A lexeme where a value must stand. -/
def takeValue (outer : List Frame) (l : Lexeme) : Except Failure State :=
  match l.token with
  | .value v => .ok (close v outer)
  | .text t => .ok (close (.text t) outer)
  | .openArray => enter .array outer
  | .openObject => enter .object outer
  | .broken (.text fault offset) => .error (.fault fault offset)
  | .broken (.digits n) => .error (.tooManyDigits n)
  | _ => .error (.fault .expectingValue l.offset)

/-- A lexeme where the name of a member must stand. -/
def takeName (members : Table Text Json) (outer : List Frame) (l : Lexeme) : Except Failure State :=
  match l.token with
  | .text t => .ok (colon members t outer)
  | .broken (.text fault offset) => .error (.fault fault offset)
  | _ => .error (.fault .expectingName l.offset)

/-- The next lexeme. -/
def step (s : State) (l : Lexeme) : Except Failure State :=
  match s with
  | value outer => takeValue outer l
  | firstItem outer => match l.token with
    | .closeArray => .ok (close (.array []) outer)
    | _ => takeValue (.array [] :: outer) l
  | firstName outer => match l.token with
    | .closeObject => .ok (close (.object []) outer)
    | _ => takeName [] outer l
  | nextName members outer => takeName members outer l
  | colon members label outer => match l.token with
    | .colon => .ok (value (.object members label :: outer))
    | _ => .error (.fault .expectingColon l.offset)
  | afterItem items outer => match l.token with
    | .comma => .ok (value (.array items :: outer))
    | .closeArray => .ok (close (.array items.reverse) outer)
    | _ => .error (.fault .expectingComma l.offset)
  | afterMember members outer => match l.token with
    | .comma => .ok (nextName members outer)
    | .closeObject => .ok (close (.object members) outer)
    | _ => .error (.fault .expectingComma l.offset)
  | finished _ => .error (.fault .extraData l.offset)

/-- The end of the document, which has the given length. -/
def atEnd (length : Nat) : State → Except Failure Json
  | finished v => .ok v
  | value _ => .error (.fault .expectingValue length)
  | firstItem _ => .error (.fault .expectingValue length)
  | firstName _ => .error (.fault .expectingName length)
  | nextName _ _ => .error (.fault .expectingName length)
  | colon _ _ _ => .error (.fault .expectingColon length)
  | afterItem _ _ => .error (.fault .expectingComma length)
  | afterMember _ _ => .error (.fault .expectingComma length)

end State

/-- Give a failure its place. -/
def Failure.located (t : Text) : Failure → ReadError
  | fault f offset => .malformed f (placeOf t offset)
  | tooManyDigits n => .tooManyDigits n
  | tooDeep c => .tooDeep c

/-- The value that lexemes spell, in a document of a given length. -/
def ofLexemes (length : Nat) (ls : List Lexeme) : Except Failure Json := do
  (← ls.foldlM State.step (.value [])).atEnd length

/-- Read a text. -/
def read (t : Text) : Except ReadError Json :=
  (ofLexemes t.length (lexemes t)).mapError (Failure.located t)

/-- Does the text start with a byte order mark? -/
def startsWithMark (t : Text) : Bool := t.head? = some (.scalar '\uFEFF')

/-- A document: text that was given as text, or octets. -/
inductive Document where
  | inline (t : Text)
  | octets (bs : List UInt8)

/-- Read a document.  Text must not start with a byte order mark; in octets the mark tells the
encoding and is gone before the text is read. -/
def Document.read : Document → Except ReadError Json
  | inline t =>
    if startsWithMark t then .error (.malformed .byteOrderMark (placeOf t 0)) else Json.read t
  | octets bs => do
    let t ← (decodeDocument bs).mapError .undecodable
    Json.read t

end Json

end PaperVenue
