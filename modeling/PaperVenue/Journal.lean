import PaperVenue.Text.CodePoint
import PaperVenue.Table

/-!
# The journal

Every part of the venue notes what it does.  A note is data: its severity, the part that wrote
it, a message, and fields for machines.  A computation that writes notes is a `Logged` value, and
one that may fail as well is a `Traced` value; a failure keeps the notes written before it, which
is why the notes lie under the error and not inside the success.

`Traced.run` gives both at once.  The equations below it are all that a proof needs to know.
-/

namespace PaperVenue

/-- How serious a note is. -/
inductive Severity where
  | debug | info | warning | error
  deriving DecidableEq

/-- The text of a severity. -/
def Severity.text : Severity → String
  | debug => "DEBUG"
  | info => "INFO"
  | warning => "WARNING"
  | error => "ERROR"

/-- The part that wrote a note: one of the venue, or the loader of environment files. -/
inductive Part where
  | config | catalog | ledger | gate | exchange | stream | strategy | envFile
  deriving DecidableEq

/-- The name of a part. -/
def Part.text : Part → String
  | config => "config"
  | catalog => "catalog"
  | ledger => "ledger"
  | gate => "gate"
  | exchange => "exchange"
  | stream => "stream"
  | strategy => "strategy"
  | envFile => "dotenv.main"

/-- The name under which a part writes: the parts of the venue are named as such. -/
def Part.logger : Part → String
  | envFile => envFile.text
  | p => "polymarket_adapter." ++ p.text

/-- A field for machines: nothing, a text, an integer, or a group of fields. -/
inductive FieldValue where
  | nothing
  | text (s : String)
  | integer (n : Int)
  | group (fields : List (String × FieldValue))

/-- A text if there is one, and nothing otherwise. -/
def FieldValue.ofText? (s : Option String) : FieldValue := (s.map text).getD nothing

/-- One note of the journal. -/
structure Note where
  severity : Severity
  part : Part
  message : Text
  fields : List (String × FieldValue) := []

/-- A value together with the notes written on the way to it. -/
structure Logged (α : Type) where
  value : α
  notes : List Note := []

namespace Logged

/-- A value without notes. -/
protected def pure {α : Type} (a : α) : Logged α := { value := a }

/-- Go on with the value; the notes of both steps stand in order. -/
protected def bind {α β : Type} (x : Logged α) (f : α → Logged β) : Logged β :=
  { value := (f x.value).value, notes := x.notes ++ (f x.value).notes }

instance : Monad Logged where
  pure := Logged.pure
  bind := Logged.bind

instance : LawfulMonad Logged := LawfulMonad.mk' Logged
  (fun x => by simp [Functor.map, Logged.bind, Logged.pure])
  (fun a f => by simp [Pure.pure, Bind.bind, Logged.bind, Logged.pure])
  (fun x f g => by simp [Bind.bind, Logged.bind])

/-- Write one note. -/
def note (n : Note) : Logged Unit := { value := (), notes := [n] }

@[simp] theorem value_pure {α : Type} (a : α) : (pure a : Logged α).value = a := rfl

@[simp] theorem notes_pure {α : Type} (a : α) : (pure a : Logged α).notes = [] := rfl

@[simp] theorem value_bind {α β : Type} (x : Logged α) (f : α → Logged β) :
    (x >>= f).value = (f x.value).value := rfl

@[simp] theorem notes_bind {α β : Type} (x : Logged α) (f : α → Logged β) :
    (x >>= f).notes = x.notes ++ (f x.value).notes := rfl

@[simp] theorem value_note (n : Note) : (note n).value = () := rfl

@[simp] theorem notes_note (n : Note) : (note n).notes = [n] := rfl

end Logged

/-- A computation that writes notes and may fail with an `ε`; the notes outlive the failure. -/
abbrev Traced (ε α : Type) := ExceptT ε Logged α

namespace Traced

/-- The outcome of a computation. -/
def outcome {ε α : Type} (x : Traced ε α) : Except ε α := (ExceptT.run x).value

/-- The notes of a computation, also of one that failed. -/
def notes {ε α : Type} (x : Traced ε α) : List Note := (ExceptT.run x).notes

/-- Write one note. -/
def note {ε : Type} (severity : Severity) (part : Part) (message : Text)
    (fields : List (String × FieldValue) := []) : Traced ε Unit :=
  ExceptT.lift (Logged.note { severity, part, message, fields })

/-- A computation without notes. -/
def ofExcept {ε α : Type} (x : Except ε α) : Traced ε α := ExceptT.mk (pure x)

/-- A computation that cannot fail. -/
def ofLogged {ε α : Type} (x : Logged α) : Traced ε α := ExceptT.lift x

/-- Rename the failure. -/
def mapError {ε ε' α : Type} (f : ε → ε') (x : Traced ε α) : Traced ε' α :=
  ExceptT.mk { value := x.outcome.mapError f, notes := x.notes }

@[simp] theorem outcome_pure {ε α : Type} (a : α) : outcome (pure a : Traced ε α) = .ok a := rfl

@[simp] theorem notes_pure {ε α : Type} (a : α) : notes (pure a : Traced ε α) = [] := rfl

@[simp] theorem outcome_throw {ε α : Type} (e : ε) :
    outcome (throw e : Traced ε α) = .error e := rfl

@[simp] theorem notes_throw {ε α : Type} (e : ε) : notes (throw e : Traced ε α) = [] := rfl

@[simp] theorem outcome_note {ε : Type} (s : Severity) (p : Part) (m : Text)
    (f : List (String × FieldValue)) : outcome (note s p m f : Traced ε Unit) = .ok () := rfl

@[simp] theorem notes_note {ε : Type} (s : Severity) (p : Part) (m : Text)
    (f : List (String × FieldValue)) :
    notes (note s p m f : Traced ε Unit) = [{ severity := s, part := p, message := m, fields := f }] :=
  rfl

@[simp] theorem outcome_ofExcept {ε α : Type} (x : Except ε α) : outcome (ofExcept x) = x := rfl

@[simp] theorem notes_ofExcept {ε α : Type} (x : Except ε α) : notes (ofExcept x) = [] := rfl

@[simp] theorem outcome_ofLogged {ε α : Type} (x : Logged α) :
    outcome (ofLogged x : Traced ε α) = .ok x.value := rfl

@[simp] theorem notes_ofLogged {ε α : Type} (x : Logged α) :
    notes (ofLogged x : Traced ε α) = x.notes := by
  simp [notes, ofLogged, ExceptT.lift, ExceptT.run, ExceptT.mk, Functor.map, Logged.bind,
    Logged.pure]

@[simp] theorem outcome_mapError {ε ε' α : Type} (f : ε → ε') (x : Traced ε α) :
    outcome (mapError f x) = x.outcome.mapError f := rfl

@[simp] theorem notes_mapError {ε ε' α : Type} (f : ε → ε') (x : Traced ε α) :
    notes (mapError f x) = x.notes := rfl

@[simp] theorem outcome_map {ε α β : Type} (f : α → β) (x : Traced ε α) :
    outcome (f <$> x) = x.outcome.map f := by
  simp only [outcome, Functor.map, ExceptT.map, ExceptT.run, ExceptT.mk, Bind.bind, Logged.bind]
  split <;> simp_all [Except.map, Pure.pure, Logged.pure]

@[simp] theorem notes_map {ε α β : Type} (f : α → β) (x : Traced ε α) :
    notes (f <$> x) = x.notes := by
  simp only [notes, Functor.map, ExceptT.map, ExceptT.run, ExceptT.mk, Bind.bind, Logged.bind]
  split <;> simp [Pure.pure, Logged.pure]

theorem outcome_bind {ε α β : Type} (x : Traced ε α) (f : α → Traced ε β) :
    outcome (x >>= f) = match outcome x with
      | .ok a => outcome (f a)
      | .error e => .error e := by
  simp only [outcome, Bind.bind, ExceptT.bind, ExceptT.run, ExceptT.mk, Logged.bind]
  unfold ExceptT.bindCont
  split <;> simp_all [Pure.pure, Logged.pure]

theorem notes_bind {ε α β : Type} (x : Traced ε α) (f : α → Traced ε β) :
    notes (x >>= f) = notes x ++ match outcome x with
      | .ok a => notes (f a)
      | .error _ => [] := by
  simp only [outcome, notes, Bind.bind, ExceptT.bind, ExceptT.run, ExceptT.mk, Logged.bind]
  unfold ExceptT.bindCont
  split <;> simp_all [Pure.pure, Logged.pure]

end Traced

end PaperVenue
