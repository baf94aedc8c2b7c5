import PaperVenue.Journal

/-!
# The stream

The stream opens no connection.  Connecting only marks it as connected and fires the callbacks that
wait for that, first those on `connect` and then those on `start`; closing marks it as disconnected
and fires those on `disconnect`.

A callback is data: a label, and what it does when it is called.  It may register another callback,
and since the callbacks of an event are fired by place, one that is appended to the event being
fired has its turn in the same firing.  It may also connect or close the stream from inside.

What remains to be done is therefore kept as an agenda.  A `Task` is an event with the place of the
callback that is next; `Run.step` takes the first task one callback further, and a callback that
connects puts its two events in front of the agenda.  A callback that raises ends the run with all
that was registered so far kept.  A run ends when its agenda is empty.

It need not end.  Callbacks that connect and close may do so inside each other for ever, and the
agenda grows; or they may register, in each firing that they start, what starts the next one, and
the agenda stays short.  So there are two limits, `maxAgenda` on the agenda and `fuel` on the steps.
A run that meets one of them stops with something left on its agenda: it is `unfinished`, which is
no way of ending.  Neither limit is met by callbacks that do not connect or close.  For these
`weight` steps are enough, and two more, because each step uses up a callback and registers only
what is nested in it.
-/

namespace PaperVenue

/-- Is the stream connected? -/
inductive ConnectionState where
  | disconnected | connected
  deriving DecidableEq

namespace ConnectionState

/-- Every state, in order of declaration. -/
def all : List ConnectionState := [disconnected, connected]

/-- The text of a state. -/
def text : ConnectionState → String
  | disconnected => "DISCONNECTED"
  | connected => "CONNECTED"

end ConnectionState

/-- What callbacks can wait for. -/
inductive StreamEvent where
  | connect | start | disconnect
  deriving DecidableEq

mutual

/-- What a callback does after it was called. -/
inductive CallbackAction where
  | record
  | raise
  | register (event : StreamEvent) (callback : Callback)
  | connect
  | close

/-- A callback. -/
inductive Callback where
  | mk (label : String) (action : CallbackAction)

end

namespace Callback

/-- The label of a callback. -/
def label : Callback → String
  | mk label _ => label

/-- What a callback does. -/
def action : Callback → CallbackAction
  | mk _ action => action

end Callback

mutual

/-- How many callbacks a callback holds, itself counted. -/
def Callback.weight : Callback → Nat
  | .mk _ action => action.weight + 1

/-- How many callbacks an action holds. -/
def CallbackAction.weight : CallbackAction → Nat
  | .register _ callback => callback.weight
  | .record => 0
  | .raise => 0
  | .connect => 0
  | .close => 0

end

/-- A stream: its state, and the callbacks in order of registration. -/
structure Stream where
  state : ConnectionState := .disconnected
  onConnect : Array Callback := #[]
  onStart : Array Callback := #[]
  onDisconnect : Array Callback := #[]

namespace Stream

/-- Is the stream connected? -/
def isConnected (s : Stream) : Bool := s.state = .connected

/-- The callbacks that wait for an event. -/
def callbacks (s : Stream) : StreamEvent → Array Callback
  | .connect => s.onConnect
  | .start => s.onStart
  | .disconnect => s.onDisconnect

/-- Register a callback. -/
def register (s : Stream) (event : StreamEvent) (callback : Callback) : Stream :=
  match event with
  | .connect => { s with onConnect := s.onConnect.push callback }
  | .start => { s with onStart := s.onStart.push callback }
  | .disconnect => { s with onDisconnect := s.onDisconnect.push callback }

/-- An event that is being fired, and the place of the callback that is next. -/
structure Task where
  event : StreamEvent
  place : Nat

/-- A firing under way: the stream, the agenda, the labels of the callbacks called, the notes, and
the label of the callback that raised. -/
structure Run where
  stream : Stream
  agenda : List Task := []
  fired : Array String := #[]
  notes : Array Note := #[]
  raised : Option String := none

/-- How a firing stands. -/
inductive Ending where
  | finished
  | raised (label : String)
  | unfinished
  deriving DecidableEq

/-- A note of the stream. -/
def streamNote (message : String) : Note :=
  { severity := .info, part := .stream, message := Text.ofString message }

namespace Run

/-- Mark the stream as connected; both events come before what is still to be done. -/
def connect (r : Run) : Run :=
  { r with
    stream := { r.stream with state := .connected }
    agenda := ⟨.connect, 0⟩ :: ⟨.start, 0⟩ :: r.agenda
    notes := r.notes.push (streamNote "Polymarket stream connected (no-op)") }

/-- Mark the stream as disconnected; its event comes before what is still to be done. -/
def close (r : Run) : Run :=
  { r with
    stream := { r.stream with state := .disconnected }
    agenda := ⟨.disconnect, 0⟩ :: r.agenda
    notes := r.notes.push (streamNote "Polymarket stream closed") }

/-- Call a callback. -/
def call (r : Run) (c : Callback) : Run :=
  let r := { r with fired := r.fired.push c.label }
  match c.action with
  | .record => r
  | .raise => { r with agenda := [], raised := some c.label }
  | .register event callback => { r with stream := r.stream.register event callback }
  | .connect => r.connect
  | .close => r.close

/-- Take the first task one callback further; a task without a next callback is done. -/
def step (r : Run) : Run :=
  match r.agenda with
  | [] => r
  | t :: rest => match (r.stream.callbacks t.event)[t.place]? with
    | none => { r with agenda := rest }
    | some c => { r with agenda := ⟨t.event, t.place + 1⟩ :: rest }.call c

/-- The longest agenda that a run goes on with.  Each firing from inside nests one deeper, so this
is also where a host that limits nested calls gives up with a failure of its own; a run that it ends
in that way is `unfinished` here. -/
def maxAgenda : Nat := 1000

/-- Is there nothing left to do, or too much? -/
def isOver (r : Run) : Bool := r.agenda.isEmpty || maxAgenda < r.agenda.length

/-- Take a number of steps, fewer if the run is over before. -/
def steps : Nat → Run → Run
  | 0, r => r
  | n + 1, r => if r.isOver then r else steps n r.step

/-- How a run stands when no more steps are taken. -/
def ending (r : Run) : Ending :=
  match r.raised with
  | some label => .raised label
  | none => if r.agenda.isEmpty then .finished else .unfinished

end Run

/-- How many callbacks a stream holds, nested ones counted. -/
def weight (s : Stream) : Nat :=
  (s.onConnect ++ s.onStart ++ s.onDisconnect).foldl (fun n c => n + c.weight) 0

/-- Steps that a run may take beyond those that its callbacks need if none connects or closes: more
than anybody waits for, so that a run which ends is not cut short.  A run that takes them all has
not ended; it counts as `unfinished`, like one whose agenda became too long. -/
def reentrySteps : Nat := 1000000000

/-- How many steps a run may take. -/
def fuel (s : Stream) : Nat := s.weight + 2 + reentrySteps

/-- Connect the stream. -/
def connect (s : Stream) : Run := (Run.connect { stream := s }).steps s.fuel

/-- Close the stream. -/
def close (s : Stream) : Run := (Run.close { stream := s }).steps s.fuel

end Stream

end PaperVenue
