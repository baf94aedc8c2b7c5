import PaperVenue.Exchange.Operation

/-!
# Sessions

A session is a run of steps on one exchange, between which the environment and the files may change
and the exchange may be replaced by a fresh one.  Time is the number of the step, and every step
takes its time, also one that only waits: the moments that orders carry do not depend on what the
other steps were.
-/

namespace PaperVenue

/-- A change of what surrounds the exchanges. -/
inductive Change where
  | setVariable (key value : String)
  | unsetVariable (key : String)
  | writeFile (name : String) (octets : List UInt8)
  | removeFile (name : String)

namespace Surroundings

/-- Why a variable cannot be set. -/
def variableFault? (key value : String) : Option ValueFault :=
  if key.toList.contains '\x00' || value.toList.contains '\x00' then some .embeddedNul
  else if key.toList.contains '=' then some .variableName
  else if key = "" then some .emptyVariableName
  else none

/-- Make a change. -/
def change (around : Surroundings) : Change → Surroundings × Except Failure Unit
  | .setVariable key value => match variableFault? key value with
    | some fault => (around, .error (.value fault))
    | none => ({ around with environment := Table.put around.environment key value }, .ok ())
  | .unsetVariable key => ({ around with environment := Table.erase around.environment key }, .ok ())
  | .writeFile name octets => ({ around with files := around.files.store name (.file octets) }, .ok ())
  | .removeFile name => ({ around with files := around.files.remove name }, .ok ())

/-- Let one step of time pass. -/
def tick (around : Surroundings) : Surroundings := { around with now := around.now + 1 }

end Surroundings

namespace Session

/-- One step of a session. -/
inductive Step where
  | wait
  | change (c : Change)
  | renew (settings : Option Settings)
  | perform (op : Operation)

end Session

/-- A session: the exchange, and what surrounds it. -/
structure Session where
  around : Surroundings := {}
  exchange : Exchange := {}

namespace Session

/-- Take a step that has its time already. -/
def act (s : Session) : Step → Session × Traced Failure Answer
  | .wait => (s, pure .nothing)
  | .change c =>
    let (around, done) := s.around.change c
    ({ s with around }, (fun _ => Answer.nothing) <$> Traced.ofExcept done)
  | .renew settings => ({ s with exchange := { settings } }, pure .nothing)
  | .perform op =>
    let (exchange, answer) := s.exchange.perform s.around op
    ({ s with exchange }, answer)

/-- Take a step: time passes, and then the step is taken. -/
def step (s : Session) (t : Step) : Session × Traced Failure Answer :=
  { s with around := s.around.tick }.act t

/-- Take steps, each from where the one before it ended. -/
def run : Session → List Step → Session × List (Traced Failure Answer)
  | s, [] => (s, [])
  | s, t :: ts =>
    let (s, a) := s.step t
    let (s, as) := run s ts
    (s, a :: as)

end Session

end PaperVenue
