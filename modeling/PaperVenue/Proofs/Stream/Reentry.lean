import Mathlib.Data.List.Induction
import Mathlib.Logic.Relation
import PaperVenue.Proofs.Stream.Firing

/-!
# Connecting and closing from inside

A callback may itself connect or close the stream that calls it.  `Run.calls` lists the calls of a
run, each with the state in which it is made, and that state can be told from the calls before it:
it is what the last of them that connected or closed has left (`Run.state_of_calls`).

That a connection leaves the stream connected, and fires `start` only while the stream is, is what
`StaysConnected` says.  It is not so if a callback closes the stream: the connection goes on with
the callbacks that are left, those on `start` included, and nothing marks the stream as connected
again.  `staysConnected_iff` says exactly when it is so.

That no callback could make up for another one that closes, by connecting, takes a proof.  When a
callback connects, then what is fired comes round to the same callback: at once if it waits for
`connect` or `start`; and if it waits for `disconnect`, then by way of one that closes, because
something has closed the stream.  A callback that comes round to itself is never left behind
(`Run.isDoomed_step`), unless one raises.  So a connection from inside never returns
(`Run.not_returns_of_connects`), and it is enough to look at the outer one.
-/

namespace PaperVenue

theorem ConnectionState.eq_connected_iff {state : ConnectionState} :
    state = .connected ↔ state ≠ .disconnected := by
  cases state <;> simp

namespace Callback

/-- Does the callback connect the stream? -/
def connects (c : Callback) : Bool :=
  match c.action with
  | .connect => true
  | _ => false

/-- Does the callback close the stream? -/
def closes (c : Callback) : Bool :=
  match c.action with
  | .close => true
  | _ => false

/-- The events that the callback fires from inside. -/
def fires (c : Callback) : List StreamEvent :=
  match c.action with
  | .connect => [.connect, .start]
  | .close => [.disconnect]
  | _ => []

/-- The state in which the callback leaves a stream. -/
def leaves (c : Callback) (state : ConnectionState) : ConnectionState :=
  match c.action with
  | .connect => .connected
  | .close => .disconnected
  | _ => state

theorem mem_fires_of_connects {c : Callback} (h : c.connects) {event : StreamEvent}
    (hevent : event ≠ .disconnect) : event ∈ c.fires := by
  obtain ⟨label, action⟩ := c
  cases action with
  | connect => cases event <;> simp_all [fires, action]
  | _ => exact Bool.noConfusion h

theorem mem_fires_of_closes {c : Callback} (h : c.closes) : .disconnect ∈ c.fires := by
  obtain ⟨label, action⟩ := c
  cases action with
  | close => exact List.mem_singleton_self _
  | _ => exact Bool.noConfusion h

theorem closes_of_mem_fires {c : Callback} (h : .disconnect ∈ c.fires) : c.closes := by
  obtain ⟨label, action⟩ := c
  cases action with
  | close => rfl
  | _ => simp [fires, action] at h

/-- A callback leaves a stream disconnected if it closes it, or finds it so and does not connect
it. -/
theorem leaves_eq_disconnected_iff {c : Callback} {state : ConnectionState} :
    c.leaves state = .disconnected ↔
      c.closes = true ∨ state = .disconnected ∧ c.connects = false := by
  obtain ⟨label, action⟩ := c
  cases action <;> simp [leaves, closes, connects, action]

end Callback

namespace Stream

/-! ## Calls -/

/-- A call: the event for which it is made, the state of the stream at that moment, and the callback
that is called. -/
structure Call where
  event : StreamEvent
  state : ConnectionState
  callback : Callback

/-- The state of a stream after calls. -/
def stateAfter (state : ConnectionState) (calls : List Call) : ConnectionState :=
  calls.foldl (fun state call => call.callback.leaves state) state

/-- A callback has closed the stream, and none after it has connected it again. -/
def LeftClosed (calls : List Call) : Prop :=
  ∃ before call after, calls = before ++ call :: after ∧ call.callback.closes = true ∧
    ∀ later ∈ after, later.callback.connects = false

theorem not_leftClosed_nil : ¬ LeftClosed [] := by
  rintro ⟨before, call, after, hcalls, -⟩
  exact absurd hcalls (by simp)

/-- One call more. -/
theorem leftClosed_concat {calls : List Call} {call : Call} :
    LeftClosed (calls ++ [call]) ↔
      call.callback.closes = true ∨ LeftClosed calls ∧ call.callback.connects = false := by
  constructor
  · rintro ⟨before, closing, after, hcalls, hcloses, hafter⟩
    rcases List.eq_nil_or_concat after with rfl | ⟨after, last, rfl⟩
    · obtain ⟨-, hsame⟩ := List.append_inj' hcalls rfl
      obtain rfl := List.singleton_inj.1 hsame
      exact Or.inl hcloses
    · rw [List.concat_eq_append] at hcalls hafter
      rw [← List.cons_append, ← List.append_assoc] at hcalls
      obtain ⟨rfl, hsame⟩ := List.append_inj' hcalls rfl
      obtain rfl := List.singleton_inj.1 hsame
      rw [List.forall_mem_append, List.forall_mem_singleton] at hafter
      exact Or.inr ⟨⟨before, closing, after, rfl, hcloses, hafter.1⟩, hafter.2⟩
  · rintro (hcloses | ⟨⟨before, closing, after, rfl, hcloses, hafter⟩, hconnects⟩)
    · exact ⟨calls, call, [], rfl, hcloses, fun later h => absurd h List.not_mem_nil⟩
    · refine ⟨before, closing, after ++ [call], by simp, hcloses, ?_⟩
      rw [List.forall_mem_append, List.forall_mem_singleton]
      exact ⟨hafter, hconnects⟩

/-- **Calls leave a connected stream disconnected** exactly if one of them closes it and none after
that one connects it. -/
theorem stateAfter_eq_disconnected_iff {calls : List Call} :
    stateAfter .connected calls = .disconnected ↔ LeftClosed calls := by
  induction calls using List.reverseRecOn with
  | nil => simp [stateAfter, not_leftClosed_nil]
  | append_singleton calls call ih =>
    rw [leftClosed_concat, ← ih, stateAfter, List.foldl_append]
    exact Callback.leaves_eq_disconnected_iff

theorem leftClosed_iff_of_forall {calls : List Call}
    (h : ∀ call ∈ calls, call.callback.connects = false) :
    LeftClosed calls ↔ ∃ call ∈ calls, call.callback.closes = true := by
  constructor
  · rintro ⟨before, call, after, rfl, hcloses, -⟩
    exact ⟨call, List.mem_append_right _ List.mem_cons_self, hcloses⟩
  · rintro ⟨call, hcall, hcloses⟩
    obtain ⟨before, after, rfl⟩ := List.append_of_mem hcall
    refine ⟨before, call, after, rfl, hcloses, fun later hlater => h later ?_⟩
    exact List.mem_append_right _ (List.mem_cons_of_mem _ hlater)

namespace Run

variable {r : Run}

/-- The call that the next step makes, if it makes one. -/
def next? (r : Run) : Option Call :=
  match r.agenda with
  | [] => none
  | t :: _ => (r.stream.waiting t.event)[t.place]?.map (Call.mk t.event r.stream.state)

/-- The calls that are made in a number of steps. -/
def calls : Nat → Run → List Call
  | 0, _ => []
  | n + 1, r => if r.isOver then [] else r.next?.toList ++ r.step.calls n

/-! ## What a call does -/

theorem state_call (r : Run) (c : Callback) :
    (r.call c).stream.state = c.leaves r.stream.state := by
  obtain ⟨label, action⟩ := c
  cases action with
  | register event c => exact r.stream.state_register event c
  | _ => rfl

theorem fired_call (r : Run) (c : Callback) : (r.call c).fired = r.fired.push c.label := by
  obtain ⟨label, action⟩ := c
  cases action <;> rfl

theorem waiting_kept_call (r : Run) (c : Callback) (event : StreamEvent) :
    r.stream.waiting event <+: (r.call c).stream.waiting event := by
  obtain ⟨label, action⟩ := c
  cases action with
  | register event' c =>
    exact r.stream.waiting_kept_afterCall (.mk label (.register event' c)) event
  | connect => cases event <;> exact List.prefix_rfl
  | close => cases event <;> exact List.prefix_rfl
  | _ => exact List.prefix_rfl

/-- A call puts what the callback fires in front of the agenda, unless it raises. -/
theorem agenda_call (r : Run) (c : Callback) :
    (r.call c).agenda = c.fires.map (Task.mk · 0) ++ r.agenda ∨
      (r.call c).agenda = [] ∧ (r.call c).raised.isSome := by
  obtain ⟨label, action⟩ := c
  cases action with
  | raise => exact Or.inr ⟨rfl, rfl⟩
  | _ => exact Or.inl rfl

theorem isSome_raised_call (h : r.raised.isSome) (c : Callback) : (r.call c).raised.isSome := by
  obtain ⟨label, action⟩ := c
  cases action with
  | raise => rfl
  | _ => exact h

/-! ## What a step does -/

/-- How a step goes on with a run.  Either nothing is left to call for the first task, and that one
goes, or its next callback is called. -/
inductive Goes (r : Run) : Prop where
  | idle (next : r.next? = none) (eq : r.step = { r with agenda := r.agenda.tail })
      (done : ∀ t rest, r.agenda = t :: rest → (r.stream.waiting t.event).drop t.place = [])
  | call (t : Task) (rest : List Task) (c : Callback)
      (next : r.next? = some ⟨t.event, r.stream.state, c⟩) (agenda_eq : r.agenda = t :: rest)
      (waits : (r.stream.waiting t.event)[t.place]? = some c)
      (eq : r.step = { r with agenda := ⟨t.event, t.place + 1⟩ :: rest }.call c)

theorem goes (r : Run) : r.Goes := by
  cases hr : r.agenda with
  | nil =>
    have hnext : r.next? = none := by rw [next?, hr]
    have hstep : r.step = { r with agenda := r.agenda.tail } := by
      rw [step, hr]
      dsimp only
      rw [List.tail_nil, ← hr]
    refine .idle hnext hstep fun t rest hagenda => ?_
    exact absurd (hr.symm.trans hagenda) (by simp)
  | cons t rest =>
    cases hc : (r.stream.waiting t.event)[t.place]? with
    | none =>
      have hnext : r.next? = none := by simp only [next?, hr, hc, Option.map_none]
      have hstep : r.step = { r with agenda := r.agenda.tail } := by
        rw [step_of_none hr hc, hr, List.tail_cons]
      refine .idle hnext hstep fun t' rest' hagenda => ?_
      obtain ⟨rfl, -⟩ := List.cons.inj (hr.symm.trans hagenda)
      exact List.drop_eq_nil_of_le (List.getElem?_eq_none_iff.1 hc)
    | some c =>
      have hnext : r.next? = some ⟨t.event, r.stream.state, c⟩ := by
        simp only [next?, hr, hc, Option.map_some]
      exact .call t rest c hnext hr hc (step_of_some hr hc)

theorem state_step (r : Run) :
    r.step.stream.state = stateAfter r.stream.state r.next?.toList := by
  cases r.goes with
  | idle next eq _ =>
    rw [eq, next]
    rfl
  | call t rest c next _ _ eq =>
    rw [eq, next, state_call]
    rfl

theorem fired_step (r : Run) :
    r.step.fired.toList = r.fired.toList ++ r.next?.toList.map (·.callback.label) := by
  cases r.goes with
  | idle next eq _ =>
    rw [eq, next]
    exact (List.append_nil _).symm
  | call t rest c next _ _ eq =>
    rw [eq, next, fired_call, Array.toList_push]
    rfl

theorem waiting_kept_step (r : Run) (event : StreamEvent) :
    r.stream.waiting event <+: r.step.stream.waiting event := by
  cases r.goes with
  | idle _ eq _ =>
    exact ⟨[], by rw [List.append_nil, eq]⟩
  | call t rest c _ _ _ eq =>
    rw [eq]
    exact waiting_kept_call { r with agenda := ⟨t.event, t.place + 1⟩ :: rest } c event

theorem isSome_raised_step (h : r.raised.isSome) : r.step.raised.isSome := by
  cases r.goes with
  | idle _ eq _ =>
    rw [eq]
    exact h
  | call t rest c _ _ _ eq =>
    rw [eq]
    exact isSome_raised_call (r := { r with agenda := ⟨t.event, t.place + 1⟩ :: rest }) h c

/-! ## What a run does -/

/-- The labels that a run notes are those of its calls. -/
theorem fired_steps (n : Nat) (r : Run) :
    (r.steps n).fired.toList = r.fired.toList ++ (r.calls n).map (·.callback.label) := by
  induction n generalizing r with
  | zero => exact (List.append_nil _).symm
  | succ n ih =>
    rw [steps, calls]
    split
    · exact (List.append_nil _).symm
    · rw [ih, fired_step, List.map_append, List.append_assoc]

theorem state_steps (n : Nat) (r : Run) :
    (r.steps n).stream.state = stateAfter r.stream.state (r.calls n) := by
  induction n generalizing r with
  | zero => rfl
  | succ n ih =>
    rw [steps, calls]
    split
    · rfl
    · rw [ih, state_step, stateAfter, stateAfter, stateAfter, List.foldl_append]

/-- **The state in which a call is made** is the one that the calls before it have left. -/
theorem state_of_calls {n : Nat} {before after : List Call} {call : Call}
    (h : r.calls n = before ++ call :: after) :
    call.state = stateAfter r.stream.state before := by
  induction n generalizing r before with
  | zero => exact absurd h (by simp [calls])
  | succ n ih =>
    rw [calls] at h
    split at h
    · exact absurd h (by simp)
    · have hstate := r.state_step
      cases r.goes with
      | idle next _ _ =>
        rw [next] at h hstate
        rw [ih h, hstate]
        rfl
      | call t rest c next _ _ _ =>
        rw [next] at h hstate
        cases before with
        | nil =>
          obtain ⟨rfl, -⟩ := List.cons.inj h
          rfl
        | cons b before =>
          obtain ⟨rfl, hrest⟩ := List.cons.inj h
          rw [ih hrest, hstate]
          rfl

end Run

/-! ## Callbacks that come round to themselves -/

/-- To call the first callback for its event has the second one called for its own, since that waits
for an event that is fired. -/
def Leads (s : Stream) (x y : StreamEvent × Callback) : Prop :=
  y.1 ∈ x.2.fires ∧ y.2 ∈ s.waiting y.1

/-- To call the callback for the event comes round to the same call. -/
def ComesRound (s : Stream) (x : StreamEvent × Callback) : Prop := Relation.TransGen s.Leads x x

/-- What comes round does so when more callbacks wait. -/
theorem ComesRound.of_kept {s s' : Stream} (hkept : ∀ event, s.waiting event <+: s'.waiting event)
    {x : StreamEvent × Callback} (h : s.ComesRound x) : s'.ComesRound x := by
  have hle : s.Leads ≤ s'.Leads := fun _ y hxy => ⟨hxy.1, (hkept y.1).subset hxy.2⟩
  exact Relation.TransGen.mono hle x x h

/-- What comes round leads to something that comes round. -/
theorem ComesRound.exists_leads {s : Stream} {x : StreamEvent × Callback} (h : s.ComesRound x) :
    ∃ y, s.Leads x y ∧ s.ComesRound y := by
  obtain ⟨y, hxy, hyx⟩ := Relation.TransGen.head'_iff.1 h
  exact ⟨y, hxy, Relation.TransGen.tail' hyx hxy⟩

/-- What is left to call stays so when more callbacks wait. -/
theorem mem_drop_of_prefix {cs cs' : List Callback} (h : cs <+: cs') {place : Nat} {c : Callback}
    (hc : c ∈ cs.drop place) : c ∈ cs'.drop place := by
  obtain ⟨more, rfl⟩ := h
  rw [List.drop_append]
  exact List.mem_append_left _ hc

namespace Run

variable {r : Run}

/-- Above the last tasks of the agenda a callback is left to call that comes round to itself. -/
def IsDoomed (r : Run) (below : List Task) : Prop :=
  ∃ above, r.agenda = above ++ below ∧
    ∃ t ∈ above, ∃ c ∈ (r.stream.waiting t.event).drop t.place, r.stream.ComesRound (t.event, c)

theorem IsDoomed.of_append {below below' : List Task} (h : r.IsDoomed (below' ++ below)) :
    r.IsDoomed below := by
  obtain ⟨above, hagenda, t, ht, hleft⟩ := h
  exact ⟨above ++ below', by rw [hagenda, List.append_assoc], t, List.mem_append_left _ ht, hleft⟩

/-- If a callback that comes round is called, the next one on its way is put on top of the
agenda. -/
theorem isDoomed_of_call {t : Task} {rest : List Task} {c : Callback}
    (hround : r.stream.ComesRound (t.event, c))
    (hstep : r.step = { r with agenda := ⟨t.event, t.place + 1⟩ :: rest }.call c) :
    r.step.IsDoomed (⟨t.event, t.place + 1⟩ :: rest) ∨ r.step.raised.isSome := by
  have hkept := r.waiting_kept_step
  rcases agenda_call { r with agenda := ⟨t.event, t.place + 1⟩ :: rest } c with
    hagenda | ⟨-, hraised⟩
  · rw [← hstep] at hagenda
    obtain ⟨y, ⟨hfires, hwaits⟩, hy⟩ := hround.exists_leads
    have htask : (⟨y.1, 0⟩ : Task) ∈ c.fires.map (Task.mk · 0) := List.mem_map_of_mem hfires
    exact Or.inl ⟨_, hagenda, _, htask, y.2, (hkept y.1).subset hwaits, hy.of_kept hkept⟩
  · rw [← hstep] at hraised
    exact Or.inr hraised

/-- **A callback that comes round is never left behind**, unless one raises: when it is its turn,
the next one on its way takes its place. -/
theorem isDoomed_step {below : List Task} (h : r.IsDoomed below) :
    r.step.IsDoomed below ∨ r.step.raised.isSome := by
  obtain ⟨above, habove, t, ht, c, hc, hround⟩ := h
  have hkept := r.waiting_kept_step
  have hround' := hround.of_kept hkept
  cases above with
  | nil => exact absurd ht List.not_mem_nil
  | cons t₀ above =>
    cases r.goes with
    | idle _ eq done =>
      rcases List.mem_cons.1 ht with rfl | ht
      · rw [done t _ habove] at hc
        exact absurd hc List.not_mem_nil
      · have hagenda : r.step.agenda = above ++ below := by
          rw [eq, habove]
          rfl
        exact Or.inl ⟨above, hagenda, t, ht, c, mem_drop_of_prefix (hkept t.event) hc, hround'⟩
    | call t₁ rest c₀ _ agenda_eq waits eq =>
      obtain ⟨rfl, hrest⟩ := List.cons.inj (agenda_eq.symm.trans habove)
      replace hrest : rest = above ++ below := hrest
      subst hrest
      by_cases hnow : t = t₁ ∧ c = c₀
      · obtain ⟨rfl, rfl⟩ := hnow
        refine (isDoomed_of_call hround eq).imp_left fun hdoomed => ?_
        rw [← List.cons_append] at hdoomed
        exact hdoomed.of_append
      -- it is called later, for this task or for another one
      have hlater : ∃ t' ∈ ⟨t₁.event, t₁.place + 1⟩ :: above, t'.event = t.event ∧
          c ∈ (r.stream.waiting t'.event).drop t'.place := by
        rcases List.mem_cons.1 ht with rfl | ht
        · obtain ⟨hplace, rfl⟩ := List.getElem?_eq_some_iff.1 waits
          rw [List.drop_eq_getElem_cons hplace] at hc
          have hrest := (List.mem_cons.1 hc).resolve_left fun heq => hnow ⟨rfl, heq⟩
          exact ⟨_, List.mem_cons_self, rfl, hrest⟩
        · exact ⟨t, List.mem_cons_of_mem _ ht, rfl, hc⟩
      obtain ⟨t', ht', hevent, hc'⟩ := hlater
      rw [← hevent] at hround'
      rcases agenda_call { r with agenda := ⟨t₁.event, t₁.place + 1⟩ :: (above ++ below) } c₀ with
        hagenda | ⟨-, hraised⟩
      · rw [← eq, ← List.cons_append, ← List.append_assoc] at hagenda
        exact Or.inl ⟨_, hagenda, t', List.mem_append_right _ ht', c,
          mem_drop_of_prefix (hkept t'.event) hc', hround'⟩
      · rw [← eq] at hraised
        exact Or.inr hraised

theorem isDoomed_steps {below : List Task} (h : r.IsDoomed below ∨ r.raised.isSome) (n : Nat) :
    (r.steps n).IsDoomed below ∨ (r.steps n).raised.isSome := by
  refine steps_invariant (p := fun r => r.IsDoomed below ∨ r.raised.isSome) ?_ n h
  rintro r (hdoomed | hraised)
  · exact isDoomed_step hdoomed
  · exact Or.inr (isSome_raised_step hraised)

/-- A run with something left has not finished. -/
theorem not_finished_of_left {below : List Task}
    (h : r.raised.isSome ∨ ∃ above ≠ [], r.agenda = above ++ below) : r.ending ≠ .finished := by
  intro hfinished
  rw [ending] at hfinished
  rcases h with hraised | ⟨above, habove, hagenda⟩
  · obtain ⟨label, hlabel⟩ := Option.isSome_iff_exists.1 hraised
    rw [hlabel] at hfinished
    exact Ending.noConfusion hfinished
  · split at hfinished
    · exact Ending.noConfusion hfinished
    · have hsome : ¬ r.agenda.isEmpty := by simp [hagenda, habove]
      rw [if_neg hsome] at hfinished
      exact Ending.noConfusion hfinished

/-- If `disconnect` is being fired, then a callback on one of the other events closes. -/
def ClosedByCallback (r : Run) : Prop :=
  ∀ t ∈ r.agenda, t.event = .disconnect →
    ∃ event ≠ .disconnect, ∃ c ∈ r.stream.waiting event, c.closes

theorem closedByCallback_step (h : r.ClosedByCallback) : r.step.ClosedByCallback := by
  have hmore : (∃ event ≠ .disconnect, ∃ c ∈ r.stream.waiting event, c.closes) →
      ∃ event ≠ .disconnect, ∃ c ∈ r.step.stream.waiting event, c.closes := by
    rintro ⟨event, hevent, c, hc, hcloses⟩
    exact ⟨event, hevent, c, (r.waiting_kept_step event).subset hc, hcloses⟩
  intro t ht hdisconnect
  apply hmore
  cases r.goes with
  | idle _ eq _ =>
    rw [eq] at ht
    exact h t (List.mem_of_mem_tail ht) hdisconnect
  | call t₀ rest c _ agenda_eq waits eq =>
    have hfirst : t₀.event = .disconnect →
        ∃ event ≠ .disconnect, ∃ c ∈ r.stream.waiting event, c.closes :=
      h t₀ (by rw [agenda_eq]; exact List.mem_cons_self)
    rw [eq] at ht
    rcases agenda_call { r with agenda := ⟨t₀.event, t₀.place + 1⟩ :: rest } c with
      hagenda | ⟨hagenda, -⟩
    · rw [hagenda, List.mem_append, List.mem_map, List.mem_cons] at ht
      rcases ht with ⟨event, hfires, rfl⟩ | rfl | ht
      · -- the callback has closed the stream: it waits for one of the other events, or for this one
        obtain rfl : event = .disconnect := hdisconnect
        by_cases hsame : t₀.event = .disconnect
        · exact hfirst hsame
        · have hcloses := Callback.closes_of_mem_fires hfires
          exact ⟨t₀.event, hsame, c, List.mem_of_getElem? waits, hcloses⟩
      · exact hfirst hdisconnect
      · refine h t ?_ hdisconnect
        rw [agenda_eq]
        exact List.mem_cons_of_mem _ ht
    · rw [hagenda] at ht
      exact absurd ht List.not_mem_nil

/-- A callback that connects comes round to itself. -/
theorem comesRound_of_connects (h : r.ClosedByCallback) {t : Task} {c : Callback}
    (ht : t ∈ r.agenda) (hc : c ∈ r.stream.waiting t.event) (hconnects : c.connects) :
    r.stream.ComesRound (t.event, c) := by
  by_cases hevent : t.event = .disconnect
  · -- by way of a callback that has closed the stream
    obtain ⟨event, hother, d, hd, hcloses⟩ := h t ht hevent
    refine .tail (.single (b := (event, d)) ?_) ⟨?_, hc⟩
    · exact ⟨Callback.mem_fires_of_connects hconnects hother, hd⟩
    · rw [hevent]
      exact Callback.mem_fires_of_closes hcloses
  · exact .single ⟨Callback.mem_fires_of_connects hconnects hevent, hc⟩

/-- **A connection from inside never returns**: as long as no callback raises, tasks are left above
those that were there before. -/
theorem not_returns_of_connects (h : r.ClosedByCallback) {call : Call}
    (hcall : r.next? = some call) (hconnects : call.callback.connects) :
    ∃ t rest, r.agenda = t :: rest ∧ ∀ n, (r.step.steps n).raised.isSome ∨
      ∃ above ≠ [], (r.step.steps n).agenda = above ++ ⟨t.event, t.place + 1⟩ :: rest := by
  cases r.goes with
  | idle next _ _ =>
    rw [next] at hcall
    cases hcall
  | call t rest c next agenda_eq waits eq =>
    rw [next] at hcall
    obtain rfl := Option.some.inj hcall
    have ht : t ∈ r.agenda := by
      rw [agenda_eq]
      exact List.mem_cons_self
    have hround := comesRound_of_connects h ht (List.mem_of_getElem? waits) hconnects
    refine ⟨t, rest, agenda_eq, fun n => ?_⟩
    rcases isDoomed_steps (isDoomed_of_call hround eq) n with ⟨above, hagenda, t', ht', -⟩ | hraised
    · exact Or.inr ⟨above, List.ne_nil_of_mem ht', hagenda⟩
    · exact Or.inl hraised

/-- **In a run that finishes no callback connects.** -/
theorem not_connects_of_finished {n : Nat} (h : r.ClosedByCallback)
    (hfinished : (r.steps n).ending = .finished) :
    ∀ call ∈ r.calls n, call.callback.connects = false := by
  induction n generalizing r with
  | zero => exact fun call hcall => absurd hcall List.not_mem_nil
  | succ n ih =>
    intro call hcall
    rw [steps] at hfinished
    rw [calls] at hcall
    split at hcall
    · exact absurd hcall List.not_mem_nil
    · rename_i hover
      rw [if_neg hover] at hfinished
      rcases List.mem_append.1 hcall with hnext | hcall
      · rw [← Bool.not_eq_true]
        intro hconnects
        obtain ⟨t, rest, -, hleft⟩ :=
          not_returns_of_connects h (Option.mem_toList.1 hnext) hconnects
        exact not_finished_of_left (hleft n) hfinished
      · exact ih (closedByCallback_step h) hfinished call hcall

end Run

/-! ## Connections -/

/-- The calls that a connection makes. -/
def connectCalls (s : Stream) : List Call := (Run.connect { stream := s }).calls s.fuel

/-- What a connection notes as fired are the labels of its calls. -/
theorem fired_connect (s : Stream) :
    s.connect.fired.toList = s.connectCalls.map (·.callback.label) := by
  rw [connect, Run.fired_steps]
  exact List.nil_append _

theorem state_connect (s : Stream) :
    s.connect.stream.state = stateAfter .connected s.connectCalls := by
  rw [connect, Run.state_steps]
  rfl

theorem state_of_connectCalls {s : Stream} {before after : List Call} {call : Call}
    (h : s.connectCalls = before ++ call :: after) : call.state = stateAfter .connected before :=
  Run.state_of_calls h

/-- In a connection that finishes no callback connects. -/
theorem not_connects_of_connect {s : Stream} (h : s.connect.ending = .finished) :
    ∀ call ∈ s.connectCalls, call.callback.connects = false := by
  refine Run.not_connects_of_finished (fun t ht hdisconnect => ?_) h
  -- a connection begins with `connect` and `start` on its agenda
  rcases List.mem_cons.1 ht with rfl | ht
  · exact StreamEvent.noConfusion hdisconnect
  · rw [List.mem_singleton.1 ht] at hdisconnect
    exact StreamEvent.noConfusion hdisconnect

/-- A connection that finishes leaves the stream connected if no callback that it calls closes
it. -/
theorem isConnected_connect_iff {s : Stream} (h : s.connect.ending = .finished) :
    s.connect.stream.isConnected ↔ ∀ call ∈ s.connectCalls, call.callback.closes = false := by
  rw [isConnected, decide_eq_true_eq, state_connect, ConnectionState.eq_connected_iff, ne_eq,
    stateAfter_eq_disconnected_iff, leftClosed_iff_of_forall (not_connects_of_connect h)]
  simp

/-- Callbacks on `start` are called on a connected stream if the calls before have not left it
closed. -/
theorem starts_connected_iff {s : Stream} :
    (∀ call ∈ s.connectCalls, call.event = .start → call.state = .connected) ↔
      ∀ before call after, s.connectCalls = before ++ call :: after →
        call.event = .start → ¬ LeftClosed before := by
  constructor
  · intro h before call after hcalls hevent hclosed
    have hmem : call ∈ s.connectCalls := by
      rw [hcalls]
      exact List.mem_append_right _ List.mem_cons_self
    have hstate := h call hmem hevent
    rw [state_of_connectCalls hcalls, stateAfter_eq_disconnected_iff.2 hclosed] at hstate
    exact ConnectionState.noConfusion hstate
  · intro h call hmem hevent
    obtain ⟨before, after, hcalls⟩ := List.append_of_mem hmem
    rw [state_of_connectCalls hcalls, ConnectionState.eq_connected_iff, ne_eq,
      stateAfter_eq_disconnected_iff]
    exact h before call after hcalls hevent

/-- A connection that ends keeps the stream connected.

* If it ends without an exception, then the stream is connected.
* Every callback on `start` is called while the stream is. -/
structure StaysConnected (s : Stream) : Prop where
  connected : s.connect.ending = .finished → s.connect.stream.isConnected
  starts : s.connect.ending ≠ .unfinished →
    ∀ call ∈ s.connectCalls, call.event = .start → call.state = .connected

/-- **When a connection keeps the stream connected**, whatever callbacks wait and whatever they do.

* A connection that ends without an exception does so exactly if none of the callbacks that it calls
  closes the stream.  That another one connects does not help: then the connection does not end.
* One that ends by a callback that raises does so exactly if no callback on `start` was called after
  one that closed, unless another one had connected in between.
* One that is unfinished has not ended, and nothing is asked of it.  That includes a connection that
  a host breaks off because firings are nested too deeply in it (`Run.maxAgenda`). -/
theorem staysConnected_iff (s : Stream) :
    s.StaysConnected ↔ match s.connect.ending with
      | .finished => ∀ call ∈ s.connectCalls, call.callback.closes = false
      | .raised _ => ∀ before call after, s.connectCalls = before ++ call :: after →
          call.event = .start → ¬ LeftClosed before
      | .unfinished => True := by
  cases hending : s.connect.ending with
  | finished =>
    rw [← isConnected_connect_iff hending]
    refine ⟨fun h => h.connected hending, fun h => ⟨fun _ => h, fun _ => ?_⟩⟩
    -- if nobody closes, then in particular nobody does before a callback on `start` is called
    rw [isConnected_connect_iff hending] at h
    refine starts_connected_iff.2 fun before call after hcalls _ => ?_
    rintro ⟨before', closing, after', rfl, hcloses, -⟩
    have hquiet := h closing (by rw [hcalls]; simp)
    rw [hquiet] at hcloses
    exact Bool.noConfusion hcloses
  | raised label =>
    have hended : s.connect.ending ≠ .unfinished := by
      rw [hending]
      exact Ending.noConfusion
    have hnot : s.connect.ending ≠ .finished := by
      rw [hending]
      exact Ending.noConfusion
    dsimp only
    rw [← starts_connected_iff]
    exact ⟨fun h => h.starts hended, fun h => ⟨fun hfin => absurd hfin hnot, fun _ => h⟩⟩
  | unfinished =>
    have hnot : s.connect.ending ≠ .finished := by
      rw [hending]
      exact Ending.noConfusion
    exact ⟨fun _ => trivial, fun _ => ⟨fun hfin => absurd hfin hnot, fun h => absurd hending h⟩⟩

/-- Callbacks on `connect` and on `start`, the first of which closes the stream. -/
def closing : Stream :=
  { onConnect := #[.mk "a" .close], onStart := #[.mk "b" .record] }

/-- The first callback closes the stream; the connection fires `start` all the same, and ends
without an exception. -/
theorem not_forall_staysConnected : ¬ ∀ s : Stream, s.StaysConnected := by
  intro h
  have hfinished : closing.connect.ending = .finished := by decide +kernel
  have hdisconnected : closing.connect.stream.isConnected = false := by decide +kernel
  have hconnected := (h closing).connected hfinished
  rw [hdisconnected] at hconnected
  exact Bool.noConfusion hconnected

end Stream

end PaperVenue
