import PaperVenue.Proofs.Run
import PaperVenue.Proofs.Stream.Pending

/-!
# Firing while callbacks register

To fire an event is to call its callbacks in order of registration, those included that are appended
on the way.  `Fires` says what that means without saying how it is done: an event is over when the
callbacks that were called are all that wait for it by then (`Completed`), or when one has raised
(`Stopped`).  Then it says so of several events, one after the other.

`hasFired_steps` says that a run does this.  Its induction is on the steps that may still be taken, of
which there are as many as callbacks are pending; so the run ends by itself, and long before either
of its limits.  `firing_laws` puts this at every place of a sequence of registrations, connections
and closings.
-/

namespace PaperVenue

namespace Stream

/-! ## What it means to fire -/

/-- Each callback, when it is called, is the one that waits in the next place. -/
def InTurn (t : Task) (s : Stream) (called : List Callback) : Prop :=
  ∀ before c after, called = before ++ c :: after →
    ((s.afterCalls before).waiting t.event)[t.place + before.length]? = some c

/-- Callbacks were called for an event, none raised, and no more of them wait. -/
structure Completed (t : Task) (s : Stream) (called : List Callback) (s' : Stream) : Prop where
  after_eq : s' = s.afterCalls called
  called_eq : called = (s'.waiting t.event).drop t.place
  inTurn : InTurn t s called
  quiet : ∀ c ∈ called, c.raises = false

/-- Callbacks were called for an event, and the last one was the first to raise.  What they had
registered is kept. -/
structure Stopped (t : Task) (s : Stream) (called : List Callback) (last : Callback) (s' : Stream) :
    Prop where
  after_eq : s' = s.afterCalls called
  inTurn : InTurn t s (called ++ [last])
  quiet : ∀ c ∈ called, c.raises = false
  raises : last.raises = true

/-- Events are fired one after the other, from one stream to another, until all are completed or a
callback raises. -/
inductive Fires : List Task → Stream → List Callback → Stream → Ending → Prop where
  | done (s : Stream) : Fires [] s [] s .finished
  | complete {t ts s called s' called' s'' ending} :
      Completed t s called s' → Fires ts s' called' s'' ending →
      Fires (t :: ts) s (called ++ called') s'' ending
  | stop {t ts s called last s'} :
      Stopped t s called last s' → Fires (t :: ts) s (called ++ [last]) s' (.raised last.label)

/-! ## One callback more in front -/

theorem inTurn_nil (t : Task) (s : Stream) : InTurn t s [] := by
  intro before c after h
  exact absurd h (by simp)

theorem inTurn_cons {s : Stream} {event : StreamEvent} {place : Nat} {c : Callback}
    {called : List Callback} (hc : (s.waiting event)[place]? = some c)
    (h : InTurn ⟨event, place + 1⟩ (s.afterCall c) called) :
    InTurn ⟨event, place⟩ s (c :: called) := by
  intro before c' after hsplit
  cases before with
  | nil =>
    obtain ⟨rfl, -⟩ := List.cons.inj hsplit
    exact hc
  | cons b before =>
    obtain ⟨rfl, hrest⟩ := List.cons.inj hsplit
    have hplace : place + (before.length + 1) = place + 1 + before.length := by omega
    have hturn := h before c' after hrest
    rw [← hplace] at hturn
    exact hturn

theorem Completed.cons {s s' : Stream} {event : StreamEvent} {place : Nat} {c : Callback}
    {called : List Callback} (hc : (s.waiting event)[place]? = some c) (hquiet : c.raises = false)
    (h : Completed ⟨event, place + 1⟩ (s.afterCall c) called s') :
    Completed ⟨event, place⟩ s (c :: called) s' := by
  refine ⟨h.after_eq, ?_, inTurn_cons hc h.inTurn, List.forall_mem_cons.2 ⟨hquiet, h.quiet⟩⟩
  -- the callback still waits in its place at the end
  have hkept : s.waiting event <+: s'.waiting event := by
    rw [h.after_eq]
    exact (s.waiting_kept_afterCall c event).trans (waiting_kept_afterCalls _ called event)
  obtain ⟨hplace, rfl⟩ := List.getElem?_eq_some_iff.1 hc
  have hplace' : place < (s'.waiting event).length :=
    Nat.lt_of_lt_of_le hplace hkept.length_le
  rw [List.drop_eq_getElem_cons hplace', hkept.getElem hplace]
  exact congrArg _ h.called_eq

theorem Stopped.cons {s s' : Stream} {event : StreamEvent} {place : Nat} {c last : Callback}
    {called : List Callback} (hc : (s.waiting event)[place]? = some c) (hquiet : c.raises = false)
    (h : Stopped ⟨event, place + 1⟩ (s.afterCall c) called last s') :
    Stopped ⟨event, place⟩ s (c :: called) last s' :=
  ⟨h.after_eq, inTurn_cons hc h.inTurn, List.forall_mem_cons.2 ⟨hquiet, h.quiet⟩, h.raises⟩

/-- **A callback that is called in its turn** comes before what is fired from then on. -/
theorem Fires.cons {s s' : Stream} {event : StreamEvent} {place : Nat} {ts : List Task}
    {c : Callback} {called : List Callback} {ending : Ending}
    (hc : (s.waiting event)[place]? = some c) (hquiet : c.raises = false)
    (h : Fires (⟨event, place + 1⟩ :: ts) (s.afterCall c) called s' ending) :
    Fires (⟨event, place⟩ :: ts) s (c :: called) s' ending := by
  cases h with
  | complete hcompleted hrest => exact .complete (hcompleted.cons hc hquiet) hrest
  | stop hstopped => exact .stop (hstopped.cons hc hquiet)

/-- An event without a next callback is completed. -/
theorem Fires.skip {s s' : Stream} {t : Task} {ts : List Task} {called : List Callback}
    {ending : Ending} (hc : (s.waiting t.event)[t.place]? = none)
    (h : Fires ts s called s' ending) : Fires (t :: ts) s called s' ending := by
  have hdrop : (s.waiting t.event).drop t.place = [] :=
    List.drop_eq_nil_of_le (List.getElem?_eq_none_iff.1 hc)
  have hnothing : Completed t s [] s :=
    ⟨rfl, hdrop.symm, inTurn_nil t s, fun c hc => absurd hc List.not_mem_nil⟩
  exact .complete hnothing h

/-- Whatever is fired, what waits stays in its place. -/
theorem Fires.waiting_kept {ts : List Task} {s s' : Stream} {called : List Callback}
    {ending : Ending} (h : Fires ts s called s' ending) (event : StreamEvent) :
    s.waiting event <+: s'.waiting event := by
  induction h with
  | done s => exact List.prefix_rfl
  | complete hcompleted _ ih =>
    rw [hcompleted.after_eq] at ih
    exact (waiting_kept_afterCalls _ _ event).trans ih
  | stop hstopped =>
    rw [hstopped.after_eq]
    exact waiting_kept_afterCalls _ _ event

namespace Run

/-! ## One step -/

variable {r : Run} {t : Task} {rest : List Task} {c : Callback}

theorem step_of_none (hr : r.agenda = t :: rest)
    (hc : (r.stream.waiting t.event)[t.place]? = none) : r.step = { r with agenda := rest } := by
  rw [waiting, Array.getElem?_toList] at hc
  rw [step, hr]
  dsimp only
  rw [hc]

theorem step_of_some (hr : r.agenda = t :: rest)
    (hc : (r.stream.waiting t.event)[t.place]? = some c) :
    r.step = { r with agenda := ⟨t.event, t.place + 1⟩ :: rest }.call c := by
  rw [waiting, Array.getElem?_toList] at hc
  rw [step, hr]
  dsimp only
  rw [hc]

theorem call_of_raises (r : Run) (h : c.raises = true) :
    r.call c =
      { r with agenda := [], fired := r.fired.push c.label, raised := some c.label } := by
  obtain ⟨label, action⟩ := c
  cases action with
  | raise => rfl
  | _ => exact Bool.noConfusion h

/-- A plain callback that does not raise registers what it has to register. -/
theorem call_of_quiet (r : Run) (hplain : c.isPlain) (h : c.raises = false) :
    r.call c =
      { r with stream := r.stream.afterCall c, fired := r.fired.push c.label } := by
  obtain ⟨label, action⟩ := c
  cases action with
  | raise => exact Bool.noConfusion h
  | connect => exact Bool.noConfusion hplain
  | close => exact Bool.noConfusion hplain
  | _ => rfl

/-- **What a step does to the stream**: nothing, or what a plain callback does. -/
theorem stream_step (hplain : r.stream.IsPlain) :
    r.step.stream = r.stream ∨ ∃ c, c.isPlain ∧ r.step.stream = r.stream.afterCall c := by
  cases hr : r.agenda with
  | nil =>
    rw [step, hr]
    exact Or.inl rfl
  | cons t rest =>
    cases hc : (r.stream.waiting t.event)[t.place]? with
    | none =>
      rw [step_of_none hr hc]
      exact Or.inl rfl
    | some c =>
      have hmem := hplain t.event c (List.mem_of_getElem? hc)
      rw [step_of_some hr hc]
      cases hraises : c.raises with
      | true =>
        rw [call_of_raises _ hraises]
        exact Or.inl rfl
      | false =>
        rw [call_of_quiet _ hmem hraises]
        exact Or.inr ⟨c, hmem, rfl⟩

/-! ## A number of steps -/

theorem steps_of_isOver (h : r.isOver) (n : Nat) : r.steps n = r := by
  cases n with
  | zero => rfl
  | succ n => rw [steps, if_pos h]

/-- What every step keeps, any number of them keeps. -/
theorem steps_invariant {p : Run → Prop} (hstep : ∀ r, p r → p r.step) (n : Nat) {r : Run}
    (hr : p r) : p (r.steps n) := by
  induction n generalizing r with
  | zero => exact hr
  | succ n ih =>
    rw [steps]
    split
    · exact hr
    · exact ih (hstep r hr)

/-- Steps that may still be taken make no difference when there is nothing left to do. -/
theorem steps_of_le {n m : Nat} (h : (r.steps n).agenda = []) (hnm : n ≤ m) :
    r.steps m = r.steps n := by
  induction n generalizing r m with
  | zero =>
    have hr : r.agenda = [] := h
    refine steps_of_isOver ?_ m
    rw [isOver, hr]
    rfl
  | succ n ih =>
    obtain ⟨m, rfl⟩ : ∃ k, m = k + 1 := ⟨m - 1, by omega⟩
    rw [steps] at h ⊢
    rw [steps]
    split
    · rfl
    · rename_i hover
      rw [if_neg hover] at h
      exact ih h (by omega)

/-- A run keeps plain callbacks plain, and the state as it is. -/
theorem isPlain_steps (h : r.stream.IsPlain) (n : Nat) :
    (r.steps n).stream.IsPlain ∧ (r.steps n).stream.state = r.stream.state := by
  refine steps_invariant (p := fun r' => r'.stream.IsPlain ∧ r'.stream.state = r.stream.state) ?_ n
    ⟨h, rfl⟩
  rintro r' ⟨hplain, hstate⟩
  rcases r'.stream_step hplain with hsame | ⟨c, hc, hcalled⟩
  · rw [hsame]
    exact ⟨hplain, hstate⟩
  · rw [hcalled, state_afterCall]
    exact ⟨isPlain_afterCall hplain hc, hstate⟩

/-- A run of plain callbacks that nothing has stopped: its tasks are for different events, and it is
far from its limit. -/
structure Quiet (r : Run) : Prop where
  plain : r.stream.IsPlain
  distinct : (r.agenda.map Task.event).Nodup
  short : r.agenda.length ≤ maxAgenda
  raised_eq : r.raised = none

theorem not_isOver (h : r.Quiet) (hr : r.agenda = t :: rest) : ¬ r.isOver := by
  have hshort := h.short
  rw [isOver, hr, List.isEmpty_cons, Bool.false_or, decide_eq_true_eq, ← hr]
  omega

theorem Quiet.skip (h : r.Quiet) (hr : r.agenda = t :: rest) :
    Quiet { r with agenda := rest } := by
  have hdistinct := h.distinct
  have hshort := h.short
  rw [hr] at hdistinct hshort
  exact ⟨h.plain, (List.nodup_cons.1 hdistinct).2, Nat.le_of_succ_le hshort, h.raised_eq⟩

theorem Quiet.call (h : r.Quiet) (hr : r.agenda = t :: rest) (hc : c.isPlain) (label : String) :
    Quiet { r with
      stream := r.stream.afterCall c, agenda := ⟨t.event, t.place + 1⟩ :: rest
      fired := r.fired.push label } := by
  have hdistinct := h.distinct
  have hshort := h.short
  rw [hr] at hdistinct hshort
  exact ⟨isPlain_afterCall h.plain hc, hdistinct, hshort, h.raised_eq⟩

/-- A run has led to another one by firing what was on its agenda, with nothing left to do. -/
structure HasFired (r r' : Run) : Prop where
  agenda_eq : r'.agenda = []
  fires : ∃ called, Fires r.agenda r.stream called r'.stream r'.ending ∧
    r'.fired.toList = r.fired.toList ++ called.map Callback.label

/-- With nothing to do nothing is fired. -/
theorem hasFired_of_nil (h : r.Quiet) (hr : r.agenda = []) : HasFired r r := by
  have hending : r.ending = .finished := by
    rw [ending, h.raised_eq, hr]
    rfl
  refine ⟨hr, [], ?_, (List.append_nil _).symm⟩
  rw [hr, hending]
  exact .done r.stream

theorem HasFired.skip {r' : Run} (hr : r.agenda = t :: rest)
    (hc : (r.stream.waiting t.event)[t.place]? = none)
    (h : HasFired { r with agenda := rest } r') : HasFired r r' := by
  obtain ⟨hover, called, hfires, hfired⟩ := h
  refine ⟨hover, called, ?_, hfired⟩
  rw [hr]
  exact hfires.skip hc

theorem HasFired.stop (hr : r.agenda = t :: rest)
    (hc : (r.stream.waiting t.event)[t.place]? = some c) (hraises : c.raises = true) :
    HasFired r
      { r with agenda := [], fired := r.fired.push c.label, raised := some c.label } := by
  have hstopped : Stopped t r.stream [] c r.stream :=
    ⟨rfl, inTurn_cons hc (inTurn_nil _ _), fun c hc => absurd hc List.not_mem_nil, hraises⟩
  refine ⟨rfl, [c], ?_, Array.toList_push⟩
  rw [hr]
  exact .stop hstopped

theorem HasFired.cons {r' : Run} (hr : r.agenda = t :: rest)
    (hc : (r.stream.waiting t.event)[t.place]? = some c) (hquiet : c.raises = false)
    (h : HasFired { r with
      stream := r.stream.afterCall c, agenda := ⟨t.event, t.place + 1⟩ :: rest
      fired := r.fired.push c.label } r') : HasFired r r' := by
  obtain ⟨hover, called, hfires, hfired⟩ := h
  refine ⟨hover, c :: called, ?_, ?_⟩
  · rw [hr]
    exact hfires.cons hc hquiet
  · rw [hfired, Array.toList_push, List.append_assoc]
    rfl

/-- **A run fires what is on its agenda**, in no more steps than callbacks are pending. -/
theorem hasFired_steps (h : r.Quiet) {n : Nat} (hn : r.stream.pendingAll r.agenda ≤ n) :
    HasFired r (r.steps n) := by
  induction n generalizing r with
  | zero =>
    cases hr : r.agenda with
    | nil => exact hasFired_of_nil h hr
    | cons t rest =>
      rw [hr, pendingAll_cons] at hn
      omega
  | succ n ih =>
    cases hr : r.agenda with
    | nil =>
      rw [steps_of_isOver (by rw [isOver, hr]; rfl)]
      exact hasFired_of_nil h hr
    | cons t rest =>
      rw [hr] at hn
      rw [steps, if_neg (not_isOver h hr)]
      cases hc : (r.stream.waiting t.event)[t.place]? with
      | none =>
        rw [pendingAll_cons] at hn
        have hless : r.stream.pendingAll rest ≤ n := by omega
        rw [step_of_none hr hc]
        exact (ih (h.skip hr) hless).skip hr hc
      | some c =>
        have hplain := h.plain t.event c (List.mem_of_getElem? hc)
        rw [step_of_some hr hc]
        cases hraises : c.raises with
        | true =>
          rw [call_of_raises _ hraises, steps_of_isOver rfl]
          exact .stop hr hc hraises
        | false =>
          have hdistinct := h.distinct
          rw [hr] at hdistinct
          have hless := Nat.le_of_lt_succ (Nat.lt_of_lt_of_le (pendingAll_call_lt hdistinct hc) hn)
          rw [call_of_quiet _ hplain hraises]
          exact (ih (h.call hr hplain c.label) hless).cons hr hc hraises

end Run

/-! ## Connections and closings -/

/-- What a connection or a closing does to a stream, given the state that it leads to and the tasks
that it starts with.

* The stream has the state at every moment, also if a callback raises.
* It ends by itself.  When no more steps are taken nothing is left to do, and there were no more of
  them than callbacks, nested ones counted, and two.
* What is fired is what should be fired. -/
structure FiresThrough (now : Stream) (start : Run) (state : ConnectionState) (ts : List Task)
    (r : Run) : Prop where
  state_eq : ∀ n, (start.steps n).stream.state = state
  ends : ∃ n ≤ now.weight + 2, r = start.steps n ∧ r.agenda = []
  fires : ∃ called, Fires ts { now with state } called r.stream r.ending ∧
    r.fired.toList = called.map Callback.label

/-- A run fires through if no more is pending at its start than the stream has. -/
theorem firesThrough_of_quiet {now : Stream} {start : Run} {state : ConnectionState}
    (h : start.Quiet) (hstart : start.stream = { now with state }) (hfired : start.fired = #[])
    (hpending : start.stream.pendingAll start.agenda ≤ now.weight + 2) :
    FiresThrough now start state start.agenda (start.steps now.fuel) := by
  have hfuel : now.weight + 2 ≤ now.fuel := Nat.le_add_right _ _
  have hover := (Run.hasFired_steps h hpending).agenda_eq
  obtain ⟨hover', called, hfires, hlabels⟩ := Run.hasFired_steps h (Nat.le_trans hpending hfuel)
  rw [hstart] at hfires
  rw [hfired, List.nil_append] at hlabels
  refine ⟨fun n => ?_, ⟨_, Nat.le_refl _, Run.steps_of_le hover hfuel, hover'⟩, called, hfires,
    hlabels⟩
  rw [(Run.isPlain_steps h.plain n).2, hstart]

theorem firesThrough_connect {s : Stream} (h : s.IsPlain) :
    FiresThrough s (Run.connect { stream := s }) .connected [⟨.connect, 0⟩, ⟨.start, 0⟩]
      s.connect := by
  have hdistinct : [StreamEvent.connect, .start].Nodup := by decide
  have hshort : 2 ≤ Run.maxAgenda := by decide
  have hquiet : (Run.connect { stream := s }).Quiet := ⟨h, hdistinct, hshort, rfl⟩
  refine firesThrough_of_quiet hquiet rfl rfl ?_
  have hpending : (Run.connect { stream := s }).stream.pendingAll [⟨.connect, 0⟩, ⟨.start, 0⟩] =
      s.pending ⟨.connect, 0⟩ + 1 + (s.pending ⟨.start, 0⟩ + 1) := rfl
  rw [weight_eq]
  refine Nat.le_trans (Nat.le_of_eq hpending) ?_
  omega

theorem firesThrough_close {s : Stream} (h : s.IsPlain) :
    FiresThrough s (Run.close { stream := s }) .disconnected [⟨.disconnect, 0⟩] s.close := by
  have hdistinct : [StreamEvent.disconnect].Nodup := by decide
  have hshort : 1 ≤ Run.maxAgenda := by decide
  have hquiet : (Run.close { stream := s }).Quiet := ⟨h, hdistinct, hshort, rfl⟩
  refine firesThrough_of_quiet hquiet rfl rfl ?_
  have hpending : (Run.close { stream := s }).stream.pendingAll [⟨.disconnect, 0⟩] =
      s.pending ⟨.disconnect, 0⟩ + 1 := rfl
  rw [weight_eq]
  refine Nat.le_trans (Nat.le_of_eq hpending) ?_
  omega

/-- Firing takes no callback away. -/
theorem FiresThrough.waiting_kept {now : Stream} {start : Run} {state : ConnectionState}
    {ts : List Task} {r : Run} (h : FiresThrough now start state ts r) (event : StreamEvent) :
    now.waiting event <+: r.stream.waiting event := by
  obtain ⟨called, hfires, -⟩ := h.fires
  have hsame : ({ now with state } : Stream).waiting event = now.waiting event := by
    cases event <;> rfl
  rw [← hsame]
  exact hfires.waiting_kept event

/-! ## Operations -/

/-- What can be done with a stream from outside. -/
inductive Operation where
  | register (event : StreamEvent) (callback : Callback)
  | connect
  | close

/-- Only plain callbacks are registered. -/
def Operation.isPlain : Operation → Bool
  | .register _ callback => callback.isPlain
  | _ => true

/-- Perform an operation. -/
def perform (s : Stream) : Operation → Run
  | .register event callback => { stream := s.register event callback }
  | .connect => s.connect
  | .close => s.close

/-- Perform operations one after the other: the stream afterwards, and what each of them did. -/
def performAll : Stream → List Operation → Stream × List Run
  | s, [] => (s, [])
  | s, op :: ops =>
    let r := s.perform op
    let (s, rs) := performAll r.stream ops
    (s, r :: rs)

theorem runs : Runs (fun s op => ((perform s op).stream, perform s op)) performAll :=
  ⟨fun _ => rfl, fun _ _ _ => rfl⟩

/-- Operations leave a stream of plain callbacks one. -/
theorem isPlain_perform {s : Stream} (hs : s.IsPlain) {op : Operation} (hop : op.isPlain) :
    (s.perform op).stream.IsPlain := by
  cases op with
  | register event c => exact isPlain_register hs event hop
  | connect => exact (Run.isPlain_steps (r := Run.connect { stream := s }) hs _).1
  | close => exact (Run.isPlain_steps (r := Run.close { stream := s }) hs _).1

theorem isPlain_performAll {s : Stream} (hs : s.IsPlain) {ops : List Operation}
    (hops : ∀ op ∈ ops, op.isPlain) : (s.performAll ops).1.IsPlain :=
  runs.invariant_of_forall (p := IsPlain) (fun _ _ hop hs => isPlain_perform hs hop) hs hops

/-- **Firing while callbacks register**, at any place of any sequence of registrations, connections
and closings, if no callback connects or closes from inside.  `now` is the stream at that place.

* What was registered stays registered, in its place.
* A connection fires the callbacks on `connect` and then those on `start`, in the state `CONNECTED`.
* A closing fires the callbacks on `disconnect`, in the state `DISCONNECTED`.

Firing includes what is registered on the way, and ends early only if a callback raises. -/
theorem firing_laws {s : Stream} (hs : s.IsPlain) (past : List Operation) (op : Operation)
    (hops : ∀ o ∈ past ++ [op], o.isPlain) (future : List Operation) :
    let now := (s.performAll past).1
    ∃ r, (s.performAll (past ++ op :: future)).2[past.length]? = some r ∧
      (s.performAll (past ++ [op])).1 = r.stream ∧
      (∀ event, now.waiting event <+: r.stream.waiting event) ∧
      match op with
      | .register event c => r = { stream := now.register event c }
      | .connect => FiresThrough now (Run.connect { stream := now }) .connected
          [⟨.connect, 0⟩, ⟨.start, 0⟩] r
      | .close => FiresThrough now (Run.close { stream := now }) .disconnected
          [⟨.disconnect, 0⟩] r := by
  intro now
  have hnow : now.IsPlain := isPlain_performAll hs fun o ho => hops o (List.mem_append_left _ ho)
  refine ⟨now.perform op, runs.getElem?_snd s past op future, runs.fst_concat s past op, ?_, ?_⟩
  · intro event
    cases op with
    | register event' c =>
      rw [perform, waiting_register]
      exact List.prefix_append _ _
    | connect => exact (firesThrough_connect hnow).waiting_kept event
    | close => exact (firesThrough_close hnow).waiting_kept event
  · cases op with
    | register event c => rfl
    | connect => exact firesThrough_connect hnow
    | close => exact firesThrough_close hnow

/-- A callback that registers one that registers one that raises. -/
def nested : Callback :=
  .mk "a" (.register .connect (.mk "b" (.register .start (.mk "c" .raise))))

/-- At the second connection what the first one registered is registered once more, also behind the
callback that raises. -/
theorem firing_laws_secondConnection :
    let now := (({} : Stream).performAll [.register .connect nested, .connect]).1
    ∃ r, FiresThrough now (Run.connect { stream := now }) .connected
        [⟨.connect, 0⟩, ⟨.start, 0⟩] r ∧
      r.fired = #["a", "b", "b", "c"] ∧ r.ending = .raised "c" ∧
      (r.stream.waiting .start).map Callback.label = ["c", "c", "c"] := by
  intro now
  have hplain : ({} : Stream).IsPlain := fun event c hc => by
    cases event <;> exact absurd hc List.not_mem_nil
  obtain ⟨r, hr, -, -, hfires⟩ :=
    firing_laws hplain [.register .connect nested, .connect] .connect (by decide) []
  obtain rfl := Option.some.inj hr
  exact ⟨_, hfires, by decide +kernel, by decide +kernel, by decide +kernel⟩

end Stream

end PaperVenue
