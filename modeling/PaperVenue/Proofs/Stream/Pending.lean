import PaperVenue.Stream

/-!
# What is left to call

A callback that is called may register another one behind those that wait, so while an event is
fired its list may grow.  The length of the list is no measure of what is left.  But a callback
registers only what is nested in it.  If nested callbacks are counted too, then what is `pending`
gets less with every call, on whatever event the callback registers (`pendingAll_call_lt`).

This is so for callbacks that do not connect or close from inside.  They are called plain, and a
stream of plain callbacks stays one.
-/

namespace PaperVenue

mutual

/-- A callback that records, raises, or registers another such callback. -/
def Callback.isPlain : Callback → Bool
  | .mk _ action => action.isPlain

/-- An action that does not connect or close, and registers no callback that does. -/
def CallbackAction.isPlain : CallbackAction → Bool
  | .record => true
  | .raise => true
  | .register _ callback => callback.isPlain
  | .connect => false
  | .close => false

end

/-- Does the callback raise? -/
def Callback.raises (c : Callback) : Bool :=
  match c.action with
  | .raise => true
  | _ => false

namespace Stream

/-! ## Registering -/

/-- The callbacks of an event, in order of registration. -/
def waiting (s : Stream) (event : StreamEvent) : List Callback := (s.callbacks event).toList

/-- Every callback of the stream is plain. -/
def IsPlain (s : Stream) : Prop := ∀ event, ∀ c ∈ s.waiting event, c.isPlain

/-- The stream after a callback was called: it has registered another one, or nothing. -/
def afterCall (s : Stream) (c : Callback) : Stream :=
  match c.action with
  | .register event callback => s.register event callback
  | _ => s

/-- The stream after callbacks were called, one after the other. -/
def afterCalls (s : Stream) (called : List Callback) : Stream := called.foldl afterCall s

/-- A callback is registered behind those that wait for the same event. -/
theorem waiting_register (s : Stream) (event event' : StreamEvent) (c : Callback) :
    (s.register event c).waiting event' =
      s.waiting event' ++ if event' = event then [c] else [] := by
  cases event <;> cases event' <;> simp [register, waiting, callbacks]

theorem isPlain_register {s : Stream} (hs : s.IsPlain) (event : StreamEvent) {c : Callback}
    (hc : c.isPlain) : (s.register event c).IsPlain := by
  intro event' c' hc'
  rw [waiting_register, List.mem_append] at hc'
  rcases hc' with hc' | hc'
  · exact hs event' c' hc'
  · split at hc'
    · rw [List.mem_singleton.1 hc']
      exact hc
    · exact absurd hc' List.not_mem_nil

/-- Calling a plain callback leaves the stream plain, and its state as it is. -/
theorem isPlain_afterCall {s : Stream} (hs : s.IsPlain) {c : Callback} (hc : c.isPlain) :
    (s.afterCall c).IsPlain := by
  obtain ⟨label, action⟩ := c
  cases action with
  | register event c' => exact isPlain_register hs event hc
  | _ => exact hs

theorem state_register (s : Stream) (event : StreamEvent) (c : Callback) :
    (s.register event c).state = s.state := by
  cases event <;> rfl

theorem state_afterCall (s : Stream) (c : Callback) : (s.afterCall c).state = s.state := by
  rw [afterCall]
  split
  · exact s.state_register _ _
  · rfl

/-- Calling a callback takes no other away. -/
theorem waiting_kept_afterCall (s : Stream) (c : Callback) (event : StreamEvent) :
    s.waiting event <+: (s.afterCall c).waiting event := by
  rw [afterCall]
  split
  · rw [waiting_register]
    exact List.prefix_append _ _
  · exact List.prefix_rfl

theorem waiting_kept_afterCalls (s : Stream) (called : List Callback) (event : StreamEvent) :
    s.waiting event <+: (s.afterCalls called).waiting event := by
  induction called generalizing s with
  | nil => exact List.prefix_rfl
  | cons c called ih => exact (s.waiting_kept_afterCall c event).trans (ih _)

/-! ## Counting -/

/-- How many callbacks there are in a list, nested ones counted. -/
def totalWeight : List Callback → Nat
  | [] => 0
  | c :: cs => c.weight + totalWeight cs

@[simp] theorem totalWeight_nil : totalWeight [] = 0 := rfl

@[simp] theorem totalWeight_cons (c : Callback) (cs : List Callback) :
    totalWeight (c :: cs) = c.weight + totalWeight cs := rfl

@[simp] theorem totalWeight_append (cs cs' : List Callback) :
    totalWeight (cs ++ cs') = totalWeight cs + totalWeight cs' := by
  induction cs with
  | nil => rw [List.nil_append, totalWeight_nil, Nat.zero_add]
  | cons c cs ih => rw [List.cons_append, totalWeight_cons, totalWeight_cons, ih, Nat.add_assoc]

/-- The callbacks that wait for a task, nested ones counted. -/
def pending (s : Stream) (t : Task) : Nat := totalWeight ((s.waiting t.event).drop t.place)

/-- Everything that is left to do: the callbacks of all tasks, and to find each task done. -/
def pendingAll (s : Stream) : List Task → Nat
  | [] => 0
  | t :: ts => s.pending t + 1 + s.pendingAll ts

@[simp] theorem pendingAll_cons (s : Stream) (t : Task) (ts : List Task) :
    s.pendingAll (t :: ts) = s.pending t + 1 + s.pendingAll ts := rfl

/-- A callback that is registered is pending for the tasks of its event. -/
theorem pending_register_le (s : Stream) (event : StreamEvent) (c : Callback) (t : Task) :
    (s.register event c).pending t ≤ s.pending t + if t.event = event then c.weight else 0 := by
  rw [pending, pending, waiting_register]
  split
  · rw [List.drop_append, totalWeight_append]
    have hdrop : totalWeight ([c].drop (t.place - (s.waiting t.event).length)) ≤ c.weight := by
      cases t.place - (s.waiting t.event).length <;> simp
    omega
  · exact Nat.le_of_eq (by rw [List.append_nil, Nat.add_zero])

/-- Tasks of other events do not notice. -/
theorem pendingAll_register_le_of_notMem {event : StreamEvent} {ts : List Task}
    (h : event ∉ ts.map Task.event) (s : Stream) (c : Callback) :
    (s.register event c).pendingAll ts ≤ s.pendingAll ts := by
  induction ts with
  | nil => exact Nat.le_refl _
  | cons t ts ih =>
    rw [List.map_cons, List.mem_cons, not_or] at h
    have hfirst := s.pending_register_le event c t
    rw [if_neg (Ne.symm h.1)] at hfirst
    have hrest := ih h.2
    rw [pendingAll_cons, pendingAll_cons]
    omega

/-- Among tasks of different events it is pending once. -/
theorem pendingAll_register_le {ts : List Task} (hts : (ts.map Task.event).Nodup) (s : Stream)
    (event : StreamEvent) (c : Callback) :
    (s.register event c).pendingAll ts ≤ s.pendingAll ts + c.weight := by
  induction ts with
  | nil => exact Nat.zero_le _
  | cons t ts ih =>
    rw [List.map_cons, List.nodup_cons] at hts
    have hfirst := s.pending_register_le event c t
    rw [pendingAll_cons, pendingAll_cons]
    split at hfirst
    · rename_i hsame
      have hrest := pendingAll_register_le_of_notMem (hsame ▸ hts.1) s c
      omega
    · have hrest := ih hts.2
      omega

/-- A call registers less than the callback and all that is nested in it. -/
theorem pendingAll_afterCall_lt {ts : List Task} (hts : (ts.map Task.event).Nodup) (s : Stream)
    (c : Callback) : (s.afterCall c).pendingAll ts < s.pendingAll ts + c.weight := by
  obtain ⟨label, action⟩ := c
  cases action with
  | register event c' =>
    have hle := pendingAll_register_le hts s event c'
    exact Nat.lt_of_le_of_lt hle (Nat.lt_succ_self _)
  | _ => exact Nat.lt_succ_self _

/-- **A call uses up more than it registers.** -/
theorem pendingAll_call_lt {s : Stream} {event : StreamEvent} {place : Nat} {ts : List Task}
    (hts : (event :: ts.map Task.event).Nodup) {c : Callback}
    (hc : (s.waiting event)[place]? = some c) :
    (s.afterCall c).pendingAll (⟨event, place + 1⟩ :: ts) <
      s.pendingAll (⟨event, place⟩ :: ts) := by
  have hdistinct : (List.map Task.event (⟨event, place + 1⟩ :: ts)).Nodup := hts
  have hlt := pendingAll_afterCall_lt hdistinct s c
  obtain ⟨hplace, rfl⟩ := List.getElem?_eq_some_iff.1 hc
  have hturn : s.pending ⟨event, place⟩ =
      (s.waiting event)[place].weight + s.pending ⟨event, place + 1⟩ := by
    rw [pending, List.drop_eq_getElem_cons hplace, totalWeight_cons]
    rfl
  rw [pendingAll_cons] at hlt ⊢
  rw [pendingAll_cons] at hlt ⊢
  omega

/-- The weight of a stream is what is pending for all events together. -/
theorem weight_eq (s : Stream) :
    s.weight = s.pending ⟨.connect, 0⟩ + s.pending ⟨.start, 0⟩ + s.pending ⟨.disconnect, 0⟩ := by
  have hfold : ∀ (cs : List Callback) (n : Nat),
      cs.foldl (fun n c => n + c.weight) n = n + totalWeight cs := by
    intro cs
    induction cs with
    | nil => exact fun n => rfl
    | cons c cs ih =>
      intro n
      rw [List.foldl_cons, ih, totalWeight_cons, Nat.add_assoc]
  rw [weight, ← Array.foldl_toList, hfold, Nat.zero_add, Array.toList_append, Array.toList_append,
    totalWeight_append, totalWeight_append]
  rfl

end Stream

end PaperVenue
