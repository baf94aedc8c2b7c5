import PaperVenue.Order.Operation
import PaperVenue.Proofs.Ledger.Effect
import Mathlib.Data.List.Nodup

/-!
# A ledger is what its history says

A history is a list of operations, each with its moment.  The history alone says which requests were
accepted, which number each of them got, and which cancels named a number after it was given out.
So it says what every order looks like by now, and what the next operation has to answer.  None of
this mentions a counter, a table or a stored order:

* `History.accepted`: the requests that reached the ledger.  The one in place `k` has the number
  `k + 1`.
* `History.since`, `History.cancellations`: what came after a request was accepted, and the moments
  of the cancels among it that named the order.
* `History.orders`, `History.answer`: the orders, and the answer to one more operation.

`ofHistory` is the ledger that a history describes, and the two simulation lemmas are
`perform_ofHistory`, which says that an operation takes it to the ledger of the longer history, and
`outcome_perform_ofHistory`, which says that it answers what the history determines.  Runs follow by
induction on the history, one operation at its end at a time.
-/

namespace PaperVenue

namespace Ledger

/-- The request that an operation brings to the ledger.  Through the gate it gets there in a dry run
only, and then it has got there even if the order cannot be noted afterwards. -/
def Operation.request? : Operation → Option OrderRequest
  | .submit r => some r
  | .pass r true => some r
  | _ => none

/-- Does an operation cancel the order with a number? -/
def Operation.cancels (id : Int) : Operation → Bool
  | .cancel ids => decide (id ∈ ids)
  | _ => false

/-- What brings a request cancels nothing. -/
theorem Operation.cancels_of_request {op : Operation} {r : OrderRequest}
    (hr : op.request? = some r) (id : Int) : op.cancels id = false := by
  cases op <;> simp_all [Operation.request?, Operation.cancels]

/-- What was asked of a ledger, and when. -/
abbrev History := List (Moment × Operation)

namespace History

/-! ## What a history says -/

/-- The requests that were accepted, each with the moment of its acceptance. -/
def accepted (h : History) : List (Moment × OrderRequest) :=
  h.filterMap fun e => e.2.request?.map fun r => (e.1, r)

/-- What came after the request in place `k` was accepted. -/
def since : Nat → History → History
  | _, [] => []
  | 0, e :: h => if e.2.request?.isSome then h else since 0 h
  | k + 1, e :: h => if e.2.request?.isSome then since k h else since (k + 1) h

/-- The moments at which the order in place `k` was canceled, first to last. -/
def cancellations (k : Nat) (h : History) : List Moment :=
  (since k h).filterMap fun e => if e.2.cancels (k + 1) then some e.1 else none

/-- The order that the request in place `k` has become: canceled since the last cancel that named it
after it was accepted, and new if none did. -/
def order (v : Venue) (h : History) (k : Nat) (a : Moment × OrderRequest) : Order :=
  match (cancellations k h).getLast? with
  | none =>
    { id := k + 1, venue := v, request := a.2, status := .new, venueStatus := "NEW"
      isWorking := true, executedQuantity := .zero, created := a.1, updated := a.1 }
  | some u =>
    { id := k + 1, venue := v, request := a.2, status := .canceled, venueStatus := "CANCELED"
      isWorking := false, executedQuantity := .zero, created := a.1, updated := u }

/-- The orders by now, in order of acceptance. -/
def orders (v : Venue) (h : History) : List Order := h.accepted.mapIdx (order v h)

/-- The order with a number: numbers count the accepted requests from one. -/
def order? (v : Venue) (h : History) (id : Int) : Option Order :=
  if 1 ≤ id then (orders v h)[id.toNat - 1]? else none

/-- The working orders on a symbol, or on any symbol if none is given. -/
def working (v : Venue) (h : History) (symbol : Option String) : List Order :=
  (orders v h).filter fun o =>
    o.isWorking && (symbol.getD "" = "" || o.request.symbol = symbol.getD "")

/-- How many working orders a list of numbers names. -/
def workingAmong (v : Venue) (h : History) (ids : List Int) : Nat :=
  (orders v h).countP fun o => o.isWorking && decide (o.id ∈ ids)

/-- The order that a request accepted now becomes. -/
def next (v : Venue) (h : History) (now : Moment) (r : OrderRequest) : Order :=
  { id := h.accepted.length + 1, venue := v, request := r, status := .new, venueStatus := "NEW"
    isWorking := true, executedQuantity := .zero, created := now, updated := now }

/-- An order that passed the gate is answered if both of its amounts have a plain form. -/
def noted (o : Order) : Except Failure Answer :=
  match o.request.quantity.plainText, o.request.price.plainText with
  | .ok _, .ok _ => .ok (.order o)
  | .error s, _ => .error (.arithmetic s)
  | .ok _, .error s => .error (.arithmetic s)

/-- What an operation has to answer after a history. -/
def answer (v : Venue) (h : History) (now : Moment) : Operation → Except Failure Answer
  | .submit r => .ok (.order (next v h now r))
  | .pass r true => noted (next v h now r)
  | .pass _ false => .error (.venue .liveTrading)
  | .get id => .ok (.found (order? v h id))
  | .working symbol => .ok (.orders (working v h symbol))
  | .cancel ids => .ok (.count (workingAmong v h ids))
  | .size => .ok (.count h.accepted.length)

/-! ## One more operation -/

theorem accepted_concat (h : History) (e : Moment × Operation) :
    accepted (h ++ [e]) = accepted h ++ (e.2.request?.map fun r => (e.1, r)).toList := by
  rw [accepted, accepted, List.filterMap_append]
  cases hr : e.2.request? <;> simp [hr]

theorem accepted_concat_of_no_request (h : History) {e : Moment × Operation}
    (hr : e.2.request? = none) : accepted (h ++ [e]) = accepted h := by
  rw [accepted_concat, hr]
  exact List.append_nil _

theorem length_accepted_cons (e : Moment × Operation) (h : History) :
    (accepted (e :: h)).length =
      (if e.2.request?.isSome then 1 else 0) + (accepted h).length := by
  cases hr : e.2.request? <;> simp [accepted, hr, Nat.add_comm]

theorem since_concat (k : Nat) (h : History) (e : Moment × Operation) :
    since k (h ++ [e]) = if k < h.accepted.length then since k h ++ [e] else [] := by
  induction h generalizing k with
  | nil => cases hr : e.2.request? <;> cases k <;> simp [since, accepted, hr]
  | cons d h ih =>
    rw [length_accepted_cons, List.cons_append]
    cases hr : d.2.request?.isSome <;> cases k <;> simp [since, hr, ih, Nat.add_comm 1]

/-- Only a cancel that comes after the acceptance of an order is one of its cancellations. -/
theorem cancellations_concat (k : Nat) (h : History) (e : Moment × Operation) :
    cancellations k (h ++ [e]) =
      if k < h.accepted.length then
        cancellations k h ++ if e.2.cancels (k + 1) then [e.1] else []
      else [] := by
  rw [cancellations, cancellations, since_concat]
  split
  · rw [List.filterMap_append]
    cases hc : e.2.cancels (k + 1) <;> simp [hc]
  · rfl

/-- An order that was accepted before is changed by a cancel that names it and by nothing else. -/
theorem order_concat (v : Venue) {h : History} {k : Nat} (hk : k < h.accepted.length)
    (a : Moment × OrderRequest) (e : Moment × Operation) :
    order v (h ++ [e]) k a =
      if e.2.cancels (k + 1) then (order v h k a).cancel e.1 else order v h k a := by
  rw [order, order, cancellations_concat, if_pos hk]
  cases hc : e.2.cancels (k + 1) with
  | false => simp
  | true =>
    rw [if_pos rfl, if_pos rfl, List.getLast?_concat]
    cases (cancellations k h).getLast? <;> rfl

/-- A request accepted just now has become a new order. -/
theorem order_concat_next (v : Venue) (h : History) (t : Moment) (op : Operation)
    (r : OrderRequest) :
    order v (h ++ [(t, op)]) h.accepted.length (t, r) = next v h t r := by
  rw [order, cancellations_concat, if_neg (Nat.lt_irrefl _)]
  rfl

theorem id_order (v : Venue) (h : History) (k : Nat) (a : Moment × OrderRequest) :
    (order v h k a).id = k + 1 := by
  rw [order]
  split <;> rfl

@[simp] theorem length_orders (v : Venue) (h : History) :
    (orders v h).length = h.accepted.length := by
  rw [orders, List.length_mapIdx]

theorem getElem?_orders (v : Venue) (h : History) (k : Nat) :
    (orders v h)[k]? = (h.accepted[k]?).map (order v h k) := by
  rw [orders, List.getElem?_mapIdx]

/-- An operation that accepts a request adds an order and changes none. -/
theorem orders_concat_of_request (v : Venue) (h : History) (t : Moment) (op : Operation)
    {r : OrderRequest} (hr : op.request? = some r) :
    orders v (h ++ [(t, op)]) = orders v h ++ [next v h t r] := by
  have hacc : accepted (h ++ [(t, op)]) = accepted h ++ [(t, r)] := by
    rw [accepted_concat, hr]
    rfl
  rw [orders, hacc, List.mapIdx_concat, order_concat_next, orders]
  congr 1
  refine List.ext_getElem (by simp) fun k hk _ => ?_
  rw [List.length_mapIdx] at hk
  rw [List.getElem_mapIdx, List.getElem_mapIdx, order_concat v hk,
    Operation.cancels_of_request hr]
  rfl

/-- An operation that accepts nothing changes the orders that it cancels. -/
theorem orders_concat_of_no_request (v : Venue) (h : History) (t : Moment) (op : Operation)
    (hr : op.request? = none) :
    orders v (h ++ [(t, op)]) =
      (orders v h).map fun o => if op.cancels o.id then o.cancel t else o := by
  refine List.ext_getElem? fun k => ?_
  rw [List.getElem?_map, getElem?_orders, getElem?_orders, accepted_concat_of_no_request h hr]
  cases ha : h.accepted[k]? with
  | none => rfl
  | some a =>
    have hk : k < h.accepted.length := (List.getElem?_eq_some_iff.1 ha).1
    rw [Option.map_some, Option.map_some, Option.map_some, order_concat v hk, id_order]

/-! ## Numbers -/

theorem id_getElem_orders (v : Venue) (h : History) (k : Nat) (hk : k < (orders v h).length) :
    (orders v h)[k].id = k + 1 := by
  simp only [orders, List.getElem_mapIdx, id_order]

/-- No number is given out twice. -/
theorem nodup_ids (v : Venue) (h : History) : ((orders v h).map Order.id).Nodup := by
  have hids : (orders v h).map Order.id =
      (List.range h.accepted.length).map fun k : Nat => (k : Int) + 1 := by
    refine List.ext_getElem (by simp) fun k hk _ => ?_
    rw [List.getElem_map, List.getElem_map, List.getElem_range, id_getElem_orders]
  rw [hids]
  refine List.Nodup.map (fun a b hab => ?_) List.nodup_range
  have hab' : (a : Int) + 1 = b + 1 := hab
  omega

end History

/-! ## The ledger of a history -/

/-- The ledger that a history describes. -/
def ofHistory (v : Venue) (h : History) : Ledger :=
  { venue := v
    nextId := h.accepted.length + 1
    orders := (h.orders v).map fun o => (o.id, o) }

/-- A table of orders whose numbers count up by one finds an order by its place. -/
theorem get?_numbered (n : Nat) (os : List Order)
    (hos : ∀ k (hk : k < os.length), os[k].id = n + k + 1) (id : Int) :
    Table.get? (os.map fun o => (o.id, o)) id =
      if n + 1 ≤ id then os[id.toNat - n - 1]? else none := by
  induction os generalizing n with
  | nil => simp
  | cons o os ih =>
    have hid : o.id = n + 1 := hos 0 (Nat.zero_lt_succ _)
    have hrest : ∀ k (hk : k < os.length), os[k].id = (n + 1 : Nat) + k + 1 := by
      intro k hk
      have hk' := hos (k + 1) (by simpa using hk)
      rw [List.getElem_cons_succ] at hk'
      omega
    rw [List.map_cons, Table.get?_cons, ih (n + 1) hrest, hid]
    by_cases heq : (n : Int) + 1 = id
    · have hzero : id.toNat - n - 1 = 0 := by omega
      rw [if_pos heq, if_pos (by omega), hzero, List.getElem?_cons_zero]
    · rw [if_neg heq]
      by_cases hlt : (n : Int) + 1 ≤ id
      · have hsucc : id.toNat - n - 1 = id.toNat - (n + 1) - 1 + 1 := by omega
        rw [if_pos hlt, if_pos (by omega), hsucc, List.getElem?_cons_succ]
      · rw [if_neg hlt, if_neg (by omega)]

theorem keys_ofHistory (v : Venue) (h : History) :
    Table.keys (ofHistory v h).orders = (h.orders v).map Order.id := by
  rw [ofHistory, Table.keys, List.map_map]
  rfl

theorem nodup_keys_ofHistory (v : Venue) (h : History) :
    (Table.keys (ofHistory v h).orders).Nodup := by
  rw [keys_ofHistory]
  exact History.nodup_ids v h

theorem get?_ofHistory (v : Venue) (h : History) (id : Int) :
    (ofHistory v h).get? id = h.order? v id := by
  have hnum := get?_numbered 0 (h.orders v)
    (fun k hk => by rw [History.id_getElem_orders]; omega) id
  rw [get?, ofHistory, hnum, History.order?]
  simp

/-- The number that is given out next is not given out yet. -/
theorem nextId_ofHistory_not_mem_keys (v : Venue) (h : History) :
    (ofHistory v h).nextId ∉ Table.keys (ofHistory v h).orders := by
  rw [← Table.get?_eq_none_iff]
  have hget := get?_ofHistory v h (ofHistory v h).nextId
  rw [get?] at hget
  rw [hget, History.order?]
  split
  · have hnext : (ofHistory v h).nextId = h.accepted.length + 1 := rfl
    refine List.getElem?_eq_none ?_
    rw [History.length_orders, hnext]
    omega
  · rfl

theorem size_ofHistory (v : Venue) (h : History) :
    (ofHistory v h).size = h.accepted.length := by
  rw [size, ofHistory, List.length_map, History.length_orders]

theorem working_ofHistory (v : Venue) (h : History) (symbol : Option String) :
    (ofHistory v h).working symbol = h.working v symbol := by
  have hvalues : Table.values (ofHistory v h).orders = h.orders v := by
    rw [ofHistory, Table.values, List.map_map]
    exact List.map_id _
  rw [working, hvalues]
  rfl

theorem workingAmong_ofHistory (v : Venue) (h : History) (ids : List Int) :
    (ofHistory v h).workingAmong ids = h.workingAmong v ids := by
  rw [workingAmong, ofHistory, List.countP_map]
  rfl

/-! ## Simulation -/

/-- Accepting a request is one more accepted request in the history. -/
theorem submit_ofHistory (v : Venue) (h : History) (t : Moment) (op : Operation)
    {r : OrderRequest} (hr : op.request? = some r) :
    (ofHistory v h).submit t r = (h.next v t r, ofHistory v (h ++ [(t, op)])) := by
  have hlen : (History.accepted (h ++ [(t, op)])).length = h.accepted.length + 1 := by
    rw [History.accepted_concat, hr]
    exact List.length_append
  have hext : (ofHistory v h).extended (h.next v t r) = ofHistory v (h ++ [(t, op)]) := by
    simp only [extended, ofHistory, History.orders_concat_of_request v h t op hr, hlen,
      List.map_append, Int.natCast_add, Int.natCast_one]
    rfl
  rw [submit_of_fresh (nextId_ofHistory_not_mem_keys v h), ← hext]
  rfl

/-- Canceling is one more cancel in the history. -/
theorem canceled_ofHistory (v : Venue) (h : History) (t : Moment) (ids : List Int) :
    (ofHistory v h).canceled t ids = ofHistory v (h ++ [(t, .cancel ids)]) := by
  have hacc : History.accepted (h ++ [(t, .cancel ids)]) = h.accepted :=
    h.accepted_concat_of_no_request rfl
  have hos := History.orders_concat_of_no_request v h t (.cancel ids) rfl
  rw [canceled, ofHistory, ofHistory, hacc, hos, Table.mapValues, List.map_map, List.map_map]
  congr 1
  refine List.map_congr_left fun o _ => ?_
  by_cases hmem : o.id ∈ ids <;> simp [Operation.cancels, hmem]

/-- An operation that neither accepts nor cancels leaves no trace in the ledger. -/
theorem ofHistory_concat_of_idle (v : Venue) (h : History) (t : Moment) (op : Operation)
    (hr : op.request? = none) (hc : ∀ id, op.cancels id = false) :
    ofHistory v (h ++ [(t, op)]) = ofHistory v h := by
  have hacc : History.accepted (h ++ [(t, op)]) = h.accepted :=
    h.accepted_concat_of_no_request hr
  have hos : History.orders v (h ++ [(t, op)]) = h.orders v := by
    rw [History.orders_concat_of_no_request v h t op hr]
    simp [hc]
  rw [ofHistory, hacc, hos, ofHistory]

/-- **The ledger after an operation** is the ledger of the longer history. -/
theorem perform_ofHistory (v : Venue) (h : History) (t : Moment) (op : Operation) :
    ((ofHistory v h).perform t op).1 = ofHistory v (h ++ [(t, op)]) := by
  cases op with
  | submit r => exact congrArg Prod.snd (submit_ofHistory v h t (.submit r) rfl)
  | pass r dryRun =>
    cases dryRun with
    | true => exact congrArg Prod.snd (submit_ofHistory v h t (.pass r true) rfl)
    | false => exact (ofHistory_concat_of_idle v h t (.pass r false) rfl fun _ => rfl).symm
  | cancel ids =>
    rw [← canceled_ofHistory]
    exact congrArg Prod.fst (value_cancel t (nodup_keys_ofHistory v h) ids)
  | get id => exact (ofHistory_concat_of_idle v h t (.get id) rfl fun _ => rfl).symm
  | working symbol => exact (ofHistory_concat_of_idle v h t (.working symbol) rfl fun _ => rfl).symm
  | size => exact (ofHistory_concat_of_idle v h t .size rfl fun _ => rfl).symm

/-- Noting an order fails exactly if one of its amounts has no plain form. -/
theorem outcome_announce (o : Order) :
    (Gate.announce o).outcome.map Answer.order = History.noted o := by
  rw [Gate.announce, History.noted, Order.text, Order.fields]
  cases o.request.quantity.plainText <;> cases o.request.price.plainText <;> rfl

/-- **The answer to an operation** is the one that the history determines. -/
theorem outcome_perform_ofHistory (v : Venue) (h : History) (t : Moment) (op : Operation) :
    ((ofHistory v h).perform t op).2.outcome = h.answer v t op := by
  cases op with
  | submit r =>
    have hfst := congrArg Prod.fst (submit_ofHistory v h t (.submit r) rfl)
    exact congrArg (fun o => Except.ok (Answer.order o)) hfst
  | pass r dryRun =>
    cases dryRun with
    | true =>
      have hfst := congrArg Prod.fst (submit_ofHistory v h t (.pass r true) rfl)
      rw [perform, Gate.submit_dryRun, hfst, Traced.outcome_map]
      exact outcome_announce _
    | false => rfl
  | get id => exact congrArg (fun o => Except.ok (Answer.found o)) (get?_ofHistory v h id)
  | working symbol =>
    exact congrArg (fun os => Except.ok (Answer.orders os)) (working_ofHistory v h symbol)
  | cancel ids =>
    have hvalue := value_cancel t (nodup_keys_ofHistory v h) ids
    rw [perform, Traced.outcome_map, Traced.outcome_ofLogged, hvalue, workingAmong_ofHistory]
    rfl
  | size => exact congrArg (fun n => Except.ok (Answer.count n)) (size_ofHistory v h)

/-! ## Runs -/

theorem run_cons (l : Ledger) (t : Moment) (op : Operation) (h : History) :
    l.run ((t, op) :: h) =
      (((l.perform t op).1.run h).1, (l.perform t op).2 :: ((l.perform t op).1.run h).2) := rfl

/-- Going on from the ledger of a history leads to the ledger of the longer history. -/
theorem fst_run_ofHistory (v : Venue) (past h : History) :
    ((ofHistory v past).run h).1 = ofHistory v (past ++ h) := by
  induction h generalizing past with
  | nil => rw [List.append_nil]; rfl
  | cons e h ih =>
    obtain ⟨t, op⟩ := e
    rw [run_cons, perform_ofHistory, ih, List.append_assoc]
    rfl

/-- **The ledger after a run** is the one that the history of the run describes. -/
theorem fst_run (v : Venue) (h : History) : (({ venue := v } : Ledger).run h).1 = ofHistory v h :=
  fst_run_ofHistory v [] h

/-- A ledger that some run leads to. -/
def Reachable (l : Ledger) : Prop := ∃ v h, (({ venue := v } : Ledger).run h).1 = l

/-- A ledger is reachable exactly if some history describes it. -/
theorem reachable_iff {l : Ledger} : l.Reachable ↔ ∃ v h, ofHistory v h = l := by
  simp only [Reachable, fst_run]

/-- No reachable ledger is about to give out a number again. -/
theorem Reachable.nextId_not_mem_keys {l : Ledger} (hl : l.Reachable) :
    l.nextId ∉ Table.keys l.orders := by
  obtain ⟨v, h, rfl⟩ := reachable_iff.1 hl
  exact nextId_ofHistory_not_mem_keys v h

/-- A fresh ledger is reachable. -/
theorem reachable_fresh (v : Venue) : Reachable { venue := v } := ⟨v, [], rfl⟩

/-- What an operation leads to is reachable again. -/
theorem Reachable.perform {l : Ledger} (hl : l.Reachable) (now : Moment) (op : Operation) :
    (l.perform now op).1.Reachable := by
  obtain ⟨v, h, rfl⟩ := reachable_iff.1 hl
  exact reachable_iff.2 ⟨v, h ++ [(now, op)], (perform_ofHistory v h now op).symm⟩

/-- A reachable ledger has given out as many numbers as it has orders. -/
theorem Reachable.nextId_eq {l : Ledger} (hl : l.Reachable) : l.nextId = l.size + 1 := by
  obtain ⟨v, h, rfl⟩ := reachable_iff.1 hl
  rw [size_ofHistory]
  rfl

theorem snd_run_append (l : Ledger) (past future : History) :
    (l.run (past ++ future)).2 = (l.run past).2 ++ ((l.run past).1.run future).2 := by
  induction past generalizing l with
  | nil => rfl
  | cons e past ih => rw [List.cons_append, run_cons, run_cons, ih]; rfl

theorem length_snd_run (l : Ledger) (h : History) : (l.run h).2.length = h.length := by
  induction h generalizing l with
  | nil => rfl
  | cons e h ih => rw [run_cons, List.length_cons, List.length_cons, ih]

/-- **Every answer is the one that the history determines.**  Whatever a run on a fresh ledger was
asked before an operation, and whatever it is asked afterwards, the operation answers what the
history before it says.  Nothing is assumed about the moments of the run. -/
theorem run_answers_history (v : Venue) (past : History) (now : Moment) (op : Operation)
    (future : History) :
    ((({ venue := v } : Ledger).run (past ++ (now, op) :: future)).2.map
      Traced.outcome)[past.length]? = some (past.answer v now op) := by
  have hat : ((({ venue := v } : Ledger).run (past ++ (now, op) :: future)).2)[past.length]? =
      some ((ofHistory v past).perform now op).2 := by
    rw [snd_run_append, List.getElem?_append_right (Nat.le_of_eq (length_snd_run _ past)),
      length_snd_run, Nat.sub_self, fst_run]
    rfl
  rw [List.getElem?_map, hat, Option.map_some, outcome_perform_ofHistory]

end Ledger

end PaperVenue
