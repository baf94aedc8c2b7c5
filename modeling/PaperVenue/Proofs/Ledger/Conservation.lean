import PaperVenue.Proofs.Ledger.History
import Mathlib.Data.List.Dedup

/-!
# Every order is canceled at most once, and counted when it is

A cancel answers how many working orders it canceled.  Numbers may be repeated in one list and come
again in later lists, and may never have been given out, and still nothing is counted twice: the
counts of all cancels so far and the orders that are working make up all orders ever accepted.

Everything is read off the history.  `History.cancelable` is what an operation takes out of work;
`History.cancelable_add_working` balances one operation and `countsOf_add_working` a run.  A single
order is followed by `timesCounted`, and `timesCounted_ofHistory` says that the one cancel which
counts it is the first that names it.
-/

namespace PaperVenue

namespace Ledger

/-- Does the ledger hold a working order with this number? -/
def isOpen (l : Ledger) (id : Int) : Bool := (l.get? id).any Order.isWorking

/-- How many orders an operation says that it canceled; only a cancel says so. -/
def Operation.canceledBy (op : Operation) (answer : Traced Failure Answer) : Nat :=
  match op, answer.outcome with
  | .cancel _, .ok (.count n) => n
  | _, _ => 0

/-- What the cancels of a run say, taken together. -/
def countsOf : History → List (Traced Failure Answer) → Nat
  | e :: h, answer :: answers => e.2.canceledBy answer + countsOf h answers
  | _, _ => 0

/-- How many operations of a run count the order with a number: they cancel it, and it is working
just before. -/
def timesCounted (id : Int) : Ledger → History → Nat
  | _, [] => 0
  | l, (now, op) :: h =>
    (if op.cancels id && l.isOpen id then 1 else 0) + timesCounted id (l.perform now op).1 h

namespace History

/-! ## One operation -/

/-- How many working orders an operation cancels. -/
def cancelable (v : Venue) (h : History) (op : Operation) : Nat :=
  (orders v h).countP fun o => o.isWorking && op.cancels o.id

theorem length_working_none (v : Venue) (h : History) :
    (working v h none).length = (orders v h).countP Order.isWorking := by
  rw [working, ← List.countP_eq_length_filter]
  exact List.countP_congr fun o _ => by simp

/-- Canceling some of a list of orders leaves the working orders that are not among them. -/
theorem countP_working_cancel (p : Order → Bool) (t : Moment) (os : List Order) :
    (os.countP fun o => o.isWorking && p o) +
      (os.map fun o => if p o then o.cancel t else o).countP Order.isWorking =
        os.countP Order.isWorking := by
  induction os with
  | nil => rfl
  | cons o os ih =>
    rw [List.map_cons, List.countP_cons, List.countP_cons, List.countP_cons]
    cases hp : p o with
    | false =>
      simp only [Bool.and_false, Bool.false_eq_true, if_false]
      omega
    | true =>
      have hout : (o.cancel t).isWorking = false := rfl
      simp only [Bool.and_true, if_true, hout, Bool.false_eq_true, if_false]
      omega

/-- Only a cancel takes orders out of work. -/
theorem cancelable_of_no_cancel (v : Venue) (h : History) {op : Operation}
    (hc : ∀ id, op.cancels id = false) : cancelable v h op = 0 :=
  List.countP_eq_zero.2 fun o _ => by simp [hc]

/-- **What an operation cancels** it takes out of work, and what it accepts it puts to work. -/
theorem cancelable_add_working (v : Venue) (h : History) (t : Moment) (op : Operation) :
    cancelable v h op + (working v (h ++ [(t, op)]) none).length + h.accepted.length =
      (working v h none).length + (accepted (h ++ [(t, op)])).length := by
  rw [length_working_none, length_working_none]
  cases hr : op.request? with
  | none =>
    have hbalance := countP_working_cancel (fun o => op.cancels o.id) t (orders v h)
    rw [orders_concat_of_no_request v h t op hr, accepted_concat_of_no_request h hr, cancelable,
      hbalance]
  | some r =>
    have hnew : (next v h t r).isWorking = true := rfl
    rw [cancelable_of_no_cancel v h (Operation.cancels_of_request hr),
      orders_concat_of_request v h t op hr, accepted_concat, hr, List.countP_append,
      List.countP_singleton, if_pos hnew, List.length_append]
    simp only [Option.map_some, Option.toList_some, List.length_singleton]
    omega

/-- A cancel says how many working orders it cancels; nothing else says that it canceled any. -/
theorem canceledBy_perform (v : Venue) (h : History) (t : Moment) (op : Operation) :
    op.canceledBy ((ofHistory v h).perform t op).2 = cancelable v h op := by
  have hanswer := outcome_perform_ofHistory v h t op
  cases op with
  | cancel ids =>
    simp only [Operation.canceledBy, hanswer, answer]
    rfl
  | submit r => exact (cancelable_of_no_cancel v h fun _ => rfl).symm
  | pass r dryRun => exact (cancelable_of_no_cancel v h fun _ => rfl).symm
  | get id => exact (cancelable_of_no_cancel v h fun _ => rfl).symm
  | working symbol => exact (cancelable_of_no_cancel v h fun _ => rfl).symm
  | size => exact (cancelable_of_no_cancel v h fun _ => rfl).symm

/-! ## One order -/

/-- The order with a number is the one that carries it. -/
theorem order?_eq_some_iff (v : Venue) (h : History) (id : Int) (o : Order) :
    order? v h id = some o ↔ o ∈ orders v h ∧ o.id = id := by
  rw [order?]
  constructor
  · intro ho
    split at ho
    · obtain ⟨hk, rfl⟩ := List.getElem?_eq_some_iff.1 ho
      refine ⟨List.getElem_mem hk, ?_⟩
      rw [id_getElem_orders]
      omega
    · exact absurd ho (by simp)
  · rintro ⟨ho, rfl⟩
    obtain ⟨k, hk, rfl⟩ := List.getElem_of_mem ho
    rw [id_getElem_orders, if_pos (by omega), List.getElem?_eq_some_iff]
    exact ⟨by omega, by congr 1⟩

theorem isOpen_ofHistory_iff (v : Venue) (h : History) (id : Int) :
    (ofHistory v h).isOpen id ↔ ∃ o ∈ orders v h, o.isWorking ∧ o.id = id := by
  rw [isOpen, get?_ofHistory, Option.any_eq_true]
  simp only [order?_eq_some_iff]
  exact ⟨fun ⟨o, ⟨ho, hid⟩, hw⟩ => ⟨o, ho, hw, hid⟩, fun ⟨o, ho, hw, hid⟩ => ⟨o, ⟨ho, hid⟩, hw⟩⟩

/-- A list of numbers names as many working orders as it has different numbers of such. -/
theorem workingAmong_eq_countP_dedup (v : Venue) (h : History) (ids : List Int) :
    workingAmong v h ids = ids.dedup.countP (ofHistory v h).isOpen := by
  have hnodup : (((orders v h).filter fun o => o.isWorking && decide (o.id ∈ ids)).map
      Order.id).Nodup :=
    (nodup_ids v h).sublist ((List.filter_sublist).map _)
  have hsame : (((orders v h).filter fun o => o.isWorking && decide (o.id ∈ ids)).map
      Order.id).Perm (ids.dedup.filter (ofHistory v h).isOpen) := by
    rw [List.perm_ext_iff_of_nodup hnodup (ids.nodup_dedup.filter _)]
    intro id
    rw [List.mem_filter, List.mem_dedup, isOpen_ofHistory_iff, List.mem_map]
    simp only [List.mem_filter, Bool.and_eq_true, decide_eq_true_eq]
    constructor
    · rintro ⟨o, ⟨ho, hw, hmem⟩, rfl⟩
      exact ⟨hmem, o, ho, hw, rfl⟩
    · rintro ⟨hmem, o, ho, hw, rfl⟩
      exact ⟨o, ⟨ho, hw, hmem⟩, rfl⟩
  rw [workingAmong, List.countP_eq_length_filter, List.countP_eq_length_filter, ← hsame.length_eq,
    List.length_map]

/-- What was not accepted yet was not canceled either. -/
theorem cancellations_of_not_accepted {k : Nat} {h : History} (hk : ¬ k < h.accepted.length) :
    cancellations k h = [] := by
  obtain rfl | ⟨h, e, rfl⟩ := h.eq_nil_or_concat'
  · cases k <;> rfl
  · rw [accepted_concat, List.length_append] at hk
    rw [cancellations_concat, if_neg (by omega)]

/-- An order is working from its acceptance to the first cancel that names it. -/
theorem isOpen_ofHistory (v : Venue) (h : History) (k : Nat) :
    (ofHistory v h).isOpen (k + 1) =
      (decide (k < h.accepted.length) && (cancellations k h).isEmpty) := by
  have hplace : ((k : Int) + 1).toNat - 1 = k := by omega
  rw [isOpen, get?_ofHistory, order?, if_pos (by omega), hplace, getElem?_orders]
  by_cases hk : k < h.accepted.length
  · rw [List.getElem?_eq_getElem hk, Option.map_some, Option.any_some, order]
    cases hc : cancellations k h with
    | nil => simp [hk]
    | cons u us => simp [List.getLast?_cons]
  · rw [List.getElem?_eq_none (by omega), decide_eq_false hk]
    rfl

/-- An operation counts an order exactly if the order was not canceled before and is now. -/
theorem counted_add_canceled (v : Venue) (h : History) (t : Moment) (op : Operation) (k : Nat) :
    (if op.cancels (k + 1) && (ofHistory v h).isOpen (k + 1) then 1 else 0) +
        (if cancellations k h = [] then 0 else 1) =
      if cancellations k (h ++ [(t, op)]) = [] then 0 else 1 := by
  rw [isOpen_ofHistory, cancellations_concat]
  by_cases hk : k < h.accepted.length
  · cases hc : op.cancels (k + 1) <;> cases hu : cancellations k h <;> simp [hk]
  · simp [hk, cancellations_of_not_accepted hk]

end History

/-! ## Runs -/

theorem countsOf_cons (l : Ledger) (t : Moment) (op : Operation) (h : History) :
    countsOf ((t, op) :: h) (l.run ((t, op) :: h)).2 =
      op.canceledBy (l.perform t op).2 + countsOf h ((l.perform t op).1.run h).2 := by
  rw [run_cons, countsOf]

/-- What a run cancels it takes out of work, and what it accepts it puts to work. -/
theorem countsOf_add_working (v : Venue) (past h : History) :
    countsOf h ((ofHistory v past).run h).2 + (History.working v (past ++ h) none).length +
        past.accepted.length =
      (past.working v none).length + (History.accepted (past ++ h)).length := by
  induction h generalizing past with
  | nil => simp [countsOf]
  | cons e h ih =>
    obtain ⟨t, op⟩ := e
    have hstep := past.cancelable_add_working v t op
    have hrest := ih (past ++ [(t, op)])
    rw [List.append_assoc, List.singleton_append] at hrest
    rw [countsOf_cons, History.canceledBy_perform, perform_ofHistory]
    omega

/-- The one operation of a run that counts an order is the one that ends its work. -/
theorem timesCounted_ofHistory (v : Venue) (past h : History) (k : Nat) :
    timesCounted (k + 1) (ofHistory v past) h + (if past.cancellations k = [] then 0 else 1) =
      if History.cancellations k (past ++ h) = [] then 0 else 1 := by
  induction h generalizing past with
  | nil => simp [timesCounted]
  | cons e h ih =>
    obtain ⟨t, op⟩ := e
    have hstep := past.counted_add_canceled v t op k
    have hrest := ih (past ++ [(t, op)])
    rw [List.append_assoc, List.singleton_append] at hrest
    rw [timesCounted, perform_ofHistory]
    omega

/-- **Cancellations are conserved.**  After any run on a fresh ledger the counts of all cancels and
the orders that are working make up all orders; an order that some cancel named after it was
accepted is counted once and any other never; and each count is the number of different numbers in
the list that belong to an order working just before. -/
theorem cancellations_conserved (v : Venue) (h : History) :
    let fresh : Ledger := { venue := v }
    let l := (fresh.run h).1
    countsOf h (fresh.run h).2 + (l.working none).length = l.size ∧
      (∀ k : Nat, timesCounted (k + 1) fresh h = if h.cancellations k = [] then 0 else 1) ∧
      ∀ now ids (future : History),
        ((fresh.run (h ++ (now, .cancel ids) :: future)).2.map Traced.outcome)[h.length]? =
          some (.ok (.count (ids.dedup.countP l.isOpen))) := by
  intro fresh l
  have hl : l = ofHistory v h := fst_run v h
  refine ⟨?_, fun k => ?_, fun now ids future => ?_⟩
  · have hrun := countsOf_add_working v [] h
    rw [List.nil_append] at hrun
    rw [hl, working_ofHistory, size_ofHistory]
    exact hrun.trans (Nat.zero_add _)
  · have hnone : History.cancellations k [] = [] :=
      History.cancellations_of_not_accepted (Nat.not_lt_zero k)
    have hrun := timesCounted_ofHistory v [] h k
    rwa [hnone, if_pos rfl] at hrun
  · have hat : (fresh.run (h ++ (now, .cancel ids) :: future)).2[h.length]? =
        some ((ofHistory v h).perform now (.cancel ids)).2 := by
      rw [snd_run_append, List.getElem?_append_right (Nat.le_of_eq (length_snd_run _ h)),
        length_snd_run, Nat.sub_self, fst_run]
      rfl
    rw [List.getElem?_map, hat, Option.map_some, outcome_perform_ofHistory, hl,
      ← History.workingAmong_eq_countP_dedup]
    rfl

end Ledger

end PaperVenue
