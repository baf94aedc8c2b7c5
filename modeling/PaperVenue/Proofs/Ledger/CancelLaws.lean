import PaperVenue.Proofs.Exchange.Bookkeeping

/-!
# The algebra of canceling

A cancel goes through a list of numbers one by one, and looks the ledger up again for each.  What
comes of it is nevertheless a matter of sets: which numbers of the list were given out.  Their order
does not count, nor does a repetition, nor a number that nobody has.  So cancels that come at one
moment can be put together, taken apart and exchanged, and to cancel again does nothing but to move
the time of the last change.

`CancelLaws` lists these laws for anything that holds a ledger and can cancel.  For a ledger they
follow from `Ledger.value_cancel`, which says what a cancel does as a whole, and two lemmas on lists
that are joined, `Ledger.canceled_append` and `Ledger.workingAmong_append`.  An exchange inherits
them through `CancelLaws.of_ledger`, because it passes its list on.
-/

namespace PaperVenue

namespace Ledger

/-! ## Numbers that were given out -/

/-- Was the number given out? -/
def Issued (l : Ledger) (id : Int) : Prop := 1 ≤ id ∧ id < l.nextId

/-- The numbers of the stored orders are those that were given out. -/
theorem Reachable.mem_keys_iff {l : Ledger} (hl : l.Reachable) {id : Int} :
    id ∈ Table.keys l.orders ↔ l.Issued id := by
  obtain ⟨v, h, rfl⟩ := reachable_iff.1 hl
  have hget : Table.get? (ofHistory v h).orders id = h.order? v id := get?_ofHistory v h id
  have hnext : (ofHistory v h).nextId = h.accepted.length + 1 := rfl
  rw [← not_iff_not, ← Table.get?_eq_none_iff, hget, History.order?, Issued, hnext]
  by_cases hpos : 1 ≤ id
  · rw [if_pos hpos, List.getElem?_eq_none_iff, History.length_orders]
    omega
  · rw [if_neg hpos]
    exact iff_of_true rfl fun h => hpos h.1

theorem Reachable.nodup_keys {l : Ledger} (hl : l.Reachable) : (Table.keys l.orders).Nodup := by
  obtain ⟨v, h, rfl⟩ := reachable_iff.1 hl
  exact nodup_keys_ofHistory v h

/-! ## Lists of numbers -/

/-- Canceling some numbers and then others, at one moment, is canceling all of them. -/
theorem canceled_append (l : Ledger) (now : Moment) (xs ys : List Int) :
    l.canceled now (xs ++ ys) = (l.canceled now xs).canceled now ys := by
  induction xs generalizing l with
  | nil => rw [canceled_nil, List.nil_append]
  | cons x xs ih => rw [List.cons_append, canceled_cons, ih, ← canceled_cons]

/-- What was canceled with the first numbers is not counted again with the others. -/
theorem workingAmong_append (l : Ledger) (now : Moment) (xs ys : List Int) :
    l.workingAmong (xs ++ ys) = l.workingAmong xs + (l.canceled now xs).workingAmong ys := by
  induction xs generalizing l with
  | nil => rw [canceled_nil, List.nil_append, workingAmong_nil, Nat.zero_add]
  | cons x xs ih =>
    rw [List.cons_append, workingAmong_cons l now, ih, ← canceled_cons,
      workingAmong_cons l now x xs, Nat.add_assoc]

section Congruence

variable {l : Ledger} {xs ys : List Int}

/-- Canceling sees of a list which of the stored orders it names. -/
theorem canceled_congr (now : Moment) (h : ∀ id ∈ Table.keys l.orders, (id ∈ xs ↔ id ∈ ys)) :
    l.canceled now xs = l.canceled now ys := by
  rw [canceled, canceled]
  congr 1
  refine List.map_congr_left fun e he => ?_
  have hiff := h e.1 (List.mem_map_of_mem he)
  show (e.1, if e.1 ∈ xs then e.2.cancel now else e.2) =
    (e.1, if e.1 ∈ ys then e.2.cancel now else e.2)
  by_cases hx : e.1 ∈ xs
  · rw [if_pos hx, if_pos (hiff.1 hx)]
  · rw [if_neg hx, if_neg fun hy => hx (hiff.2 hy)]

theorem workingAmong_congr (h : ∀ id ∈ Table.keys l.orders, (id ∈ xs ↔ id ∈ ys)) :
    l.workingAmong xs = l.workingAmong ys := by
  refine List.countP_congr fun e he => ?_
  have hiff := h e.1 (List.mem_map_of_mem he)
  rw [Bool.and_eq_true, Bool.and_eq_true, decide_eq_true_iff, decide_eq_true_iff, hiff]

end Congruence

/-! ## Canceling again -/

/-- The ledger with another time for the last change of the orders that `ids` names. -/
def retimed (l : Ledger) (now : Moment) (ids : List Int) : Ledger :=
  { l with
    orders :=
      Table.mapValues (fun id o => if id ∈ ids then { o with updated := now } else o) l.orders }

/-- To cancel what was canceled before only moves the time of the last change. -/
theorem canceled_canceled (l : Ledger) (t u : Moment) (ids : List Int) :
    (l.canceled t ids).canceled u ids = (l.canceled t ids).retimed u ids := by
  rw [canceled, canceled, retimed]
  congr 1
  rw [Table.mapValues, Table.mapValues, Table.mapValues, List.map_map, List.map_map]
  refine List.map_congr_left fun e _ => ?_
  by_cases hmem : e.1 ∈ ids
  · simp only [Function.comp_apply, if_pos hmem]
    rfl
  · simp only [Function.comp_apply, if_neg hmem]

/-- Nothing that was canceled works. -/
theorem workingAmong_canceled (l : Ledger) (t : Moment) (ids : List Int) :
    (l.canceled t ids).workingAmong ids = 0 := by
  rw [workingAmong, List.countP_eq_zero, canceled]
  intro e he
  obtain ⟨⟨id, o⟩, -, rfl⟩ := List.mem_map.1 he
  by_cases hmem : id ∈ ids
  · simp [hmem]
  · simp [hmem]

/-- An order that is not named stays as it is. -/
theorem get?_canceled_of_not_mem (l : Ledger) (t : Moment) {ids : List Int} {id : Int}
    (h : id ∉ ids) : (l.canceled t ids).get? id = l.get? id := by
  rw [get?, canceled, Table.get?_mapValues, get?]
  simp only [if_neg h, Option.map_id']

end Ledger

/-! ## The laws -/

section Laws

variable {σ : Type} (ledger : σ → Ledger) (put : σ → Ledger → σ)
  (cancel : Moment → σ → List Int → σ × Nat)

/-- Cancel two lists, one after the other and both at one moment; the counts are added. -/
def cancelInTurn (now : Moment) (s : σ) (xs ys : List Int) : σ × Nat :=
  ((cancel now (cancel now s xs).1 ys).1,
    (cancel now s xs).2 + (cancel now (cancel now s xs).1 ys).2)

/-- The laws of canceling, for something that holds a ledger. -/
structure CancelLaws (s : σ) : Prop where
  /-- Only the set of the issued numbers counts. -/
  bySet : ∀ now xs ys, (∀ id, (ledger s).Issued id → (id ∈ xs ↔ id ∈ ys)) →
    cancel now s xs = cancel now s ys
  /-- Two lists in turn are one list. -/
  inTurn : ∀ now xs ys, cancelInTurn cancel now s xs ys = cancel now s (xs ++ ys)
  /-- Two lists may be exchanged. -/
  comm : ∀ now xs ys, cancelInTurn cancel now s xs ys = cancelInTurn cancel now s ys xs
  /-- Canceling the same list again counts nothing and moves the time of the last change. -/
  again : ∀ now later ids,
    cancel later (cancel now s ids).1 ids =
      (put (cancel now s ids).1 ((ledger (cancel now s ids).1).retimed later ids), 0)
  /-- Nothing outside the ledger changes, nor do the numbers in it. -/
  frame : ∀ now ids,
    (cancel now s ids).1 = put s (ledger (cancel now s ids).1) ∧
      (ledger (cancel now s ids).1).venue = (ledger s).venue ∧
      (ledger (cancel now s ids).1).nextId = (ledger s).nextId ∧
      Table.keys (ledger (cancel now s ids).1).orders = Table.keys (ledger s).orders
  /-- Nor do the orders that are not named. -/
  others : ∀ now ids id, id ∉ ids →
    (ledger (cancel now s ids).1).get? id = (ledger s).get? id

end Laws

/-- Cancel orders of a ledger, and count those that were working. -/
def Ledger.cancelCounted (now : Moment) (l : Ledger) (ids : List Int) : Ledger × Nat :=
  (l.cancel now ids).value

/-- Cancel orders of an exchange; the count is the one that its ledger gives. -/
def Exchange.cancelCounted (around : Surroundings) (now : Moment) (x : Exchange) (ids : List Int) :
    Exchange × Nat :=
  ((x.cancelOrders { around with now } ids).1, (x.ledger.cancelCounted now ids).2)

/-- The note on how many of the named orders were canceled. -/
def canceledNote (count named : Nat) : Note :=
  { severity := .debug, part := .exchange
    message := Text.ofString
      ("Canceled " ++ toString count ++ " of " ++ toString named ++ " referenced orders") }

/-- The laws hold of every ledger that a run leads to. -/
theorem CancelLaws.of_reachable {l : Ledger} (hl : l.Reachable) :
    CancelLaws id (fun _ l => l) Ledger.cancelCounted l := by
  have hcancel : ∀ now ids, Ledger.cancelCounted now l ids =
      (l.canceled now ids, l.workingAmong ids) :=
    fun now ids => Ledger.value_cancel now hl.nodup_keys ids
  have hagain : ∀ now later xs ys, Ledger.cancelCounted later (l.canceled now xs) ys =
      ((l.canceled now xs).canceled later ys, (l.canceled now xs).workingAmong ys) := by
    intro now later xs ys
    refine Ledger.value_cancel later ?_ ys
    rw [Ledger.keys_canceled]
    exact hl.nodup_keys
  have hset : ∀ now xs ys, (∀ id, l.Issued id → (id ∈ xs ↔ id ∈ ys)) →
      Ledger.cancelCounted now l xs = Ledger.cancelCounted now l ys := by
    intro now xs ys h
    have hkeys : ∀ id ∈ Table.keys l.orders, (id ∈ xs ↔ id ∈ ys) :=
      fun id hid => h id (hl.mem_keys_iff.1 hid)
    rw [hcancel, hcancel, Ledger.canceled_congr now hkeys, Ledger.workingAmong_congr hkeys]
  have hturn : ∀ now xs ys, cancelInTurn Ledger.cancelCounted now l xs ys =
      Ledger.cancelCounted now l (xs ++ ys) := by
    intro now xs ys
    simp only [cancelInTurn, hcancel, hagain]
    rw [Ledger.canceled_append, Ledger.workingAmong_append l now]
  refine ⟨hset, hturn, fun now xs ys => ?_, fun now later ids => ?_, fun now ids => ?_,
    fun now ids id hid => ?_⟩
  · rw [hturn, hturn]
    exact hset now _ _ fun id _ => by rw [List.mem_append, List.mem_append, or_comm]
  · rw [hcancel, hagain, Ledger.canceled_canceled, Ledger.workingAmong_canceled]
    rfl
  · rw [hcancel]
    exact ⟨rfl, rfl, rfl, Ledger.keys_canceled l now ids⟩
  · rw [hcancel]
    exact Ledger.get?_canceled_of_not_mem l now hid

/-- **An exchange passes its list on**: whatever laws its ledger obeys, it obeys. -/
theorem CancelLaws.of_ledger {x : Exchange} (around : Surroundings)
    (h : CancelLaws id (fun _ l => l) Ledger.cancelCounted x.ledger) :
    CancelLaws Exchange.ledger (fun x l => { x with ledger := l })
      (Exchange.cancelCounted around) x where
  bySet now xs ys hxs :=
    congrArg (fun r : Ledger × Nat => ({ x with ledger := r.1 }, r.2)) (h.bySet now xs ys hxs)
  inTurn now xs ys :=
    congrArg (fun r : Ledger × Nat => ({ x with ledger := r.1 }, r.2)) (h.inTurn now xs ys)
  comm now xs ys :=
    congrArg (fun r : Ledger × Nat => ({ x with ledger := r.1 }, r.2)) (h.comm now xs ys)
  again now later ids :=
    congrArg (fun r : Ledger × Nat => ({ x with ledger := r.1 }, r.2)) (h.again now later ids)
  frame now ids := ⟨rfl, (h.frame now ids).2⟩
  others now ids id hid := h.others now ids id hid

/-- The exchange notes the count behind whatever its ledger noted. -/
theorem Exchange.notes_cancelOrders (x : Exchange) (around : Surroundings) (ids : List Int) :
    (x.cancelOrders around ids).2.notes =
      (x.ledger.cancel around.now ids).notes ++
        [canceledNote (x.ledger.cancelCounted around.now ids).2 ids.length] := rfl

/-- **The algebra of canceling.**  On every ledger that some run leads to, and on every exchange
that some session leads to, a cancel depends on the set of the issued numbers it names and on
nothing else of its list; two cancels at one moment are one, and may be exchanged, with the same
count in all; a second cancel of the same list counts nothing and only moves the time of the last
change; and the orders that are not named, the next number and the stored numbers stay as they are.
The count of an exchange is in its journal. -/
theorem cancel_laws_after_run (v : Venue) (h : Ledger.History) (settings : Option Settings)
    (start around : Surroundings) (ts : List Session.Step) :
    let l := (({ venue := v } : Ledger).run h).1
    let x := (({ around := start, exchange := { settings } } : Session).after ts).exchange
    CancelLaws id (fun _ l => l) Ledger.cancelCounted l ∧
      CancelLaws Exchange.ledger (fun x l => { x with ledger := l })
        (Exchange.cancelCounted around) x ∧
      ∀ ids, (x.cancelOrders around ids).2.notes.getLast? =
        some (canceledNote (x.cancelCounted around around.now ids).2 ids.length) := by
  intro l x
  have hl : l.Reachable := ⟨v, h, rfl⟩
  have hx : x.ledger.Reachable := Session.reachable_after (Ledger.reachable_fresh .polymarket) ts
  refine ⟨.of_reachable hl, .of_ledger around (.of_reachable hx), fun ids => ?_⟩
  rw [Exchange.notes_cancelOrders, List.getLast?_concat]
  rfl

end PaperVenue
