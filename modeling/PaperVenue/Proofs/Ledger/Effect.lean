import PaperVenue.Order.Ledger

/-!
# What the two changes do to a ledger

A ledger changes in two ways.  Submitting adds an order at the end (`submit_of_fresh`), provided
that the number to be given out was not given out before.

`Ledger.cancel` takes its numbers one after the other, and each of them looks the ledger up again.
Told as a whole, it changes every order that is named, once, where it stands, and counts those of
them that were working; the order of the numbers, repetitions and numbers that were never given out
leave no trace.  `value_cancel` says this, and later modules use nothing else about `cancel`.  It
needs that no number stands twice in the table, which canceling keeps (`keys_canceled`).
-/

namespace PaperVenue

/-- Canceling again only moves the time of the last change. -/
theorem Order.cancel_cancel (t u : Moment) (o : Order) :
    (o.cancel t).cancel u = o.cancel u := rfl

namespace Ledger

/-! ## Submitting -/

/-- The ledger with one more order, under the number that is next. -/
def extended (l : Ledger) (o : Order) : Ledger :=
  { l with nextId := l.nextId + 1, orders := l.orders ++ [(l.nextId, o)] }

/-- **Submitting**: a new order stands at the end, under a new number. -/
theorem submit_of_fresh {l : Ledger} (hl : l.nextId ∉ Table.keys l.orders) (now : Moment)
    (r : OrderRequest) :
    l.submit now r =
      (Order.accept l.nextId l.venue now r, l.extended (Order.accept l.nextId l.venue now r)) := by
  rw [submit, Table.put_of_not_mem hl, extended]

/-! ## Canceling -/

/-- The ledger with the orders that `ids` names canceled. -/
def canceled (l : Ledger) (now : Moment) (ids : List Int) : Ledger :=
  { l with
    orders := Table.mapValues (fun id o => if id ∈ ids then o.cancel now else o) l.orders }

/-- How many working orders `ids` names. -/
def workingAmong (l : Ledger) (ids : List Int) : Nat :=
  l.orders.countP fun e => e.2.isWorking && decide (e.1 ∈ ids)

/-- Canceling gives out no number and takes none back. -/
theorem keys_canceled (l : Ledger) (now : Moment) (ids : List Int) :
    Table.keys (l.canceled now ids).orders = Table.keys l.orders := by
  rw [canceled, Table.keys_mapValues]

theorem canceled_nil (l : Ledger) (now : Moment) : l.canceled now [] = l := by
  rw [canceled, Table.mapValues_eq_self]
  exact fun e _ => if_neg List.not_mem_nil

/-- Canceling one number and then others is canceling all of them. -/
theorem canceled_cons (l : Ledger) (now : Moment) (id : Int) (ids : List Int) :
    l.canceled now (id :: ids) = (l.canceled now [id]).canceled now ids := by
  rw [canceled, canceled, canceled]
  congr 1
  rw [Table.mapValues, Table.mapValues, Table.mapValues, List.map_map]
  refine List.map_congr_left fun e _ => ?_
  by_cases h : e.1 = id <;> by_cases h' : e.1 ∈ ids <;> simp [h, h', Order.cancel_cancel]

theorem workingAmong_nil (l : Ledger) : l.workingAmong [] = 0 := by
  simp [workingAmong]

/-- An order that was canceled already is not counted again. -/
theorem workingAmong_cons (l : Ledger) (now : Moment) (id : Int) (ids : List Int) :
    l.workingAmong (id :: ids) = l.workingAmong [id] + (l.canceled now [id]).workingAmong ids := by
  rw [workingAmong, workingAmong, workingAmong, canceled, Table.mapValues]
  induction l.orders with
  | nil => rfl
  | cons e t ih =>
    rw [List.countP_cons, List.countP_cons, List.map_cons, List.countP_cons, ih]
    by_cases h : e.1 = id
    · simp [h]
      omega
    · simp [h]
      omega

/-- **One number**: the order that has it, if there is one, is canceled and counted. -/
theorem value_cancelOne (now : Moment) {l : Ledger} (hl : (Table.keys l.orders).Nodup) (id : Int) :
    (cancelOne now l id).value = (l.canceled now [id], l.workingAmong [id]) := by
  have hcount : l.workingAmong [id] =
      if (Table.get? l.orders id).any Order.isWorking then 1 else 0 := by
    simpa [workingAmong] using Table.countP_key hl Order.isWorking id
  rw [hcount, cancelOne, get?]
  cases hget : Table.get? l.orders id with
  | none =>
    have hkey : id ∉ Table.keys l.orders := Table.get?_eq_none_iff.1 hget
    have hsame : l.canceled now [id] = l := by
      rw [canceled, Table.mapValues_eq_self]
      rintro e he
      refine if_neg fun hmem => hkey ?_
      rw [← List.mem_singleton.1 hmem]
      exact List.mem_map_of_mem he
    rw [hsame]
    rfl
  | some o =>
    have hput := Table.put_eq_mapValues hl hget (Order.cancel now)
    simp [canceled, hput]

/-- **Canceling as a whole**: every order that is named is canceled once, and the working ones
among them are counted. -/
theorem value_cancel (now : Moment) {l : Ledger} (hl : (Table.keys l.orders).Nodup)
    (ids : List Int) :
    (cancel now l ids).value = (l.canceled now ids, l.workingAmong ids) := by
  induction ids generalizing l with
  | nil => rw [canceled_nil, workingAmong_nil]; rfl
  | cons id ids ih =>
    have hone := value_cancelOne now hl id
    have hl' : (Table.keys (l.canceled now [id]).orders).Nodup := by rwa [keys_canceled]
    rw [canceled_cons, workingAmong_cons l now]
    simp only [cancel, Logged.value_bind, Logged.value_pure, hone, ih hl']

end Ledger

end PaperVenue
