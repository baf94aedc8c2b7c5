import PaperVenue.Proofs.Decimal.Overflow
import PaperVenue.Proofs.Ledger.History

/-!
# Is a submission all or nothing?

A host would like a submission to have happened, with an order, an entry in the ledger and a note of
it in the journal, or not to have happened at all.  `Gate.AllOrNothing` says so of one passage
through the gate.

It does not always hold.  In a dry run the ledger accepts the request first, and the note is written
afterwards; the note gives the amounts in plain notation, and an amount that has no plain form stops
it.  Then the host gets a signal, no note is written, and the order is in the ledger for good.
`submit_allOrNothing_iff` says that this is the only way in which a submission can fall in between,
and names the amounts: those that are not `Decimal.Reportable`.
-/

namespace PaperVenue

/-- Does a note report the order with a number? -/
def Note.Reports (n : Note) (id : Int) : Prop :=
  ∃ fields, ("order", FieldValue.group fields) ∈ n.fields ∧
    ("order_id", FieldValue.integer id) ∈ fields

/-- The notes of severity `info`. -/
def infoNotes (notes : List Note) : List Note := notes.filter fun n => n.severity = .info

namespace Gate

variable {l l' : Ledger} {answer : Traced Failure Order}

/-! ## The two ways in which a submission should end -/

/-- The submission happened: the order is returned, it is the one thing that the ledger gained,
under a number that was free, and one info note reports it and nothing else. -/
structure Happened (l l' : Ledger) (answer : Traced Failure Order) (o : Order) : Prop where
  outcome_eq : answer.outcome = .ok o
  id_eq : o.id = l.nextId
  get?_eq : l.get? o.id = none
  ledger_eq : l' = l.extended o
  notes_eq : ∃ n, infoNotes answer.notes = [n] ∧ n.Reports o.id

/-- The submission did not happen: it failed, and it left the ledger and the info notes alone. -/
structure DidNotHappen (l l' : Ledger) (answer : Traced Failure Order) : Prop where
  outcome_eq : ∃ e, answer.outcome = .error e
  ledger_eq : l' = l
  notes_eq : infoNotes answer.notes = []

/-- The submission happened as a whole, or not at all. -/
def AllOrNothing (l l' : Ledger) (answer : Traced Failure Order) : Prop :=
  (∃ o, Happened l l' answer o) ∨ DidNotHappen l l' answer

/-! ## Noting an order -/

/-- An order whose amounts can be written is noted once, with its number. -/
theorem announce_of_reportable {o : Order} (hq : o.request.quantity.Reportable)
    (hp : o.request.price.Reportable) :
    (announce o).outcome = .ok o ∧
      ∃ n, infoNotes (announce o).notes = [n] ∧ n.Reports o.id := by
  obtain ⟨q, hq⟩ := (Decimal.exists_plainText_iff _).2 hq
  obtain ⟨p, hp⟩ := (Decimal.exists_plainText_iff _).2 hp
  rw [announce, Order.text, Order.fields, hq, hp]
  refine ⟨rfl, _, rfl, _, List.mem_singleton.2 rfl, ?_⟩
  exact List.mem_cons_of_mem _ List.mem_cons_self

/-- An order with an amount that cannot be written is not noted, and noting it signals. -/
theorem announce_of_not_reportable {o : Order}
    (h : ¬ (o.request.quantity.Reportable ∧ o.request.price.Reportable)) :
    (∃ s, (announce o).outcome = .error (.arithmetic s)) ∧ infoNotes (announce o).notes = [] := by
  rw [← Decimal.exists_plainText_iff, ← Decimal.exists_plainText_iff] at h
  rw [announce, Order.text]
  cases hq : o.request.quantity.plainText with
  | error s => exact ⟨⟨s, rfl⟩, rfl⟩
  | ok q =>
    cases hp : o.request.price.plainText with
    | error s => exact ⟨⟨s, rfl⟩, rfl⟩
    | ok p => exact absurd ⟨⟨q, hq⟩, ⟨p, hp⟩⟩ h

/-! ## Passing the gate -/

/-- A request that is turned away leaves nothing behind but a warning. -/
theorem didNotHappen_live (l : Ledger) (now : Moment) (r : OrderRequest) :
    DidNotHappen l (submit l now r false).1 (submit l now r false).2 :=
  ⟨⟨_, rfl⟩, rfl, rfl⟩

/-- What a dry run does with a request: the ledger has the order, whatever the journal says. -/
theorem submit_dryRun_of_reachable (hl : l.Reachable) (now : Moment) (r : OrderRequest) :
    submit l now r true =
      (l.extended (Order.accept l.nextId l.venue now r),
        announce (Order.accept l.nextId l.venue now r)) := by
  rw [submit_dryRun, Ledger.submit_of_fresh hl.nextId_not_mem_keys]

theorem happened_dryRun (hl : l.Reachable) (now : Moment) {r : OrderRequest}
    (hq : r.quantity.Reportable) (hp : r.price.Reportable) :
    Happened l (submit l now r true).1 (submit l now r true).2
      (Order.accept l.nextId l.venue now r) := by
  have hnoted : (announce (Order.accept l.nextId l.venue now r)).outcome = _ ∧ _ :=
    announce_of_reportable hq hp
  rw [submit_dryRun_of_reachable hl]
  exact ⟨hnoted.1, rfl, Table.get?_eq_none_iff.2 hl.nextId_not_mem_keys, rfl, hnoted.2⟩

/-- **In between**: the order is stored, and all the host gets is a signal. -/
theorem stored_of_not_reportable (hl : l.Reachable) (now : Moment) {r : OrderRequest}
    (h : ¬ (r.quantity.Reportable ∧ r.price.Reportable)) :
    (∃ s, (submit l now r true).2.outcome = .error (.arithmetic s)) ∧
      (submit l now r true).1 = l.extended (Order.accept l.nextId l.venue now r) ∧
      infoNotes (submit l now r true).2.notes = [] := by
  have hnoted : (∃ s, (announce (Order.accept l.nextId l.venue now r)).outcome = _) ∧ _ :=
    announce_of_not_reportable h
  rw [submit_dryRun_of_reachable hl]
  exact ⟨hnoted.1, rfl, hnoted.2⟩

theorem extended_ne (l : Ledger) (o : Order) : l.extended o ≠ l := by
  intro h
  have hlen := congrArg (fun l : Ledger => l.orders.length) h
  simp [Ledger.extended] at hlen

/-- **A submission is all or nothing exactly if it is turned away or both of its amounts can be
written.**  If neither is the case the order is in the ledger, and the submission failed without a
note. -/
theorem submit_allOrNothing_iff (hl : l.Reachable) (now : Moment) (r : OrderRequest)
    (dryRun : Bool) :
    (AllOrNothing l (submit l now r dryRun).1 (submit l now r dryRun).2 ↔
      dryRun = false ∨ r.quantity.Reportable ∧ r.price.Reportable) ∧
    (AllOrNothing l (submit l now r dryRun).1 (submit l now r dryRun).2 ∨
      (∃ s, (submit l now r dryRun).2.outcome = .error (.arithmetic s)) ∧
        (submit l now r dryRun).1 = l.extended (Order.accept l.nextId l.venue now r) ∧
        infoNotes (submit l now r dryRun).2.notes = []) := by
  cases dryRun with
  | false =>
    have hnothing : AllOrNothing l (submit l now r false).1 (submit l now r false).2 :=
      Or.inr (didNotHappen_live l now r)
    exact ⟨⟨fun _ => Or.inl rfl, fun _ => hnothing⟩, Or.inl hnothing⟩
  | true =>
    by_cases hr : r.quantity.Reportable ∧ r.price.Reportable
    · have hall : AllOrNothing l (submit l now r true).1 (submit l now r true).2 :=
        Or.inl ⟨_, happened_dryRun hl now hr.1 hr.2⟩
      exact ⟨⟨fun _ => Or.inr hr, fun _ => hall⟩, Or.inl hall⟩
    · have hstored := stored_of_not_reportable hl now hr
      refine ⟨⟨?_, fun h => absurd (h.resolve_left Bool.noConfusion) hr⟩, Or.inr hstored⟩
      obtain ⟨⟨s, hs⟩, hledger, -⟩ := hstored
      rintro (⟨o, ho⟩ | hnot)
      · exact absurd (hs.symm.trans ho.outcome_eq) (by simp)
      · exact absurd (hledger.symm.trans hnot.ledger_eq) (extended_ne l _)

/-- A request for as much as can be written with 29 nines in front of the edge of the range:
rounding to 28 digits carries it over. -/
def edgeRequest : OrderRequest :=
  { symbol := "PM", side := .buy, orderType := .limit
    quantity := .finite false (10 ^ 29 - 1) 999971, price := .ofNat 1 }

/-- On the edge the carry alone decides: the first order of a fresh ledger is stored and not
returned. -/
theorem submit_allOrNothing_iff_edge :
    Ledger.Reachable {} ∧ ¬ edgeRequest.quantity.Reportable ∧
      ¬ AllOrNothing {} (submit {} 1 edgeRequest true).1 (submit {} 1 edgeRequest true).2 := by
  have hreach : Ledger.Reachable {} := ⟨.polymarket, [], rfl⟩
  have hlarge : Decimal.TooLarge (10 ^ 29 - 1) 999971 := by
    rw [Decimal.TooLarge, Decimal.Carries]
    decide
  refine ⟨hreach, fun h => h hlarge, fun hall => ?_⟩
  rcases (submit_allOrNothing_iff hreach 1 edgeRequest true).1.1 hall with h | ⟨hq, -⟩
  · exact Bool.noConfusion h
  · exact hq hlarge

/-- **A submission is not always all or nothing**: a fresh ledger keeps the order on the edge, and
the host gets a signal for it. -/
theorem not_forall_allOrNothing :
    ¬ ∀ (l : Ledger) (now : Moment) (r : OrderRequest) (dryRun : Bool), l.Reachable →
      AllOrNothing l (submit l now r dryRun).1 (submit l now r dryRun).2 := by
  intro h
  have hsignal : (submit {} 1 edgeRequest true).2.outcome = .error (.arithmetic .overflow) := rfl
  rcases h {} 1 edgeRequest true ⟨.polymarket, [], rfl⟩ with ⟨o, ho⟩ | hnot
  · exact absurd (hsignal.symm.trans ho.outcome_eq) (by simp)
  · exact absurd (congrArg Ledger.size hnot.ledger_eq) (by decide)

end Gate

end PaperVenue
