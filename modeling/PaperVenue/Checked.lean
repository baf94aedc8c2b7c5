/-!
# Readings that collect every error

A record is refused for the first thing that is wrong with it, and the journal counts everything
that is.  So its parts are read side by side: `Checked.ap` joins two readings and keeps the errors of
both, in order.  A refused reading has at least one error, which `Errors` says by its shape, so the
first error is always there to be reported.
-/

namespace PaperVenue

/-- The errors of a refused value: there is a first one, and there may be others. -/
structure Errors (ε : Type) where
  first : ε
  others : List ε := []

/-- The errors of one value and then of another. -/
def Errors.append {ε : Type} (a b : Errors ε) : Errors ε :=
  { first := a.first, others := a.others ++ b.first :: b.others }

/-- Tell each error something. -/
def Errors.map {ε ε' : Type} (f : ε → ε') (a : Errors ε) : Errors ε' :=
  { first := f a.first, others := a.others.map f }

/-- How many errors there are. -/
def Errors.count {ε : Type} (a : Errors ε) : Nat := a.others.length + 1

@[simp] theorem Errors.count_append {ε : Type} (a b : Errors ε) :
    (a.append b).count = a.count + b.count := by
  simp only [count, append, List.length_append, List.length_cons]
  omega

/-- A reading that collects every error instead of stopping at the first. -/
abbrev Checked (ε α : Type) := Except (Errors ε) α

/-- Apply a function that was read to an argument that was read; the errors of both stand in
order. -/
def Checked.ap {ε α β : Type} : Checked ε (α → β) → Checked ε α → Checked ε β
  | .ok f, .ok a => .ok (f a)
  | .ok _, .error es => .error es
  | .error es, .ok _ => .error es
  | .error es, .error es' => .error (es.append es')

@[simp] theorem Checked.ap_ok {ε α β : Type} (f : α → β) (a : α) :
    Checked.ap (.ok f : Checked ε (α → β)) (.ok a) = .ok (f a) := rfl

/-- Two readings joined succeed exactly if both do. -/
theorem Checked.ap_eq_ok_iff {ε α β : Type} {f : Checked ε (α → β)} {a : Checked ε α} {b : β} :
    Checked.ap f a = .ok b ↔ ∃ g x, f = .ok g ∧ a = .ok x ∧ g x = b := by
  cases f <;> cases a <;> simp [Checked.ap]

end PaperVenue
