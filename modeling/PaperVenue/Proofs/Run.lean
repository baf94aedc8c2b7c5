/-!
# Runs

A session, a desk and a ledger are all run in the same way: they take steps one after the other,
each from where the one before it ended, and the answers are collected.  Each of them has a `run`
of its own, because a run is part of what they are.

`Runs step run` says that `run` is the run of `step`.  Two things follow from it for all of them
at once: the answer at a place of a run is the answer of the step in that place, taken from where
the steps before it led (`getElem?_snd`), and what every step keeps the run keeps (`invariant`, or
`invariant_of_forall` if it is kept by steps of some kind only).
-/

namespace PaperVenue

/-- The function `run` takes steps one after the other and collects their answers. -/
structure Runs {σ ι ω : Type} (step : σ → ι → σ × ω) (run : σ → List ι → σ × List ω) : Prop where
  nil : ∀ s, run s [] = (s, [])
  cons : ∀ s t ts,
    run s (t :: ts) = ((run (step s t).1 ts).1, (step s t).2 :: (run (step s t).1 ts).2)

namespace Runs

variable {σ ι ω : Type} {step : σ → ι → σ × ω} {run : σ → List ι → σ × List ω}

/-- Steps may be taken in two runs, the second from where the first one led. -/
theorem fst_append (h : Runs step run) (s : σ) (ts us : List ι) :
    (run s (ts ++ us)).1 = (run (run s ts).1 us).1 := by
  induction ts generalizing s with
  | nil => rw [List.nil_append, h.nil]
  | cons t ts ih => rw [List.cons_append, h.cons, h.cons, ih]

/-- The last step of a run is taken from where the others led. -/
theorem fst_concat (h : Runs step run) (s : σ) (ts : List ι) (t : ι) :
    (run s (ts ++ [t])).1 = (step (run s ts).1 t).1 := by
  rw [h.fst_append, h.cons, h.nil]

/-- **The answer to a step of a run** is the one it gives after the steps before it. -/
theorem getElem?_snd (h : Runs step run) (s : σ) (past : List ι) (t : ι) (future : List ι) :
    (run s (past ++ t :: future)).2[past.length]? = some (step (run s past).1 t).2 := by
  induction past generalizing s with
  | nil => rw [List.nil_append, h.cons, h.nil]; rfl
  | cons u past ih =>
    rw [List.cons_append, h.cons, h.cons, List.length_cons, List.getElem?_cons_succ, ih]

/-- What every step of a kind keeps, a run of such steps keeps. -/
theorem invariant_of_forall (h : Runs step run) {p : σ → Prop} {q : ι → Prop}
    (hstep : ∀ s t, q t → p s → p (step s t).1) {s : σ} (hs : p s) {ts : List ι}
    (hts : ∀ t ∈ ts, q t) : p (run s ts).1 := by
  induction ts generalizing s with
  | nil => rwa [h.nil]
  | cons t ts ih =>
    obtain ⟨ht, hts⟩ := List.forall_mem_cons.1 hts
    rw [h.cons]
    exact ih (hstep s t ht hs) hts

/-- What every step keeps, a run keeps. -/
theorem invariant (h : Runs step run) {p : σ → Prop} (hstep : ∀ s t, p s → p (step s t).1)
    {s : σ} (hs : p s) (ts : List ι) : p (run s ts).1 :=
  h.invariant_of_forall (fun s t (_ : True) => hstep s t) hs fun _ _ => trivial

end Runs

end PaperVenue
