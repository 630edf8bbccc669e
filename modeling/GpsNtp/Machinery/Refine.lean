import GpsNtp.Machinery.Run

/-!
# Machinery/Refine — a machine that stands for another

    code    s ──e──▸ s' ──e'──▸ s''
            │        │          │       R
    spec    t ══════ t ───a──▸ t'

A **refinement** relates the states of two machines, and says of each step of the first which step
of the second it stands for, if any.  It is checked one step at a time, and then a run of the code
is a run of its specification, seen from outside the same.
-/

namespace Machine

variable {σ τ ε δ α : Type*} {step : σ → ε → σ} {spec : τ → δ → τ} {R : σ → τ → Prop}
  {stands : σ → ε → Option δ}

/-- **The refinement rule** — a run of the code is related to the run of the specification that it
stands for. -/
theorem run_refines (hstep : ∀ s t e, R s t → R (step s e) (run spec t (stands s e).toList))
    {s : σ} {t : τ} (h : R s t) (evs : List ε) :
    R (run step s evs) (run spec t (collected step stands s evs)) := by
  induction evs generalizing s t with
  | nil => exact h
  | cons e evs ih =>
    rw [collected, run_append]
    exact ih (hstep s t e h)

/-- **The refinement rule for what is seen** — if each step shows what the step it stands for shows,
the two runs show the same. -/
theorem collected_refines {out : σ → ε → Option α} {shown : τ → δ → Option α}
    (hstep : ∀ s t e, R s t → R (step s e) (run spec t (stands s e).toList))
    (hout : ∀ s t e, R s t → out s e = (stands s e).bind (shown t)) {s : σ} {t : τ} (h : R s t)
    (evs : List ε) :
    collected step out s evs = collected spec shown t (collected step stands s evs) := by
  induction evs generalizing s t with
  | nil => rfl
  | cons e evs ih =>
    rw [collected, collected, collected_append, ← ih (hstep s t e h), hout s t e h]
    congr 1
    cases stands s e with
    | none => rfl
    | some a => rw [Option.bind_some, Option.toList_some, collected, collected, List.append_nil]

/-- What is taken from each event alone does not depend on the states of the run. -/
theorem collected_eq_filterMap {pick : σ → ε → Option α} {take : ε → Option α} {evs : List ε}
    (h : ∀ e ∈ evs, ∀ s, pick s e = take e) (s : σ) :
    collected step pick s evs = evs.filterMap take := by
  induction evs generalizing s with
  | nil => rfl
  | cons e evs ih =>
    rw [collected, ih (fun e' he' => h e' (List.mem_cons_of_mem _ he')), h e List.mem_cons_self,
      List.filterMap_cons]
    cases take e <;> rfl

/-- What is taken of what a run gives to take. -/
theorem collected_filter (out : σ → ε → Option α) (p : α → Bool) (s : σ) (evs : List ε) :
    collected step (fun s e => (out s e).filter p) s evs = (collected step out s evs).filter p := by
  induction evs generalizing s with
  | nil => rfl
  | cons e evs ih =>
    rw [collected, collected, List.filter_append, ih]
    cases out s e with
    | none => rfl
    | some a =>
      rw [Option.filter_some, Option.toList_some, List.filter_singleton]
      cases p a <;> rfl

end Machine
