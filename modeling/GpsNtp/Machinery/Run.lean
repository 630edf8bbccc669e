import Mathlib.Algebra.BigOperators.Group.List.Basic
import Mathlib.Algebra.GroupWithZero.Nat
import Mathlib.Data.List.Induction
import Mathlib.Logic.Function.Iterate

/-!
# Machinery/Run — runs of a deterministic machine

    s ──e₁──▸ s₁ ──e₂──▸ s₂ ⋯          run step s [e₁, e₂, …]

A machine is a step function; a run is its fold over a list of events, and a machine with outputs
also leaves a **transcript** pairing each event with the output it produced.  Every whole-run
theorem here is one induction over the event list, so that a development states what *one* step
does and cites the rule: an invariant (`run_induction`), an invariant that also reads the history
(`run_history_induction`), two runs kept in a relation while one of them skips events
(`run_filter_related`, `run_kept_related`, `transcript_filter_related`), and a counter
(`run_eq_iterate`, `exec_eq_iterate`).
-/

namespace Machine

variable {σ ε ω α : Type*}

/-- The state a machine reaches from `s` on a list of events. -/
def run (step : σ → ε → σ) : σ → List ε → σ := List.foldl step

section Run

variable (step : σ → ε → σ)

@[simp] theorem run_nil (s : σ) : run step s [] = s := rfl

@[simp] theorem run_cons (s : σ) (e : ε) (evs : List ε) :
    run step s (e :: evs) = run step (step s e) evs := rfl

@[simp] theorem run_append (s : σ) (evs evs' : List ε) :
    run step s (evs ++ evs') = run step (run step s evs) evs' := List.foldl_append

variable {step}

/-- **The invariant rule** — what one step keeps, a run keeps. -/
theorem run_induction {Inv : σ → Prop} (hstep : ∀ s e, Inv s → Inv (step s e)) {s : σ}
    (h : Inv s) (evs : List ε) : Inv (run step s evs) := by
  induction evs generalizing s with
  | nil => exact h
  | cons e evs ih => exact ih (hstep s e h)

/-- **The history rule** — an invariant relating the state to the events that led to it. -/
theorem run_history_induction {Inv : List ε → σ → Prop} {s : σ} (h : Inv [] s)
    (hstep : ∀ hist s e, Inv hist s → Inv (hist ++ [e]) (step s e)) (evs : List ε) :
    Inv evs (run step s evs) := by
  induction evs using List.reverseRecOn with
  | nil => exact h
  | append_singleton evs e ih =>
    rw [run_append]
    exact hstep evs _ e ih

/-- Every event of a run meets a state it satisfies `P` with. -/
def Throughout (step : σ → ε → σ) (P : σ → ε → Prop) : σ → List ε → Prop
  | _, [] => True
  | s, e :: evs => P s e ∧ Throughout step P (step s e) evs

instance Throughout.decidable {P : σ → ε → Prop} [∀ s e, Decidable (P s e)] :
    ∀ (s : σ) (evs : List ε), Decidable (Throughout step P s evs)
  | _, [] => .isTrue trivial
  | s, e :: evs =>
    have : Decidable (Throughout step P (step s e) evs) := Throughout.decidable (step s e) evs
    inferInstanceAs (Decidable (_ ∧ _))

theorem throughout_append {P : σ → ε → Prop} {s : σ} {evs evs' : List ε} :
    Throughout step P s (evs ++ evs') ↔
      Throughout step P s evs ∧ Throughout step P (run step s evs) evs' := by
  induction evs generalizing s with
  | nil => exact (iff_of_eq (true_and _)).symm
  | cons e evs ih => simp only [List.cons_append, Throughout, ih, run_cons, and_assoc]

theorem throughout_of_forall {P : ε → Prop} {evs : List ε} (h : ∀ e ∈ evs, P e) (s : σ) :
    Throughout step (fun _ e => P e) s evs := by
  induction evs generalizing s with
  | nil => trivial
  | cons e evs ih =>
    exact ⟨h e List.mem_cons_self, ih (fun e' he' => h e' (List.mem_cons_of_mem _ he')) _⟩

/-- **The guarded invariant rule** — what every step taken under `P` keeps, a run under `P`
keeps. -/
theorem run_throughout {P : σ → ε → Prop} {Inv : σ → Prop}
    (hstep : ∀ s e, P s e → Inv s → Inv (step s e)) {s : σ} (h : Inv s) {evs : List ε}
    (hevs : Throughout step P s evs) : Inv (run step s evs) := by
  induction evs generalizing s with
  | nil => exact h
  | cons e evs ih => exact ih (hstep s e hevs.1 h) hevs.2

/-- **The switch rule** — what holds at the end of a run and not at its start was brought about
by one of its steps. -/
theorem run_switch {P : σ → Prop} {s : σ} (h₀ : ¬P s) {evs : List ε} (h : P (run step s evs)) :
    ∃ pre e post, evs = pre ++ e :: post ∧ ¬P (run step s pre) ∧ P (step (run step s pre) e) := by
  induction evs using List.reverseRecOn with
  | nil => exact absurd h h₀
  | append_singleton evs e ih =>
    by_cases hprev : P (run step s evs)
    · obtain ⟨pre, e', post, rfl, hpre, hpost⟩ := ih hprev
      exact ⟨pre, e', post ++ [e], by simp, hpre, hpost⟩
    · rw [run_append] at h
      exact ⟨evs, e, [], rfl, hprev, h⟩

/-- **The deletion rule** — two runs stay related when one of them skips the events that the
relation does not see. -/
theorem run_filter_related {R : σ → σ → Prop} {keep : ε → Bool}
    (hkeep : ∀ s t e, keep e = true → R s t → R (step s e) (step t e))
    (hdrop : ∀ s t e, keep e = false → R s t → R (step s e) t) {s t : σ} (h : R s t)
    (evs : List ε) : R (run step s evs) (run step t (evs.filter keep)) := by
  induction evs generalizing s t with
  | nil => exact h
  | cons e evs ih =>
    cases hk : keep e with
    | true =>
      rw [List.filter_cons_of_pos hk]
      exact ih (hkeep s t e hk h)
    | false =>
      rw [List.filter_cons_of_neg (by simp [hk])]
      exact ih (hdrop s t e hk h)

/-- The number of events of a run that `p` picks at the state they meet. -/
def metCount (step : σ → ε → σ) (p : σ → ε → Bool) : σ → List ε → ℕ
  | _, [] => 0
  | s, e :: evs => (p s e).toNat + metCount step p (step s e) evs

theorem metCount_append_singleton {p : σ → ε → Bool} (s : σ) (evs : List ε) (e : ε) :
    metCount step p s (evs ++ [e]) = metCount step p s evs + (p (run step s evs) e).toNat := by
  induction evs generalizing s with
  | nil => simp [metCount]
  | cons e' evs ih => simp [metCount, ih, Nat.add_assoc]

/-- **The counter rule** — a component advanced by `next` on exactly the events `p` picks has been
advanced as often as `p` holds along the run. -/
theorem run_eq_iterate {Inv : σ → Prop} {f : σ → α} {next : α → α} {p : σ → ε → Bool}
    (hstep : ∀ s e, Inv s →
      Inv (step s e) ∧ f (step s e) = if p s e = true then next (f s) else f s) {s : σ} (h : Inv s)
    (evs : List ε) : f (run step s evs) = next^[metCount step p s evs] (f s) := by
  induction evs generalizing s with
  | nil => rfl
  | cons e evs ih =>
    obtain ⟨hinv, hnext⟩ := hstep s e h
    rw [run_cons, ih hinv, hnext, metCount]
    cases hp : p s e with
    | true => rw [if_pos rfl, Bool.toNat_true, Nat.add_comm, Function.iterate_succ_apply]
    | false => rw [if_neg Bool.false_ne_true, Bool.toNat_false, Nat.zero_add]

/-- What `pick` takes from the events of a run, at the states they meet. -/
def collected (step : σ → ε → σ) (pick : σ → ε → Option α) : σ → List ε → List α
  | _, [] => []
  | s, e :: evs => (pick s e).toList ++ collected step pick (step s e) evs

theorem collected_append {pick : σ → ε → Option α} (s : σ) (evs evs' : List ε) :
    collected step pick s (evs ++ evs') =
      collected step pick s evs ++ collected step pick (run step s evs) evs' := by
  induction evs generalizing s with
  | nil => rfl
  | cons e evs ih => rw [List.cons_append, collected, ih, collected, List.append_assoc, run_cons]

/-- **The fold rule** — a component that moves on what `pick` takes, and only then, is its fold
over what the run gives to take. -/
theorem run_eq_foldl {β : Type*} {Inv : σ → Prop} {f : σ → β} {next : β → α → β}
    {pick : σ → ε → Option α}
    (hstep : ∀ s e, Inv s → Inv (step s e) ∧ f (step s e) = (pick s e).toList.foldl next (f s))
    {s : σ} (h : Inv s) (evs : List ε) :
    f (run step s evs) = (collected step pick s evs).foldl next (f s) := by
  induction evs generalizing s with
  | nil => rfl
  | cons e evs ih =>
    obtain ⟨hinv, hnext⟩ := hstep s e h
    rw [run_cons, ih hinv, hnext, collected, List.foldl_append]

/-- The events of a run that `drop` does not pick at the state they meet. -/
def kept (step : σ → ε → σ) (drop : σ → ε → Bool) : σ → List ε → List ε
  | _, [] => []
  | s, e :: evs =>
    if drop s e then kept step drop (step s e) evs else e :: kept step drop (step s e) evs

/-- **The deletion rule, state by state** — as `run_filter_related`, where whether an event is
skipped depends on the state the full run meets it in. -/
theorem run_kept_related {R : σ → σ → Prop} {drop : σ → ε → Bool}
    (hkeep : ∀ s t e, drop s e = false → R s t → R (step s e) (step t e))
    (hdrop : ∀ s t e, drop s e = true → R s t → R (step s e) t) {s t : σ} (h : R s t)
    (evs : List ε) : R (run step s evs) (run step t (kept step drop s evs)) := by
  induction evs generalizing s t with
  | nil => exact h
  | cons e evs ih =>
    rw [kept]
    cases hd : drop s e with
    | true =>
      rw [if_pos rfl]
      exact ih (hdrop s t e hd h)
    | false =>
      rw [if_neg Bool.false_ne_true]
      exact ih (hkeep s t e hd h)

end Run

/-! ## Machines with outputs -/

section Transcript

variable (step : σ → ε → σ × ω)

/-- The state a machine with outputs reaches. -/
def exec : σ → List ε → σ := run fun s e => (step s e).1

/-- Each event of a run, with the output it produced. -/
def transcript : σ → List ε → List (ε × ω)
  | _, [] => []
  | s, e :: evs => (e, (step s e).2) :: transcript (step s e).1 evs

@[simp] theorem exec_nil (s : σ) : exec step s [] = s := rfl

@[simp] theorem exec_cons (s : σ) (e : ε) (evs : List ε) :
    exec step s (e :: evs) = exec step (step s e).1 evs := rfl

@[simp] theorem transcript_nil (s : σ) : transcript step s [] = [] := rfl

@[simp] theorem transcript_cons (s : σ) (e : ε) (evs : List ε) :
    transcript step s (e :: evs) = (e, (step s e).2) :: transcript step (step s e).1 evs := rfl

@[simp] theorem exec_append (s : σ) (evs evs' : List ε) :
    exec step s (evs ++ evs') = exec step (exec step s evs) evs' := run_append _ s evs evs'

@[simp] theorem transcript_append (s : σ) (evs evs' : List ε) :
    transcript step s (evs ++ evs')
      = transcript step s evs ++ transcript step (exec step s evs) evs' := by
  induction evs generalizing s with
  | nil => rfl
  | cons e evs ih => simp [ih]

@[simp] theorem transcript_map_fst (s : σ) (evs : List ε) :
    (transcript step s evs).map Prod.fst = evs := by
  induction evs generalizing s with
  | nil => rfl
  | cons e evs ih => simp [ih]

variable {step}

/-- **The output rule** — every transcript entry is one step, taken from a state the run's
invariant holds of. -/
theorem transcript_forall {Inv : σ → Prop} {P : ε → ω → Prop} {evs : List ε}
    (hstep : ∀ s, ∀ e ∈ evs, Inv s → Inv (step s e).1 ∧ P e (step s e).2) {s : σ} (h : Inv s) :
    ∀ p ∈ transcript step s evs, P p.1 p.2 := by
  induction evs generalizing s with
  | nil => intro p hp; exact absurd hp List.not_mem_nil
  | cons e evs ih =>
    intro p hp
    obtain ⟨hinv, hout⟩ := hstep s e List.mem_cons_self h
    rcases List.mem_cons.mp hp with rfl | hp
    · exact hout
    · exact ih (fun s e' he' => hstep s e' (List.mem_cons_of_mem _ he')) hinv p hp

/-- **The deletion rule for transcripts** — skipping the events a relation does not see leaves the
outputs of all others as they were. -/
theorem transcript_filter_related {R : σ → σ → Prop} {keep : ε → Bool}
    (hkeep : ∀ s t e, keep e = true → R s t →
      R (step s e).1 (step t e).1 ∧ (step s e).2 = (step t e).2)
    (hdrop : ∀ s t e, keep e = false → R s t → R (step s e).1 t) {s t : σ} (h : R s t)
    (evs : List ε) :
    (transcript step s evs).filter (fun p => keep p.1) = transcript step t (evs.filter keep) := by
  induction evs generalizing s t with
  | nil => rfl
  | cons e evs ih =>
    cases hk : keep e with
    | true =>
      obtain ⟨hR, hout⟩ := hkeep s t e hk h
      rw [List.filter_cons_of_pos hk, transcript_cons, transcript_cons,
        List.filter_cons_of_pos (by simpa using hk), ih hR, hout]
    | false =>
      rw [List.filter_cons_of_neg (by simp [hk]), transcript_cons,
        List.filter_cons_of_neg (by simp [hk])]
      exact ih (hdrop s t e hk h)

/-- **The lockstep rule** — two runs on the same events, from states a relation cannot tell apart,
leave one transcript. -/
theorem transcript_related {R : σ → σ → Prop}
    (hstep : ∀ s t e, R s t → R (step s e).1 (step t e).1 ∧ (step s e).2 = (step t e).2) {s t : σ}
    (h : R s t) (evs : List ε) :
    transcript step s evs = transcript step t evs ∧ R (exec step s evs) (exec step t evs) := by
  induction evs generalizing s t with
  | nil => exact ⟨rfl, h⟩
  | cons e evs ih =>
    obtain ⟨hR, hout⟩ := hstep s t e h
    obtain ⟨htranscript, hexec⟩ := ih hR
    exact ⟨by rw [transcript_cons, transcript_cons, hout, htranscript], hexec⟩

/-- **The counter rule** — a component advanced by `next` on exactly the outputs `p` picks has
been advanced as often as `p` holds in the transcript. -/
theorem exec_eq_iterate {f : σ → α} {next : α → α} {p : ω → Bool} {evs : List ε}
    (hstep : ∀ s, ∀ e ∈ evs, f (step s e).1 = if p (step s e).2 then next (f s) else f s) (s : σ) :
    f (exec step s evs) = next^[(transcript step s evs).countP fun q => p q.2] (f s) := by
  induction evs generalizing s with
  | nil => rfl
  | cons e evs ih =>
    rw [exec_cons, ih fun s e' he' => hstep s e' (List.mem_cons_of_mem _ he'), transcript_cons,
      hstep s e List.mem_cons_self]
    cases hp : p (step s e).2 with
    | true => rw [List.countP_cons_of_pos (by simpa using hp), Function.iterate_succ_apply,
        if_pos rfl]
    | false => rw [List.countP_cons_of_neg (by simp [hp]), if_neg (by decide)]

/-- **The tally rule** — what is counted entry by entry as a sum of other counts is counted so over
the whole list. -/
theorem countP_eq_sum {p : α → Bool} {qs : List (α → Bool)} {l : List α}
    (h : ∀ x ∈ l, (p x).toNat = (qs.map fun q => (q x).toNat).sum) :
    l.countP p = (qs.map fun q => l.countP q).sum := by
  have hcons : ∀ (q : α → Bool) x (l : List α), (x :: l).countP q = (q x).toNat + l.countP q := by
    intro q x l
    rw [List.countP_cons, Nat.add_comm]
    cases q x <;> rfl
  induction l with
  | nil => simp
  | cons x l ih =>
    simp only [hcons, List.sum_map_add]
    rw [h x List.mem_cons_self, ih fun y hy => h y (List.mem_cons_of_mem _ hy)]

end Transcript

end Machine
