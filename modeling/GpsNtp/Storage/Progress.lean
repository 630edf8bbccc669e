import GpsNtp.Machinery.LeadsTo
import GpsNtp.Storage.Calls

/-!
# Storage/Progress — nobody waits for ever

    running op stack ──▸ running (done v) stack ──▸ running (done v) [] ──▸ replied ──▸ polling
                                                                                          │
    taken ◂──────────────────────────── receiving ◂───────────────────────────────────────┘

As long as the driver returns from its accesses, the worker needs nobody to answer everyone: a call
that it makes itself runs inline, so it does not wait for its own queue.
-/

namespace GpsNtp.Storage.SdSystem

open Machine

variable {Client Access Outcome Value Card : Type*} [DecidableEq Client]
  {driver : Driver Card Access Outcome} {s : SdSystem Client Access Outcome Value Card}
  {P : SdSystem Client Access Outcome Value Card → Prop}

/-! ## The worker by itself -/

/-- How many accesses to the statics an arm or a drop still makes. -/
def pendingAccesses (s : SdSystem Client Access Outcome Value Card) : ℕ :=
  match s.guard.stage with
  | .resting => 0
  | .naming _ => 3
  | .reading => 2
  | .storing _ => 1
  | .clearing => 1

/-- An arm or a drop that has begun comes to its end, and nothing else happens before it does. -/
theorem leads_resting (s : SdSystem Client Access Outcome Value Card) :
    Leads (work driver)
      (fun s' => (∃ g : Guard, s' = { s with guard := g }) ∧ s'.guard.stage = .resting) s := by
  have hdown : ∀ s' : SdSystem Client Access Outcome Value Card,
      (∃ g : Guard, s' = { s with guard := g }) → s'.pendingAccesses ≠ 0 →
        Leads (work driver)
          (fun t => (∃ g : Guard, t = { s with guard := g }) ∧
            t.pendingAccesses < s'.pendingAccesses) s' := by
    rintro _ ⟨g, rfl⟩ hpending
    have hstage : g.stage ≠ .resting := fun hg => hpending (by simp [pendingAccesses, hg])
    refine .of_next (.now ?_)
    rw [work_proceed driver _ hstage]
    refine ⟨⟨g.proceed, rfl⟩, ?_⟩
    rw [pendingAccesses, pendingAccesses, Guard.proceed]
    cases hg : g.stage with
    | resting => exact absurd hg hstage
    | _ => simp
  refine (leads_of_measure pendingAccesses hdown ⟨s.guard, rfl⟩).mono ?_
  rintro s' ⟨hs', hzero⟩
  refine ⟨hs', ?_⟩
  rw [pendingAccesses] at hzero
  cases hg : s'.guard.stage with
  | resting => rfl
  | _ => simp [hg] at hzero

/-- The step that the worker takes once its arm or drop has ended. -/
theorem leads_step (h : ∀ g : Guard, g.stage = .resting →
    Leads (work driver) P (work driver { s with guard := g })) : Leads (work driver) P s := by
  refine (leads_resting s).trans ?_
  rintro _ ⟨⟨g, rfl⟩, hg⟩
  exact .of_next (h g hg)

/-- **An operation comes to its value**, in the call it was begun in. -/
theorem leads_done (op : Operation Access Outcome Value)
    {job : SdJob Client Access Outcome Value}
    {stack : List (String × (Value → Operation Access Outcome Value))}
    (hworker : s.worker = .running job op stack) :
    Leads (work driver)
      (fun s' => (∃ value, s'.worker = .running job (.done value) stack) ∧ s'.jobs = s.jobs) s := by
  induction op generalizing s stack with
  | done value => exact .now ⟨⟨value, hworker⟩, rfl⟩
  | access a next ih =>
    refine leads_step fun g hg => ?_
    simp only [work, hg, hworker]
    exact ih _ rfl
  | call label inner next ihinner ihnext =>
    refine leads_step fun g hg => ?_
    simp only [work, hg, hworker]
    refine (ihinner rfl).trans ?_
    rintro s₁ ⟨⟨value, hvalue⟩, hjobs⟩
    refine leads_step fun g hg => ?_
    simp only [work, hg, hvalue]
    refine (ihnext value rfl).mono fun s₂ hs₂ => ⟨hs₂.1, hs₂.2.trans hjobs⟩

/-- The calls around it end one after the other. -/
theorem leads_outermost {op : Operation Access Outcome Value}
    {job : SdJob Client Access Outcome Value}
    {stack : List (String × (Value → Operation Access Outcome Value))}
    (hworker : s.worker = .running job op stack) :
    Leads (work driver)
      (fun s' => (∃ value, s'.worker = .running job (.done value) []) ∧ s'.jobs = s.jobs) s := by
  induction stack generalizing s op with
  | nil => exact leads_done op hworker
  | cons frame stack ih =>
    refine (leads_done op hworker).trans ?_
    rintro s₁ ⟨⟨value, hvalue⟩, hjobs⟩
    refine leads_step fun g hg => ?_
    simp only [work, hg, hvalue]
    exact (ih rfl).mono fun s₂ hs₂ => ⟨hs₂.1, hs₂.2.trans hjobs⟩

/-- A job is answered, and the others wait as before. -/
theorem leads_answered {op : Operation Access Outcome Value}
    {job : SdJob Client Access Outcome Value}
    {stack : List (String × (Value → Operation Access Outcome Value))}
    (hworker : s.worker = .running job op stack) :
    Leads (work driver) (fun s' => s'.worker.current = [] ∧ s'.jobs = s.jobs) s := by
  refine (leads_outermost hworker).trans ?_
  rintro s₁ ⟨⟨value, hvalue⟩, hjobs⟩
  refine leads_step fun g hg => ?_
  simp only [work, hg, hvalue]
  exact .now ⟨rfl, hjobs⟩

/-- How far a worker with no job in hand is from its queue. -/
def distance : Worker Client Access Outcome Value → ℕ
  | .receiving => 0
  | .publishing _ => 1
  | .remembering _ => 2
  | .measured _ => 3
  | .walking _ => 4
  | .refreshing _ => 5
  | .polling => 6
  | .replied _ => 7
  | .taken _ | .running _ _ _ => 8

/-- A worker with no job in hand comes to its queue. -/
theorem leads_receiving (hcurrent : s.worker.current = []) :
    Leads (work driver) (fun s' => s'.worker = .receiving ∧ s'.jobs = s.jobs) s := by
  have hdown : ∀ s₁ : SdSystem Client Access Outcome Value Card,
      s₁.worker.current = [] ∧ s₁.jobs = s.jobs → distance s₁.worker ≠ 0 →
        Leads (work driver)
          (fun s₂ => (s₂.worker.current = [] ∧ s₂.jobs = s.jobs) ∧
            distance s₂.worker < distance s₁.worker) s₁ := by
    rintro s₁ ⟨hcurrent, hjobs⟩ hdistance
    cases hworker : s₁.worker with
    | receiving => exact absurd (by rw [hworker, distance]) hdistance
    | polling =>
      refine leads_step fun g hg => ?_
      simp only [work, hg, hworker]
      cases s₁.usageRefresh && s₁.ready with
      | true => exact .now ⟨⟨rfl, hjobs⟩, by simp [distance]⟩
      | false => exact .now ⟨⟨rfl, hjobs⟩, by simp [distance]⟩
    | taken job =>
      rw [hworker] at hcurrent
      cases hcurrent
    | running job op stack =>
      rw [hworker] at hcurrent
      cases hcurrent
    | _ =>
      refine leads_step fun g hg => ?_
      simp only [work, hg, hworker]
      exact .now ⟨⟨rfl, hjobs⟩, by simp [distance]⟩
  refine (leads_of_measure (fun s₁ => distance s₁.worker) hdown ⟨hcurrent, rfl⟩).mono ?_
  rintro s₁ ⟨⟨-, hjobs⟩, hzero⟩
  refine ⟨?_, hjobs⟩
  cases hworker : s₁.worker with
  | receiving => rfl
  | _ => simp [hworker, distance] at hzero

/-! ## Everyone is answered -/

/-- Twice the jobs that wait, and one for the job in hand. -/
def backlog (s : SdSystem Client Access Outcome Value Card) : ℕ :=
  2 * s.jobs.length + s.worker.current.length

theorem leads_backlog_lt (h : s.backlog ≠ 0) :
    Leads (work driver) (fun s' => s'.backlog < s.backlog) s := by
  have hanswered : ∀ (s : SdSystem Client Access Outcome Value Card) job op stack,
      s.worker = .running job op stack →
        Leads (work driver) (fun s' => s'.backlog < 2 * s.jobs.length + 1) s := by
    intro s job op stack hworker
    refine (leads_answered hworker).mono ?_
    rintro s' ⟨hcurrent, hjobs⟩
    rw [backlog, hcurrent, hjobs]
    exact Nat.lt_succ_self _
  cases hcurrent : s.worker.current with
  | nil =>
    refine (leads_receiving hcurrent).trans ?_
    rintro s₁ ⟨hworker, hjobs⟩
    cases hqueue : s₁.jobs with
    | nil =>
      refine absurd ?_ h
      rw [backlog, hcurrent, ← hjobs, hqueue]
      rfl
    | cons job jobs =>
      refine leads_step fun g hg => ?_
      simp only [work, hg, hworker, hqueue]
      refine .now ?_
      rw [backlog, backlog, hcurrent, ← hjobs, hqueue]
      simp only [Worker.current, List.length_cons, List.length_nil]
      omega
  | cons job rest =>
    cases hworker : s.worker with
    | running job op stack =>
      refine (hanswered s job op stack hworker).mono fun s' hs' => ?_
      rw [backlog.eq_def s, hworker]
      exact hs'
    | taken job =>
      rw [backlog, hworker]
      refine leads_step fun g hg => ?_
      simp only [work, hg, hworker]
      exact hanswered _ job job.op [] rfl
    | _ =>
      rw [hworker] at hcurrent
      cases hcurrent

theorem leads_idle (s : SdSystem Client Access Outcome Value Card) :
    Leads (work driver) (fun s' => s'.backlog = 0) s := by
  have hdown : ∀ s : SdSystem Client Access Outcome Value Card, True → s.backlog ≠ 0 →
      Leads (work driver) (fun s' => True ∧ s'.backlog < s.backlog) s :=
    fun s _ h => (leads_backlog_lt h).mono fun s' hs' => ⟨trivial, hs'⟩
  exact (leads_of_measure backlog hdown trivial).mono fun s' hs' => hs'.2

theorem watchdog_work (s : SdSystem Client Access Outcome Value Card) :
    (s.work driver).guard.watchdog = s.guard.watchdog := by
  rw [guard_work]
  cases hevent : s.guardWork with
  | none => rfl
  | some e =>
    cases e with
    | arm label =>
      show (s.guard.arm label).watchdog = _
      rcases s.guard.arm_cases label with ⟨-, h⟩ | h <;> rw [h]
    | proceed =>
      show s.guard.proceed.watchdog = _
      rw [Guard.proceed]
      split <;> rfl
    | drop =>
      show s.guard.drop.watchdog = _
      rcases s.guard.drop_cases with ⟨_, _, -, -, h⟩ | h <;> rw [h]
    | monitor =>
      rw [guardWork] at hevent
      split at hevent
      · split at hevent <;> cases hevent
      · cases hevent
    | tick us =>
      rw [guardWork] at hevent
      split at hevent
      · split at hevent <;> cases hevent
      · cases hevent

/-- While the chip runs, the worker's steps in a row are steps of the system. -/
theorem run_replicate_worker (hrunning : ∀ label, s.guard.watchdog ≠ .restarted label) (n : ℕ) :
    run (step driver) s (List.replicate n .worker) = (work driver)^[n] s := by
  induction n generalizing s with
  | zero => rfl
  | succ n ih =>
    have hwork : ∀ label, (s.work driver).guard.watchdog ≠ .restarted label := by
      rwa [watchdog_work]
    rw [List.replicate_succ, run_cons, step_running hrunning, Function.iterate_succ_apply]
    exact ih hwork

/-- **Nobody waits for ever**: from any point of any run, the worker's own steps answer every call
that has been made, if the driver returns from its accesses. -/
theorem calls_answered (guard : Guard) (card : Card) (ready : Bool) (status : StorageStatus)
    (evs : List (Event Client Access Outcome Value))
    (hrunning : ∀ label, (run (step driver)
      (mounted guard card ready status) evs).guard.watchdog ≠ .restarted label) :
    ∃ n, ∀ c, (run (step driver) (mounted guard card ready status)
      (evs ++ List.replicate n .worker)).callers c ≠ .waiting := by
  obtain ⟨n, hn⟩ := @leads_idle _ _ _ _ _ _ driver
    (run (step driver) (mounted guard card ready status) evs)
  rw [← run_replicate_worker hrunning, ← run_append] at hn
  refine ⟨n, fun c hc => ?_⟩
  have hstep : ∀ (s : SdSystem Client Access Outcome Value Card) t e, Plain driver s t →
      Plain driver (s.step driver e)
        (run (Serve.step (Operation.run driver)) t (s.stands e).toList) :=
    fun _ _ e h => h.step e
  have hplain := run_refines hstep (plain_mounted driver guard card ready status)
    (evs ++ List.replicate n .worker)
  obtain ⟨served, hfollows⟩ := Serve.follows_run (Operation.run driver) card
    (collected (step driver) stands (mounted guard card ready status)
      (evs ++ List.replicate n .worker))
  rw [backlog, Nat.add_eq_zero_iff, Nat.mul_eq_zero, List.length_eq_zero_iff,
    List.length_eq_zero_iff] at hn
  rw [hplain.callers, hfollows.waiting, hplain.queue, hn.2, hn.1.resolve_left two_ne_zero] at hc
  exact absurd hc List.not_mem_nil

/-- A read that makes a call of its own. -/
theorem calls_answered_nested :
    ∃ n, ∀ c : ℕ, (run (step ⟨fun card a => (card + a, card), fun _ => true, fun _ => none⟩)
      (mounted (.boot 0) 0 true .default)
      ([.call 3 "sd read" (.call "sd stat" (.access 2 .done) .done)] ++
        List.replicate n .worker)).callers c ≠ .waiting :=
  calls_answered (.boot 0) 0 true .default _ (fun _ h => by cases h)

end GpsNtp.Storage.SdSystem
