import GpsNtp.Machinery.Refine
import GpsNtp.Machinery.Serve
import GpsNtp.Storage.Deadline

/-!
# Storage/Calls — filesystem calls on the worker thread

    call ──job──▸ │ SD_JOBS │ ──▸ sd_io    arm ─▸ accesses, nested calls ─▸ reply ─▸ drop
     ▴                                                                        │
     └────────────────────────────────────────────────────────────────────────┘

Every task hands its filesystem operation to one worker and waits, and the worker holds a deadline
while it is in the driver.  Every caller gets what its operation returns when the operations are
carried out one after the other in the order they were sent (`returned_prefix_answers`), and nobody
waits for ever while the driver returns (`calls_answered`); when it does not, the chip restarts
(`restarted_of_hung`).
-/

namespace GpsNtp.Storage

open Machine

/-! ## What is done on the card -/

/-- An operation on the card: accesses of the driver, and calls that the worker makes itself. -/
inductive Operation (Access Outcome Value : Type*) where
  | done (value : Value)
  | access (a : Access) (next : Outcome → Operation Access Outcome Value)
  | call (label : String) (inner : Operation Access Outcome Value)
      (next : Value → Operation Access Outcome Value)

/-- The driver and the FAT layer: an access, whether the mount point is there, and its total and
free bytes. -/
structure Driver (Card Access Outcome : Type*) where
  perform : Card → Access → Card × Outcome
  mountPointExists : Card → Bool
  vfsFatUsage : Card → Option (ℕ × ℕ)

variable {Client Access Outcome Value Card : Type*}

/-- The whole operation at once: what it leaves on the card, and what it returns. -/
def Operation.run (driver : Driver Card Access Outcome) :
    Card → Operation Access Outcome Value → Card × Value
  | card, .done value => (card, value)
  | card, .access a next => (next (driver.perform card a).2).run driver (driver.perform card a).1
  | card, .call _ inner next =>
    (next (inner.run driver card).2).run driver (inner.run driver card).1

/-- What comes after the calls that an operation is inside. -/
def Operation.resume (driver : Driver Card Access Outcome) :
    List (String × (Value → Operation Access Outcome Value)) → Card × Value → Card × Value
  | [], result => result
  | (_, next) :: stack, (card, value) => resume driver stack ((next value).run driver card)

structure StorageStatus where
  mounted : Bool
  totalBytes : ℕ
  freeBytes : ℕ
deriving DecidableEq

/-- `StorageStatus::default`. -/
def StorageStatus.default : StorageStatus := ⟨false, 0, 0⟩

/-- `StorageStatus::refresh`. -/
def StorageStatus.refresh (driver : Driver Card Access Outcome) (card : Card)
    (previous : StorageStatus) : StorageStatus :=
  if driver.mountPointExists card then
    match driver.vfsFatUsage card with
    | some (totalBytes, freeBytes) => { mounted := true, totalBytes, freeBytes }
    | none =>
      { mounted := true
        totalBytes := previous.totalBytes
        freeBytes := previous.freeBytes }
  else .default

/-! ## The worker and its callers -/

structure SdJob (Client Access Outcome Value : Type*) where
  client : Client
  label : String
  op : Operation Access Outcome Value

/-- Where `worker_main` stands.  A job that runs has what is left of it in hand, and for every call
it is inside, the label of the call and what comes after. -/
inductive Worker (Client Access Outcome Value : Type*) where
  | polling
  | refreshing (previous : StorageStatus)
  | walking (previous : StorageStatus)
  | measured (status : StorageStatus)
  | remembering (status : StorageStatus)
  | publishing (status : StorageStatus)
  | receiving
  | taken (job : SdJob Client Access Outcome Value)
  | running (job : SdJob Client Access Outcome Value) (op : Operation Access Outcome Value)
      (stack : List (String × (Value → Operation Access Outcome Value)))
  | replied (label : String)

/-- The labels of the deadlines that the worker holds, the innermost first. -/
def Worker.held : Worker Client Access Outcome Value → List String
  | .walking _ | .measured _ => ["sd space"]
  | .running job _ stack => stack.map Prod.fst ++ [job.label]
  | .replied label => [label]
  | _ => []

/-- The job that the worker has taken and not answered. -/
def Worker.current : Worker Client Access Outcome Value →
    List (SdJob Client Access Outcome Value)
  | .taken job | .running job _ _ => [job]
  | _ => []

/-- The card, the worker with its queue and its deadlines, those who wait for it, and what the panel
is shown. -/
structure SdSystem (Client Access Outcome Value Card : Type*) where
  guard : Guard
  card : Card
  ready : Bool
  jobs : List (SdJob Client Access Outcome Value)
  worker : Worker Client Access Outcome Value
  callers : Client → Serve.Caller Value
  usageRefresh : Bool
  lastUsage : StorageStatus
  pendingUsage : Option StorageStatus

/-- What can happen next: a task calls or gets its answer, the panel asks or takes, and one of the
two threads takes a step. -/
inductive Event (Client Access Outcome Value : Type*) where
  | call (c : Client) (label : String) (op : Operation Access Outcome Value)
  | recv (c : Client)
  | requestUsageRefresh
  | takeUsage
  | worker
  | monitor
  | tick (us : ℕ)

/-- What an event does to the guard if it is not the worker's. -/
def Event.onGuard : Event Client Access Outcome Value → Option Guard.Event
  | .monitor => some .monitor
  | .tick us => some (.tick us)
  | _ => none

/-- Whether an event is a step of the worker. -/
def Event.isWorker : Event Client Access Outcome Value → Bool
  | .worker => true
  | _ => false

namespace SdSystem

/-- After `StorageDevice::init`, with the guard as the mount has left it. -/
def mounted (guard : Guard) (card : Card) (ready : Bool) (status : StorageStatus) :
    SdSystem Client Access Outcome Value Card where
  guard
  card
  ready
  jobs := []
  worker := .polling
  callers := fun _ => .idle
  usageRefresh := false
  lastUsage := status
  pendingUsage := none

variable [DecidableEq Client] (driver : Driver Card Access Outcome)

/-- The next step of `worker_main`; an access to the statics of its deadline comes first. -/
def work (s : SdSystem Client Access Outcome Value Card) :
    SdSystem Client Access Outcome Value Card :=
  match s.guard.stage with
  | .resting =>
    match s.worker with
    | .polling =>
      { s with
        usageRefresh := false
        worker := if s.usageRefresh && s.ready then .refreshing s.lastUsage else .receiving }
    | .refreshing previous =>
      { s with guard := s.guard.arm "sd space", worker := .walking previous }
    | .walking previous => { s with worker := .measured (.refresh driver s.card previous) }
    | .measured status => { s with guard := s.guard.drop, worker := .remembering status }
    | .remembering status => { s with lastUsage := status, worker := .publishing status }
    | .publishing status => { s with pendingUsage := some status, worker := .receiving }
    | .receiving =>
      match s.jobs with
      -- nothing came within the receive timeout
      | [] => { s with worker := .polling }
      | job :: jobs => { s with jobs, worker := .taken job }
    | .taken job => { s with guard := s.guard.arm job.label, worker := .running job job.op [] }
    | .running job (.done value) [] =>
      { s with
        callers := Function.update s.callers job.client (.answered value)
        worker := .replied job.label }
    | .running job (.done value) ((_, next) :: stack) =>
      { s with guard := s.guard.drop, worker := .running job (next value) stack }
    | .running job (.access a next) stack =>
      { s with
        card := (driver.perform s.card a).1
        worker := .running job (next (driver.perform s.card a).2) stack }
    -- a call from the worker itself runs inline
    | .running job (.call label inner next) stack =>
      { s with guard := s.guard.arm label, worker := .running job inner ((label, next) :: stack) }
    | .replied _ => { s with guard := s.guard.drop, worker := .polling }
  | _ => { s with guard := s.guard.proceed }

/-- What an event does while the chip runs. -/
def act (s : SdSystem Client Access Outcome Value Card) :
    Event Client Access Outcome Value → SdSystem Client Access Outcome Value Card
  | .call c label op =>
    match s.callers c with
    | .idle =>
      { s with
        jobs := s.jobs ++ [⟨c, label, op⟩]
        callers := Function.update s.callers c .waiting }
    | _ => s
  | .recv c =>
    match s.callers c with
    | .answered _ => { s with callers := Function.update s.callers c .idle }
    | _ => s
  | .requestUsageRefresh => { s with usageRefresh := true }
  | .takeUsage => { s with pendingUsage := none }
  | .worker => s.work driver
  | .monitor => { s with guard := s.guard.monitor }
  | .tick us => { s with guard := { s.guard with timer := s.guard.timer + us } }

/-- One step, which changes nothing once the chip has restarted. -/
def step (s : SdSystem Client Access Outcome Value Card) (e : Event Client Access Outcome Value) :
    SdSystem Client Access Outcome Value Card :=
  match s.guard.watchdog with
  | .restarted _ => s
  | _ => s.act driver e

/-! ## What a step can do -/

section

variable {driver} {s : SdSystem Client Access Outcome Value Card}

theorem step_restarted {label : String} (h : s.guard.watchdog = .restarted label)
    (e : Event Client Access Outcome Value) : s.step driver e = s := by
  rw [step, h]

theorem step_running (h : ∀ label, s.guard.watchdog ≠ .restarted label)
    (e : Event Client Access Outcome Value) : s.step driver e = s.act driver e := by
  rw [step]
  split
  · next label hlabel => exact absurd hlabel (h label)
  · rfl

variable (driver) in
theorem step_cases (s : SdSystem Client Access Outcome Value Card)
    (e : Event Client Access Outcome Value) :
    (∃ label, s.guard.watchdog = .restarted label ∧ s.step driver e = s) ∨
      (∀ label, s.guard.watchdog ≠ .restarted label) ∧ s.step driver e = s.act driver e := by
  by_cases h : ∃ label, s.guard.watchdog = .restarted label
  · obtain ⟨label, h⟩ := h
    exact .inl ⟨label, h, step_restarted h e⟩
  · have h : ∀ label, s.guard.watchdog ≠ .restarted label := fun label hl => h ⟨label, hl⟩
    exact .inr ⟨h, step_running h e⟩

variable (driver) in
theorem work_proceed (s : SdSystem Client Access Outcome Value Card)
    (h : s.guard.stage ≠ .resting) : s.work driver = { s with guard := s.guard.proceed } := by
  rw [work]
  split
  · next hstage => exact absurd hstage h
  · rfl

end

/-! ## The guard goes its own way -/

omit [DecidableEq Client] in
/-- What a step of the worker does to its deadlines. -/
def guardWork (s : SdSystem Client Access Outcome Value Card) : Option Guard.Event :=
  match s.guard.stage with
  | .resting =>
    match s.worker with
    | .refreshing _ => some (.arm "sd space")
    | .taken job => some (.arm job.label)
    | .running _ (.call label _ _) _ => some (.arm label)
    | .measured _ | .running _ (.done _) (_ :: _) | .replied _ => some .drop
    | _ => none
  | _ => some .proceed

omit [DecidableEq Client] in
/-- What an event does to the guard. -/
def guardEvent (s : SdSystem Client Access Outcome Value Card) :
    Event Client Access Outcome Value → Option Guard.Event
  | .worker => s.guardWork
  | e => e.onGuard

section

variable (s : SdSystem Client Access Outcome Value Card)

theorem guard_work :
    (s.work driver).guard = (s.guardWork.map s.guard.act).getD s.guard := by
  rw [work, guardWork]
  cases hstage : s.guard.stage with
  | resting =>
    cases hworker : s.worker with
    | running job op stack =>
      cases op with
      | done value => cases stack <;> rfl
      | access a next => rfl
      | call label inner next => rfl
    | receiving => cases s.jobs <;> rfl
    | _ => rfl
  | _ => rfl

theorem guard_step (e : Event Client Access Outcome Value) :
    (s.step driver e).guard = (s.guardEvent e).toList.foldl Guard.step s.guard := by
  rcases s.step_cases driver e with ⟨label, hlabel, hstep⟩ | ⟨hrunning, hstep⟩
  · rw [hstep]
    cases s.guardEvent e with
    | none => rfl
    | some e' => exact (Guard.step_restarted hlabel e').symm
  · have hact : (s.act driver e).guard = ((s.guardEvent e).map s.guard.act).getD s.guard := by
      cases e with
      | call c label op =>
        rw [act]
        cases s.callers c <;> rfl
      | recv c =>
        rw [act]
        cases s.callers c <;> rfl
      | worker => exact s.guard_work driver
      | _ => rfl
    rw [hstep, hact]
    cases s.guardEvent e with
    | none => rfl
    | some e' => exact (Guard.step_running hrunning e').symm

/-- **The guard of a run is a run of the guard**, so that whatever holds of its runs holds here. -/
theorem guard_run (evs : List (Event Client Access Outcome Value)) :
    (run (step driver) s evs).guard =
      run Guard.step s.guard (collected (step driver) guardEvent s evs) :=
  @run_eq_foldl _ _ _ (step driver) _ (fun _ => True) guard Guard.step guardEvent
    (fun s e _ => ⟨trivial, s.guard_step driver e⟩) s trivial evs

end

/-! ## A driver that hangs -/

section

variable {driver} {s : SdSystem Client Access Outcome Value Card}

/-- The worker holds the deadlines of the calls it is inside. -/
theorem held_work (h : s.guard.held = s.worker.held) :
    (s.work driver).guard.held = (s.work driver).worker.held := by
  rw [work]
  cases hstage : s.guard.stage with
  | resting =>
    have harm : ∀ label, (s.guard.arm label).held = label :: s.guard.held := by
      intro label
      rw [Guard.arm, hstage]
    have hdrop : ∀ label held, s.guard.held = label :: held → s.guard.drop.held = held := by
      intro label held hheld
      rw [Guard.drop, hstage, hheld]
    cases hworker : s.worker with
    | polling =>
      rw [hworker] at h
      dsimp only
      rw [h]
      cases s.usageRefresh && s.ready <;> rfl
    | refreshing previous =>
      rw [hworker] at h
      exact (harm _).trans (congrArg _ h)
    | measured status =>
      rw [hworker] at h
      exact hdrop _ _ h
    | receiving =>
      rw [hworker] at h
      cases s.jobs <;> exact h
    | taken job =>
      rw [hworker] at h
      exact (harm _).trans (congrArg _ h)
    | running job op stack =>
      rw [hworker] at h
      cases op with
      | done value =>
        cases stack with
        | nil => exact h
        | cons frame stack => exact hdrop _ _ h
      | access a next => exact h
      | call label inner next => exact (harm _).trans (congrArg _ h)
    | replied label =>
      rw [hworker] at h
      exact hdrop _ _ h
    | _ =>
      rw [hworker] at h
      exact h
  | _ =>
    have hproceed : s.guard.proceed.held = s.guard.held := by
      rw [Guard.proceed]
      split <;> rfl
    exact hproceed.trans h

theorem held_step (h : s.guard.held = s.worker.held) (e : Event Client Access Outcome Value) :
    (s.step driver e).guard.held = (s.step driver e).worker.held := by
  rcases s.step_cases driver e with ⟨-, -, hstep⟩ | ⟨-, hstep⟩
  · rwa [hstep]
  · rw [hstep]
    cases e with
    | call c label op =>
      rw [act]
      cases s.callers c <;> exact h
    | recv c =>
      rw [act]
      cases s.callers c <;> exact h
    | worker => exact held_work h
    | monitor =>
      have hmonitor : s.guard.monitor.held = s.guard.held := by
        rcases s.guard.monitor_cases with ⟨-, -, hm⟩ | ⟨-, -, -, hm⟩ | ⟨-, -, -, hm⟩ | ⟨-, hm⟩ |
          ⟨-, -, -, hm⟩ <;> rw [hm]
      exact hmonitor.trans h
    | _ => exact h

theorem held_run (h : s.guard.held = s.worker.held)
    (evs : List (Event Client Access Outcome Value)) :
    (run (step driver) s evs).guard.held = (run (step driver) s evs).worker.held := by
  let Inv (s : SdSystem Client Access Outcome Value Card) : Prop := s.guard.held = s.worker.held
  have hkept : ∀ s e, Inv s → Inv (s.step driver e) := fun _ e hs => held_step hs e
  exact run_induction hkept h evs

end

omit [DecidableEq Client] in
/-- Without a step of the worker, an event does one thing to the guard in every state. -/
theorem guardEvent_of_not_isWorker {e : Event Client Access Outcome Value}
    (he : e.isWorker = false) (s : SdSystem Client Access Outcome Value Card) :
    s.guardEvent e = e.onGuard := by
  cases e with
  | worker => cases he
  | _ => rfl

/-- **A driver that hangs restarts the chip.**  While the worker stays inside a job, whatever the
callers and the panel do, the fourth step of the watchdog after the timeout names the job. -/
theorem restarted_of_hung {timer : ℤ} {mount : List Guard.Event} {card : Card} {ready : Bool}
    {status : StorageStatus} {evs early late : List (Event Client Access Outcome Value)}
    {job : SdJob Client Access Outcome Value} {op : Operation Access Outcome Value}
    {stack : List (String × (Value → Operation Access Outcome Value))}
    {s : SdSystem Client Access Outcome Value Card}
    (hrun : s = run (step driver)
      (mounted (run Guard.step (.boot timer) mount) card ready status) evs)
    (hmount : (run Guard.step (.boot timer) mount).held = [])
    (hinside : s.worker = .running job op stack) (hresting : s.guard.stage = .resting)
    (hrunning : ∀ label, s.guard.watchdog ≠ .restarted label)
    (hhung : ∀ e ∈ early ++ late, e.isWorker = false)
    (hlate : max s.guard.timer 1 + SD_CALL_TIMEOUT_US ≤ (run (step driver) s early).guard.timer)
    (hpolls : 4 ≤ (late.filterMap Event.onGuard).count .monitor) :
    (run (step driver) s (early ++ late)).guard.watchdog = .restarted job.label := by
  have hguard : s.guard = run Guard.step (.boot timer)
      (mount ++ collected (step driver) guardEvent
        (mounted (run Guard.step (.boot timer) mount) card ready status) evs) := by
    rw [hrun, guard_run, run_append]
    rfl
  have hheld : s.guard.held = s.worker.held := by
    rw [hrun]
    exact held_run hmount evs
  have honGuard : ∀ evs' : List (Event Client Access Outcome Value),
      (∀ e ∈ evs', e.isWorker = false) → ∀ s' : SdSystem Client Access Outcome Value Card,
        (run (step driver) s' evs').guard =
          run Guard.step s'.guard (evs'.filterMap Event.onGuard) := by
    intro evs' hevs' s'
    rw [guard_run, collected_eq_filterMap fun e he s => guardEvent_of_not_isWorker (hevs' e he) s]
  have hcall : s.guard.held ≠ [] := by
    rw [hheld, hinside]
    simp [Worker.held]
  have hlast : s.guard.held.getLast hcall = job.label := by
    simp only [hheld, hinside, Worker.held, List.getLast_append_singleton]
  rw [honGuard early fun e he => hhung e (List.mem_append_left late he)] at hlate
  rw [honGuard (early ++ late) hhung, List.filterMap_append, ← hlast]
  generalize collected (step driver) guardEvent _ evs = through at hguard
  simp only [hguard] at hcall hresting hrunning hlate ⊢
  rw [← run_append] at hlate ⊢
  refine Guard.restarted_of_quiet hcall hresting hrunning ?_ hlate hpolls
  rw [← List.filterMap_append]
  intro g hg
  obtain ⟨e, -, he⟩ := List.mem_filterMap.mp hg
  cases e with
  | monitor =>
    cases he
    rfl
  | tick us =>
    cases he
    rfl
  | _ => cases he

/-- A log line whose write hangs, while the page for it is asked for. -/
theorem restarted_of_hung_write :
    (run (step ⟨fun card () => (card, ()), fun () => true, fun () => none⟩)
      (run (step ⟨fun card () => (card, ()), fun () => true, fun () => none⟩)
        (mounted (run Guard.step (.boot 0) []) () true .default)
        ([.call 1 "sd log" (.access () fun () => .done ())] ++ List.replicate 6 .worker))
      ([.call 2 "sd list" (.done ()), .tick 180000001] ++
        List.replicate 4 .monitor)).guard.watchdog = .restarted "sd log" :=
  @restarted_of_hung ℕ Unit Unit Unit Unit _
    ⟨fun card () => (card, ()), fun () => true, fun () => none⟩ 0 [] () true .default
    ([.call 1 "sd log" (.access () fun () => .done ())] ++ List.replicate 6 .worker)
    [.call 2 "sd list" (.done ()), .tick 180000001]
    (List.replicate 4 .monitor) ⟨1, "sd log", .access () fun () => .done ()⟩
    (.access () fun () => .done ()) [] _ rfl rfl rfl rfl (fun _ h => by cases h)
    (by simp [Event.isWorker]) (by decide +kernel) (by decide +kernel)

/-! ## One operation after the other -/

omit [DecidableEq Client] in
/-- The operation that an event sends to the worker. -/
def sentBy (s : SdSystem Client Access Outcome Value Card) :
    Event Client Access Outcome Value → Option (Client × Operation Access Outcome Value)
  | .call c _ op =>
    match s.guard.watchdog, s.callers c with
    | .restarted _, _ => none
    | _, .idle => some (c, op)
    | _, _ => none
  | _ => none

omit [DecidableEq Client] in
/-- What a call returns at an event. -/
def returnedBy (s : SdSystem Client Access Outcome Value Card) :
    Event Client Access Outcome Value → Option (Client × Value)
  | .recv c =>
    match s.guard.watchdog, s.callers c with
    | .restarted _, _ => none
    | _, .answered value => some (c, value)
    | _, _ => none
  | _ => none

omit [DecidableEq Client] in
/-- The step of the plain server that an event stands for: a job is served when it replies. -/
def stands (s : SdSystem Client Access Outcome Value Card)
    (e : Event Client Access Outcome Value) :
    Option (Serve.Event Client (Operation Access Outcome Value)) :=
  match s.guard.watchdog with
  | .restarted _ => none
  | _ =>
    match e with
    | .call c _ op => some (.send c op)
    | .recv c => some (.collect c)
    | .worker =>
      match s.guard.stage, s.worker with
      | .resting, .running _ (.done _) [] => some .serve
      | _, _ => none
    | _ => none

/-- **The worker and the plain server.**  A job in the middle ends as it does when it is carried out
at once on the plain server's card. -/
structure Plain (s : SdSystem Client Access Outcome Value Card)
    (t : Serve.Server Client (Operation Access Outcome Value) Value Card) : Prop where
  callers : s.callers = t.callers
  queue : t.queue = (s.worker.current ++ s.jobs).map fun job => (job.client, job.op)
  card : match s.worker with
    | .running job op stack =>
      Operation.resume driver stack (op.run driver s.card) = job.op.run driver t.dev
    | _ => s.card = t.dev

section

variable {driver} {s : SdSystem Client Access Outcome Value Card}
  {t : Serve.Server Client (Operation Access Outcome Value) Value Card}

omit [DecidableEq Client] in
/-- What the worker does to its deadlines and to the usage numbers is not to be seen there. -/
theorem Plain.of_eq (h : Plain driver s t) {s' : SdSystem Client Access Outcome Value Card}
    (hcallers : s'.callers = s.callers) (hjobs : s'.jobs = s.jobs) (hworker : s'.worker = s.worker)
    (hcard : s'.card = s.card) : Plain driver s' t where
  callers := hcallers.trans h.callers
  queue := by rw [hworker, hjobs, h.queue]
  card := by
    rw [hworker, hcard]
    exact h.card

omit [DecidableEq Client] in
theorem stands_worker (hrunning : ∀ label, s.guard.watchdog ≠ .restarted label) :
    s.stands .worker =
      match s.guard.stage, s.worker with
      | .resting, .running _ (.done _) [] => some .serve
      | _, _ => none := by
  rw [stands]
  split
  · next label hlabel => exact absurd hlabel (hrunning label)
  · rfl

/-- The reply of a job is where the plain server serves it. -/
theorem Plain.reply (h : Plain driver s t) {job : SdJob Client Access Outcome Value} {value : Value}
    (hworker : s.worker = .running job (.done value) []) :
    Plain driver
      { s with
        callers := Function.update s.callers job.client (.answered value)
        worker := .replied job.label }
      (Serve.step (Operation.run driver) t .serve) := by
  obtain ⟨hcallers, hqueue, hcard⟩ := h
  rw [hworker] at hqueue hcard
  have hrun : (s.card, value) = job.op.run driver t.dev := hcard
  have hserve : Serve.step (Operation.run driver) t .serve =
      { dev := s.card
        queue := s.jobs.map fun job => (job.client, job.op)
        callers := Function.update t.callers job.client (.answered value) } := by
    have hcons : t.queue =
        (job.client, job.op) :: s.jobs.map (fun job => (job.client, job.op)) := hqueue
    rw [Serve.step, hcons]
    dsimp only
    rw [← hrun]
  rw [hserve, hcallers]
  exact ⟨rfl, rfl, rfl⟩

theorem Plain.work (h : Plain driver s t)
    (hrunning : ∀ label, s.guard.watchdog ≠ .restarted label) :
    Plain driver (s.work driver)
      (run (Serve.step (Operation.run driver)) t (s.stands .worker).toList) := by
  rw [stands_worker hrunning]
  by_cases hstage : s.guard.stage = .resting
  · cases hworker : s.worker with
    | running job op stack =>
      have hqueue := h.queue
      have hcard := h.card
      rw [hworker] at hqueue hcard
      cases op with
      | done value =>
        cases stack with
        | nil =>
          have hwork : s.work driver =
              { s with
                callers := Function.update s.callers job.client (.answered value)
                worker := .replied job.label } := by
            rw [SdSystem.work, hstage, hworker]
          rw [hwork, hstage]
          exact h.reply hworker
        | cons frame stack =>
          rw [SdSystem.work, hstage, hworker]
          exact ⟨h.callers, hqueue, hcard⟩
      | access a next =>
        rw [SdSystem.work, hstage, hworker]
        exact ⟨h.callers, hqueue, hcard⟩
      | call label inner next =>
        rw [SdSystem.work, hstage, hworker]
        exact ⟨h.callers, hqueue, hcard⟩
    | taken job =>
      have hqueue := h.queue
      have hcard := h.card
      rw [hworker] at hqueue hcard
      rw [SdSystem.work, hstage, hworker]
      refine ⟨h.callers, hqueue, ?_⟩
      exact congrArg (fun card => job.op.run driver card) hcard
    | receiving =>
      have hqueue := h.queue
      have hcard := h.card
      rw [hworker] at hqueue hcard
      cases hjobs : s.jobs with
      | nil =>
        rw [SdSystem.work, hstage, hworker]
        rw [hjobs] at hqueue
        simp only [hjobs]
        exact ⟨h.callers, hqueue, hcard⟩
      | cons job jobs =>
        rw [SdSystem.work, hstage, hworker]
        rw [hjobs] at hqueue
        simp only [hjobs]
        exact ⟨h.callers, hqueue, hcard⟩
    | polling =>
      have hqueue := h.queue
      have hcard := h.card
      rw [hworker] at hqueue hcard
      rw [SdSystem.work, hstage, hworker]
      dsimp only
      cases s.usageRefresh && s.ready with
      | true => exact ⟨h.callers, hqueue, hcard⟩
      | false => exact ⟨h.callers, hqueue, hcard⟩
    | _ =>
      have hqueue := h.queue
      have hcard := h.card
      rw [hworker] at hqueue hcard
      rw [SdSystem.work, hstage, hworker]
      exact ⟨h.callers, hqueue, hcard⟩
  · rw [s.work_proceed driver hstage]
    have hnone : (match s.guard.stage, s.worker with
        | .resting, .running _ (.done _) [] => some Serve.Event.serve
        | _, _ => (none : Option (Serve.Event Client (Operation Access Outcome Value)))) =
        none := by
      split
      · next hresting _ => exact absurd hresting hstage
      · rfl
    rw [hnone]
    exact h.of_eq rfl rfl rfl rfl

omit [DecidableEq Client] in
/-- Nothing is sent or returned, and no step of the plain server stands for one, once the chip has
restarted. -/
theorem stands_restarted {label : String} (h : s.guard.watchdog = .restarted label)
    (e : Event Client Access Outcome Value) :
    s.stands e = none ∧ s.sentBy e = none ∧ s.returnedBy e = none := by
  refine ⟨by cases e <;> simp only [stands, h], ?_, ?_⟩
  · cases e with
    | call c label op => simp only [sentBy, h]
    | _ => rfl
  · cases e with
    | recv c => simp only [returnedBy, h]
    | _ => rfl

theorem Plain.call (h : Plain driver s t) (c : Client) (label : String)
    (op : Operation Access Outcome Value) :
    Plain driver (s.act driver (.call c label op))
      (Serve.step (Operation.run driver) t (.send c op)) := by
  rw [act, Serve.step, ← h.callers]
  cases hc : s.callers c with
  | idle =>
    refine ⟨by rw [h.callers], ?_, h.card⟩
    simp only [h.queue, List.map_append, List.append_assoc, List.map_cons, List.map_nil]
  | waiting => exact h
  | answered value => exact h

theorem Plain.recv (h : Plain driver s t) (c : Client) :
    Plain driver (s.act driver (.recv c))
      (Serve.step (Operation.run driver) t (.collect c)) := by
  rw [act, Serve.step, ← h.callers]
  cases hc : s.callers c with
  | answered value => exact ⟨by rw [h.callers], h.queue, h.card⟩
  | waiting => exact h
  | idle => exact h

omit [DecidableEq Client] in
theorem stands_running (hrunning : ∀ label, s.guard.watchdog ≠ .restarted label) :
    (∀ c label op, s.stands (.call c label op) = some (.send c op)) ∧
      (∀ c, s.stands (.recv c) = some (.collect c)) ∧ s.stands .requestUsageRefresh = none ∧
      s.stands .takeUsage = none ∧ s.stands .monitor = none ∧ ∀ us, s.stands (.tick us) = none := by
  unfold stands
  split
  · next label hlabel => exact absurd hlabel (hrunning label)
  · exact ⟨fun _ _ _ => rfl, fun _ => rfl, rfl, rfl, rfl, fun _ => rfl⟩

theorem Plain.step (h : Plain driver s t) (e : Event Client Access Outcome Value) :
    Plain driver (s.step driver e)
      (run (Serve.step (Operation.run driver)) t (s.stands e).toList) := by
  rcases s.step_cases driver e with ⟨label, hlabel, hstep⟩ | ⟨hrunning, hstep⟩
  · rw [hstep, (stands_restarted hlabel e).1]
    exact h
  · obtain ⟨hcall, hrecv, hrequest, htake, hmonitor, htick⟩ := stands_running hrunning
    rw [hstep]
    cases e with
    | call c label op =>
      rw [hcall]
      exact h.call c label op
    | recv c =>
      rw [hrecv]
      exact h.recv c
    | requestUsageRefresh =>
      rw [hrequest]
      exact h.of_eq rfl rfl rfl rfl
    | takeUsage =>
      rw [htake]
      exact h.of_eq rfl rfl rfl rfl
    | worker => exact h.work hrunning
    | monitor =>
      rw [hmonitor]
      exact h.of_eq rfl rfl rfl rfl
    | tick us =>
      rw [htick]
      exact h.of_eq rfl rfl rfl rfl

/-- What is sent and what is returned are what the plain server is sent and gives. -/
theorem Plain.seen (h : Plain driver s t) (e : Event Client Access Outcome Value) :
    s.sentBy e = (s.stands e).bind (Serve.sentBy t) ∧
      s.returnedBy e = (s.stands e).bind (Serve.collectedBy t) := by
  rcases s.step_cases driver e with ⟨label, hlabel, -⟩ | ⟨hrunning, -⟩
  · obtain ⟨hstands, hsent, hreturned⟩ := stands_restarted hlabel e
    rw [hstands, hsent, hreturned]
    exact ⟨rfl, rfl⟩
  · obtain ⟨hcall, hrecv, hrequest, htake, hmonitor, htick⟩ := stands_running hrunning
    cases e with
    | call c label op =>
      rw [hcall, Option.bind_some, Option.bind_some, sentBy, Serve.sentBy, ← h.callers]
      refine ⟨?_, rfl⟩
      cases hw : s.guard.watchdog with
      | restarted label => exact absurd hw (hrunning label)
      | _ => cases s.callers c <;> rfl
    | recv c =>
      rw [hrecv, Option.bind_some, Option.bind_some, returnedBy, Serve.collectedBy, ← h.callers]
      refine ⟨rfl, ?_⟩
      cases hw : s.guard.watchdog with
      | restarted label => exact absurd hw (hrunning label)
      | _ => cases s.callers c <;> rfl
    | worker =>
      rw [stands_worker hrunning]
      split <;> exact ⟨rfl, rfl⟩
    | requestUsageRefresh =>
      rw [hrequest]
      exact ⟨rfl, rfl⟩
    | takeUsage =>
      rw [htake]
      exact ⟨rfl, rfl⟩
    | monitor =>
      rw [hmonitor]
      exact ⟨rfl, rfl⟩
    | tick us =>
      rw [htick]
      exact ⟨rfl, rfl⟩

end

section

variable (guard : Guard) (card : Card) (ready : Bool) (status : StorageStatus)
  (evs : List (Event Client Access Outcome Value))

omit [DecidableEq Client] in
theorem plain_mounted :
    Plain driver (mounted guard card ready status : SdSystem Client Access Outcome Value Card)
      (Serve.start card) := ⟨rfl, rfl, rfl⟩

/-- The operations sent to the worker, in the order they were sent. -/
def sent : List (Client × Operation Access Outcome Value) :=
  collected (step driver) sentBy (mounted guard card ready status) evs

/-- What the calls have returned. -/
def returned : List (Client × Value) :=
  collected (step driver) returnedBy (mounted guard card ready status) evs

/-- **Every caller gets what its own operation returns** when the operations are carried out one
after the other in the order they were sent, whatever the interleaving of the callers, the worker's
accesses, the nested calls, the panel and the watchdog. -/
theorem returned_prefix_answers (c : Client) :
    (returned driver guard card ready status evs).filter (fun p => p.1 = c) <+:
      (Serve.answers (Operation.run driver) card (sent driver guard card ready status evs)).filter
        (fun p => p.1 = c) := by
  have hstep : ∀ (s : SdSystem Client Access Outcome Value Card) t e, Plain driver s t →
      Plain driver (s.step driver e)
        (run (Serve.step (Operation.run driver)) t (s.stands e).toList) :=
    fun _ _ e h => h.step e
  have hplain : Plain driver (mounted guard card ready status : SdSystem Client Access Outcome Value
      Card) (Serve.start card) := plain_mounted driver guard card ready status
  rw [returned, sent, collected_refines hstep (fun _ _ e h => (h.seen e).2) hplain,
    collected_refines hstep (fun _ _ e h => (h.seen e).1) hplain]
  exact Serve.collected_prefix_answers _ card _ c

end

end SdSystem

end GpsNtp.Storage
