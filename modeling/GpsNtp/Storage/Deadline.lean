import GpsNtp.Machinery.MachineInt
import GpsNtp.Machinery.Run

/-!
# Storage/Deadline — the clock on a card call, and the watchdog that reads it

    arm     depth += 1 ─▸ (label) ─▸ timer ─▸ started
    drop    depth -= 1 ─▸ (started := 0)
    sd_wd   delay ─▸ started? ─▸ elapsed? ─▸ label ─▸ restart

The thread in the driver holds its deadlines as a stack, and touches the statics one atomic access
at a time, with the watchdog between any two.  A restart goes back to a call that the thread had
not left when the watchdog looked (`restarted_of_stuck`), and a call it does not leave is restarted
(`restarted_of_quiet`).  Every nested call sets the clock anew, so that the bound is on the last one
armed.
-/

namespace GpsNtp.Storage

open Machine MachineInt

/-- One SD filesystem call must return within this long. -/
def SD_CALL_TIMEOUT_US : ℤ := 180000000

/-- The next access to the statics that the thread in the driver makes, if it is in the middle of
`SdDeadline::arm` or of the drop. -/
inductive Stage
  | resting
  | naming (label : String)
  | reading
  | storing (now : ℤ)
  | clearing
deriving DecidableEq

/-- Where `monitor_main` stands. -/
inductive Watchdog
  | delay
  | loaded (started : ℤ)
  | expired
  | restarted (label : String)
deriving DecidableEq

/-- The statics of a deadline, the thread that holds deadlines, and the watchdog. -/
structure Guard where
  timer : ℤ
  callStartedUs : ℤ
  callLabel : String
  callDepth : ℕ
  held : List String
  stage : Stage
  watchdog : Watchdog
deriving DecidableEq

namespace Guard

/-- Nothing has been called yet. -/
def boot (timer : ℤ) : Guard where
  timer
  callStartedUs := 0
  callLabel := "sd"
  callDepth := 0
  held := []
  stage := .resting
  watchdog := .delay

/-- `SdDeadline::arm` begins: `fetch_add`, which finds zero for the outermost deadline. -/
def arm (g : Guard) (label : String) : Guard :=
  match g.stage with
  | .resting =>
    { g with
      callDepth := g.callDepth + 1
      held := label :: g.held
      stage := if g.callDepth = 0 then .naming label else .reading }
  | _ => g

/-- The next access of an arm or of a drop that has begun. -/
def proceed (g : Guard) : Guard :=
  match g.stage with
  | .resting => g
  | .naming label => { g with callLabel := label, stage := .reading }
  -- `0` is the idle sentinel
  | .reading => { g with stage := .storing (max g.timer 1) }
  | .storing now => { g with callStartedUs := now, stage := .resting }
  | .clearing => { g with callStartedUs := 0, stage := .resting }

/-- The drop of the innermost deadline begins: `fetch_sub`. -/
def drop (g : Guard) : Guard :=
  match g.stage, g.held with
  | .resting, _ :: held =>
    { g with
      callDepth := g.callDepth - 1
      held
      stage := if g.callDepth ≤ 1 then .clearing else .resting }
  | _, _ => g

/-- The next step of `monitor_main`. -/
def monitor (g : Guard) : Guard :=
  match g.watchdog with
  | .delay =>
    if g.callStartedUs = 0 then g else { g with watchdog := .loaded g.callStartedUs }
  | .loaded started =>
    if satSub g.timer started < SD_CALL_TIMEOUT_US then { g with watchdog := .delay }
    else { g with watchdog := .expired }
  | .expired => { g with watchdog := .restarted g.callLabel }
  | .restarted _ => g

/-- What can happen next. -/
inductive Event
  | arm (label : String)
  | proceed
  | drop
  | monitor
  | tick (us : ℕ)
deriving DecidableEq

/-- What an event does while the chip runs. -/
def act (g : Guard) : Event → Guard
  | .arm label => g.arm label
  | .proceed => g.proceed
  | .drop => g.drop
  | .monitor => g.monitor
  | .tick us => { g with timer := g.timer + us }

/-- One step, which changes nothing once the chip has restarted. -/
def step (g : Guard) (e : Event) : Guard :=
  match g.watchdog with
  | .restarted _ => g
  | _ => g.act e

/-- The thread has armed a deadline and not cleared the clock. -/
def InCall (g : Guard) : Prop := g.held ≠ [] ∨ g.stage = .clearing

variable {g : Guard}

theorem step_restarted {label : String} (h : g.watchdog = .restarted label) (e : Event) :
    g.step e = g := by
  rw [step, h]

theorem step_running (h : ∀ label, g.watchdog ≠ .restarted label) (e : Event) :
    g.step e = g.act e := by
  rw [step]
  split
  · next label hlabel => exact absurd hlabel (h label)
  · rfl

theorem step_cases (g : Guard) (e : Event) :
    (∃ label, g.watchdog = .restarted label ∧ g.step e = g) ∨
      (∀ label, g.watchdog ≠ .restarted label) ∧ g.step e = g.act e := by
  by_cases h : ∃ label, g.watchdog = .restarted label
  · obtain ⟨label, h⟩ := h
    exact .inl ⟨label, h, step_restarted h e⟩
  · have h : ∀ label, g.watchdog ≠ .restarted label := fun label hl => h ⟨label, hl⟩
    exact .inr ⟨h, step_running h e⟩

/-! ## What one access does -/

theorem arm_cases (g : Guard) (label : String) :
    (g.stage = .resting ∧
      g.arm label =
        { g with
          callDepth := g.callDepth + 1
          held := label :: g.held
          stage := if g.callDepth = 0 then .naming label else .reading }) ∨ g.arm label = g := by
  rw [arm]
  split
  · next h => exact .inl ⟨h, rfl⟩
  · exact .inr rfl

theorem drop_cases (g : Guard) :
    (∃ label held, g.stage = .resting ∧ g.held = label :: held ∧
      g.drop =
        { g with
          callDepth := g.callDepth - 1
          held
          stage := if g.callDepth ≤ 1 then .clearing else .resting }) ∨ g.drop = g := by
  rw [drop]
  split
  · next label held hstage hheld => exact .inl ⟨label, held, hstage, hheld, rfl⟩
  · exact .inr rfl

theorem monitor_cases (g : Guard) :
    (g.watchdog = .delay ∧ g.callStartedUs ≠ 0 ∧
      g.monitor = { g with watchdog := .loaded g.callStartedUs }) ∨
    (∃ started, g.watchdog = .loaded started ∧ g.timer - started < SD_CALL_TIMEOUT_US ∧
      g.monitor = { g with watchdog := .delay }) ∨
    (∃ started, g.watchdog = .loaded started ∧ SD_CALL_TIMEOUT_US ≤ g.timer - started ∧
      g.monitor = { g with watchdog := .expired }) ∨
    (g.watchdog = .expired ∧ g.monitor = { g with watchdog := .restarted g.callLabel }) ∨
    (g.watchdog ≠ .expired ∧ (∀ started, g.watchdog ≠ .loaded started) ∧
      (g.watchdog = .delay → g.callStartedUs = 0) ∧ g.monitor = g) := by
  rw [monitor]
  cases hw : g.watchdog with
  | delay =>
    by_cases h : g.callStartedUs = 0
    · exact .inr (.inr (.inr (.inr ⟨nofun, nofun, fun _ => h, if_pos h⟩)))
    · exact .inl ⟨rfl, h, if_neg h⟩
  | loaded started =>
    have hlt := @satSub_lt_iff g.timer started SD_CALL_TIMEOUT_US (by decide) (by decide)
    by_cases h : satSub g.timer started < SD_CALL_TIMEOUT_US
    · exact .inr (.inl ⟨started, rfl, hlt.mp h, if_pos h⟩)
    · exact .inr (.inr (.inl ⟨started, rfl, not_lt.mp (mt hlt.mpr h), if_neg h⟩))
  | expired => exact .inr (.inr (.inr (.inl ⟨rfl, rfl⟩)))
  | restarted label => exact .inr (.inr (.inr (.inr ⟨nofun, nofun, nofun, rfl⟩)))

/-! ## What the statics say -/

/-- How far the thread has come, and what the clock and the label hold there. -/
def Staged (g : Guard) : Prop :=
  match g.stage with
  | .resting => (g.held = [] ↔ g.callStartedUs = 0) ∧ (g.held ≠ [] → g.held.getLast? = g.callLabel)
  | .naming label => g.held = [label] ∧ g.callStartedUs = 0
  | .reading =>
    g.held ≠ [] ∧ g.held.getLast? = g.callLabel ∧ (g.held.length = 1 ↔ g.callStartedUs = 0)
  | .storing now =>
    g.held ≠ [] ∧ g.held.getLast? = g.callLabel ∧ (g.held.length = 1 ↔ g.callStartedUs = 0) ∧
      0 < now ∧ now ≤ max g.timer 1
  | .clearing => g.held = [] ∧ g.callStartedUs ≠ 0

/-- **What holds between any two accesses.** -/
structure Sound (g : Guard) : Prop where
  depth : g.callDepth = g.held.length
  staged : g.Staged
  past : g.callStartedUs ≤ max g.timer 1

theorem sound_boot (timer : ℤ) : (boot timer).Sound where
  depth := rfl
  staged := ⟨by simp [boot], fun h => absurd rfl h⟩
  past := by simp [boot]

theorem Sound.inCall (h : g.Sound) (hstarted : g.callStartedUs ≠ 0) : g.InCall := by
  have hstaged := h.staged
  rw [Staged] at hstaged
  rw [InCall]
  split at hstaged
  · exact .inl fun hheld => hstarted (hstaged.1.mp hheld)
  · exact absurd hstaged.2 hstarted
  · exact .inl hstaged.1
  · exact .inl hstaged.1
  · next hstage => exact .inr hstage

theorem Sound.inCall_storing (h : g.Sound) {now : ℤ} (hstage : g.stage = .storing now) :
    g.InCall := by
  have hstaged := h.staged
  rw [Staged, hstage] at hstaged
  exact .inl hstaged.1

theorem Sound.arm (h : g.Sound) (label : String) : (g.arm label).Sound := by
  rcases g.arm_cases label with ⟨hstage, harm⟩ | harm
  · have hstaged := h.staged
    rw [Staged, hstage] at hstaged
    rw [harm]
    refine ⟨by simp [h.depth], ?_, h.past⟩
    rcases hheld : g.held with _ | ⟨outer, held⟩
    · have hdepth : g.callDepth = 0 := by rw [h.depth, hheld, List.length_nil]
      simp only [Staged, if_pos hdepth]
      exact ⟨trivial, hstaged.1.mp hheld⟩
    · have hdepth : g.callDepth ≠ 0 := by rw [h.depth, hheld]; simp
      have hne : g.held ≠ [] := by rw [hheld]; simp
      simp only [Staged, if_neg hdepth]
      refine ⟨by simp, ?_, ?_⟩
      · rw [List.getLast?_cons_cons, ← hheld]
        exact hstaged.2 hne
      · refine ⟨fun hlength => by simp at hlength, fun hstarted => ?_⟩
        exact absurd (hstaged.1.mpr hstarted) hne
  · rwa [harm]

theorem Sound.proceed (h : g.Sound) : g.proceed.Sound := by
  have hstaged := h.staged
  rw [Staged] at hstaged
  rw [Guard.proceed]
  split at hstaged
  · exact h
  · obtain ⟨hheld, hstarted⟩ := hstaged
    exact ⟨h.depth, ⟨by simp [hheld], by simp [hheld], by simp [hheld, hstarted]⟩, h.past⟩
  · obtain ⟨hheld, hlabel, hstarted⟩ := hstaged
    refine ⟨h.depth, ⟨hheld, hlabel, hstarted, ?_, le_rfl⟩, h.past⟩
    exact lt_of_lt_of_le Int.one_pos (le_max_right _ _)
  · obtain ⟨hheld, hlabel, hstarted, hpos, hle⟩ := hstaged
    exact ⟨h.depth, ⟨⟨fun he => absurd he hheld, fun he => absurd he hpos.ne'⟩, fun _ => hlabel⟩,
      hle⟩
  · obtain ⟨hheld, hstarted⟩ := hstaged
    exact ⟨h.depth, ⟨⟨fun _ => rfl, fun _ => hheld⟩, fun he => absurd hheld he⟩,
      le_trans Int.one_pos.le (le_max_right _ _)⟩

theorem Sound.drop (h : g.Sound) : g.drop.Sound := by
  rcases g.drop_cases with ⟨label, held, hstage, hheld, hdrop⟩ | hdrop
  · have hstaged := h.staged
    rw [Staged, hstage] at hstaged
    have hne : g.held ≠ [] := by rw [hheld]; simp
    have hstarted : g.callStartedUs ≠ 0 := fun he => hne (hstaged.1.mpr he)
    have hdepth := h.depth
    rw [hheld, List.length_cons] at hdepth
    rw [hdrop]
    refine ⟨by simp only; omega, ?_, h.past⟩
    rcases held with _ | ⟨outer, held⟩
    · simp only [Staged, if_pos (show g.callDepth ≤ 1 by simp [hdepth])]
      exact ⟨trivial, hstarted⟩
    · simp only [Staged, if_neg (show ¬g.callDepth ≤ 1 by simp [hdepth])]
      refine ⟨⟨fun he => absurd he (List.cons_ne_nil _ _), fun he => absurd he hstarted⟩, ?_⟩
      intro _
      rw [← hstaged.2 hne, hheld, List.getLast?_cons_cons]
  · rwa [hdrop]

theorem Sound.monitor (h : g.Sound) : g.monitor.Sound := by
  obtain ⟨watchdog, hmonitor⟩ : ∃ watchdog, g.monitor = { g with watchdog } := by
    rcases g.monitor_cases with ⟨-, -, hm⟩ | ⟨-, -, -, hm⟩ | ⟨-, -, -, hm⟩ | ⟨-, hm⟩ | ⟨-, -, -, hm⟩
    · exact ⟨_, hm⟩
    · exact ⟨_, hm⟩
    · exact ⟨_, hm⟩
    · exact ⟨_, hm⟩
    · exact ⟨g.watchdog, hm⟩
  rw [hmonitor]
  exact ⟨h.depth, h.staged, h.past⟩

theorem Sound.tick (h : g.Sound) (us : ℕ) : { g with timer := g.timer + us }.Sound := by
  have hle : max g.timer 1 ≤ max (g.timer + us) 1 := max_le_max (by omega) le_rfl
  refine ⟨h.depth, ?_, h.past.trans hle⟩
  have hstaged := h.staged
  rw [Staged] at hstaged ⊢
  simp only
  split at hstaged
  · exact hstaged
  · exact hstaged
  · exact hstaged
  · obtain ⟨hheld, hlabel, hstarted, hpos, hnow⟩ := hstaged
    exact ⟨hheld, hlabel, hstarted, hpos, hnow.trans hle⟩
  · exact hstaged

theorem Sound.step (h : g.Sound) (e : Event) : (g.step e).Sound := by
  rcases g.step_cases e with ⟨-, -, hstep⟩ | ⟨-, hstep⟩
  · rwa [hstep]
  · rw [hstep]
    cases e with
    | arm label => exact h.arm label
    | proceed => exact h.proceed
    | drop => exact h.drop
    | monitor => exact h.monitor
    | tick us => exact h.tick us

theorem Sound.run (h : g.Sound) (evs : List Event) : (run Guard.step g evs).Sound :=
  run_induction (fun _ e hg => hg.step e) h evs

/-! ## A restart goes back to a call that had not been left -/

/-- The thread stays in its call, where no arm but the one that read `v` stores its reading. -/
def StaysIn (v : ℤ) (g : Guard) (e : Event) : Prop :=
  g.InCall ∧ (e = .proceed → ∀ now, g.stage = .storing now → now = v)

/-- An arm has read `v` from the timer, and the thread has stayed in its call since. -/
def Armed (timer : ℤ) (hist : List Event) (v : ℤ) : Prop :=
  ∃ before call, hist = before ++ .proceed :: call ∧
    (run step (boot timer) before).stage = .reading ∧
    v = max (run step (boot timer) before).timer 1 ∧
    Throughout step (StaysIn v) (run step (boot timer) (before ++ [.proceed])) call

/-- The last thing the watchdog did was to load `v` from the clock of a call that the thread had
not left. -/
def Found (timer : ℤ) (hist : List Event) (v : ℤ) : Prop :=
  ∃ called wait, hist = called ++ .monitor :: wait ∧ .monitor ∉ wait ∧
    (run step (boot timer) called).watchdog = .delay ∧
    (run step (boot timer) called).callStartedUs = v ∧
    (run step (boot timer) called).InCall ∧ Armed timer called v

/-- The last thing the watchdog did was to compare the `v` that it had loaded so with a timer that
was past it by the timeout. -/
def Overdue (timer : ℤ) (hist : List Event) : Prop :=
  ∃ found wait v, hist = found ++ .monitor :: wait ∧ .monitor ∉ wait ∧ Found timer found v ∧
    (run step (boot timer) found).watchdog = .loaded v ∧
    SD_CALL_TIMEOUT_US ≤ (run step (boot timer) found).timer - v

/-- The watchdog has restarted the chip for what it had compared last, under the name that the
label had by then. -/
def RestartedFor (timer : ℤ) (hist : List Event) (label : String) : Prop :=
  ∃ overdue after, hist = overdue ++ .monitor :: after ∧ Overdue timer overdue ∧
    (run step (boot timer) overdue).watchdog = .expired ∧
    (run step (boot timer) overdue).callLabel = label

variable {timer v : ℤ} {hist : List Event}

theorem Armed.append (h : Armed timer hist v) {e : Event}
    (he : StaysIn v (run step (boot timer) hist) e) : Armed timer (hist ++ [e]) v := by
  obtain ⟨before, call, rfl, hstage, hv, hstays⟩ := h
  refine ⟨before, call ++ [e], by simp, hstage, hv, throughout_append.mpr ⟨hstays, ?_, trivial⟩⟩
  rwa [← run_append, List.append_assoc, List.singleton_append]

theorem notMem_append_singleton {wait : List Event} {e : Event} (hwait : .monitor ∉ wait)
    (he : e ≠ .monitor) : .monitor ∉ wait ++ [e] := by
  rw [List.mem_append, List.mem_singleton, not_or]
  exact ⟨hwait, he.symm⟩

theorem Found.append (h : Found timer hist v) {e : Event} (he : e ≠ .monitor) :
    Found timer (hist ++ [e]) v := by
  obtain ⟨called, wait, rfl, hwait, hcalled⟩ := h
  exact ⟨called, wait ++ [e], by simp, notMem_append_singleton hwait he, hcalled⟩

theorem Overdue.append (h : Overdue timer hist) {e : Event} (he : e ≠ .monitor) :
    Overdue timer (hist ++ [e]) := by
  obtain ⟨found, wait, v, rfl, hwait, hfound⟩ := h
  exact ⟨found, wait ++ [e], v, by simp, notMem_append_singleton hwait he, hfound⟩

theorem RestartedFor.append {label : String} (h : RestartedFor timer hist label) (e : Event) :
    RestartedFor timer (hist ++ [e]) label := by
  obtain ⟨overdue, after, rfl, hoverdue⟩ := h
  exact ⟨overdue, after ++ [e], by simp, hoverdue⟩

/-- **What was read and by whom**, at the end of a history the chip runs after. -/
structure Traced (timer : ℤ) (hist : List Event) (g : Guard) : Prop where
  here : g = run Guard.step (boot timer) hist
  running : ∀ label, g.watchdog ≠ .restarted label
  sound : g.Sound
  stored : g.callStartedUs ≠ 0 → Armed timer hist g.callStartedUs
  storing : ∀ now, g.stage = .storing now → Armed timer hist now
  loaded : ∀ started, g.watchdog = .loaded started → Found timer hist started
  expired : g.watchdog = .expired → Overdue timer hist

/-- A step that does not touch the clock leaves the thread in its call. -/
theorem Traced.stored_append (h : Traced timer hist g) {e : Event}
    (he : e = .proceed → ∀ now, g.stage ≠ .storing now) (hstarted : g.callStartedUs ≠ 0) :
    Armed timer (hist ++ [e]) g.callStartedUs := by
  refine (h.stored hstarted).append ?_
  rw [← h.here]
  exact ⟨h.sound.inCall hstarted, fun hproceed now hnow => absurd hnow (he hproceed now)⟩

theorem Traced.storing_append (h : Traced timer hist g) (e : Event) {now : ℤ}
    (hstage : g.stage = .storing now) : Armed timer (hist ++ [e]) now := by
  refine (h.storing now hstage).append ?_
  rw [← h.here]
  refine ⟨h.sound.inCall_storing hstage, fun _ now' hnow' => ?_⟩
  rw [hstage] at hnow'
  exact (Stage.storing.inj hnow').symm

theorem traced_boot (timer : ℤ) : Traced timer [] (boot timer) where
  here := rfl
  running := nofun
  sound := sound_boot timer
  stored := fun h => absurd rfl h
  storing := nofun
  loaded := nofun
  expired := nofun

/-- A step of the thread, or of the timer, leaves the watchdog where it is. -/
theorem Traced.of_watchdog (h : Traced timer hist g) {e : Event} (he : e ≠ .monitor)
    (hwatchdog : (g.step e).watchdog = g.watchdog)
    (hstored : (g.step e).callStartedUs ≠ 0 → Armed timer (hist ++ [e]) (g.step e).callStartedUs)
    (hstoring : ∀ now, (g.step e).stage = .storing now → Armed timer (hist ++ [e]) now) :
    Traced timer (hist ++ [e]) (g.step e) where
  here := by rw [run_append, ← h.here, run_cons, run_nil]
  running label hl := h.running label (hwatchdog ▸ hl)
  sound := h.sound.step e
  stored := hstored
  storing := hstoring
  loaded started hl := (h.loaded started (hwatchdog ▸ hl)).append he
  expired hl := (h.expired (hwatchdog ▸ hl)).append he

theorem Traced.proceed (h : Traced timer hist g) :
    Traced timer (hist ++ [.proceed]) (g.step .proceed) := by
  have hstep : g.step .proceed = g.proceed := step_running h.running _
  cases hstage : g.stage with
  | resting =>
    rw [Guard.proceed, hstage] at hstep
    apply h.of_watchdog (by simp)
    · rw [hstep]
    · rw [hstep]
      exact h.stored_append fun _ now => by simp [hstage]
    · rw [hstep]
      exact fun now => h.storing_append _
  | naming label =>
    rw [Guard.proceed, hstage] at hstep
    apply h.of_watchdog (by simp)
    · rw [hstep]
    · rw [hstep]
      exact h.stored_append fun _ now => by simp [hstage]
    · rw [hstep]
      nofun
  | reading =>
    rw [Guard.proceed, hstage] at hstep
    apply h.of_watchdog (by simp)
    · rw [hstep]
    · rw [hstep]
      exact h.stored_append fun _ now => by simp [hstage]
    · rw [hstep]
      intro now hnow
      have hnow : max g.timer 1 = now := Stage.storing.inj hnow
      refine ⟨hist, [], rfl, ?_, ?_, trivial⟩
      · rw [← h.here, hstage]
      · rw [← h.here, hnow]
  | storing now =>
    rw [Guard.proceed, hstage] at hstep
    apply h.of_watchdog (by simp)
    · rw [hstep]
    · rw [hstep]
      exact fun _ => h.storing_append _ hstage
    · rw [hstep]
      nofun
  | clearing =>
    rw [Guard.proceed, hstage] at hstep
    apply h.of_watchdog (by simp)
    · rw [hstep]
    · rw [hstep]
      exact fun hne => absurd rfl hne
    · rw [hstep]
      nofun

theorem Traced.of_act (h : Traced timer hist g) {e : Event} (he : e ≠ .proceed)
    (hmonitor : e ≠ .monitor)
    (hwatchdog : (g.act e).watchdog = g.watchdog)
    (hstarted : (g.act e).callStartedUs = g.callStartedUs)
    (hstage : ∀ now, (g.act e).stage = .storing now → g.stage = .storing now) :
    Traced timer (hist ++ [e]) (g.step e) := by
  have hstep := step_running h.running e
  apply h.of_watchdog hmonitor
  · rw [hstep, hwatchdog]
  · rw [hstep, hstarted]
    exact h.stored_append fun hproceed => absurd hproceed he
  · rw [hstep]
    exact fun now hnow => h.storing_append e (hstage now hnow)

/-- The watchdog looks, compares, or restarts the chip for a call it has found overdue. -/
theorem Traced.monitor (h : Traced timer hist g) :
    Traced timer (hist ++ [.monitor]) (g.step .monitor) ∨
      ∃ label, (g.step .monitor).watchdog = .restarted label ∧
        RestartedFor timer (hist ++ [.monitor]) label := by
  have hhere : g.step .monitor = run Guard.step (boot timer) (hist ++ [.monitor]) := by
    rw [run_append, ← h.here, run_cons, run_nil]
  have hstored : g.callStartedUs ≠ 0 → Armed timer (hist ++ [.monitor]) g.callStartedUs :=
    h.stored_append nofun
  have hstoring : ∀ now, g.stage = .storing now → Armed timer (hist ++ [.monitor]) now :=
    fun now => h.storing_append _
  have hsound := h.sound.step .monitor
  rw [step_running h.running, show g.act .monitor = g.monitor from rfl] at hhere hsound ⊢
  rcases g.monitor_cases with ⟨hw, hne, hm⟩ | ⟨started, hw, -, hm⟩ | ⟨started, hw, hlate, hm⟩ |
    ⟨hw, hm⟩ | ⟨hexpired, hloaded, -, hm⟩
  · rw [hm] at hhere hsound ⊢
    refine .inl ⟨hhere, nofun, hsound, hstored, hstoring, fun started hl => ?_, nofun⟩
    obtain rfl : g.callStartedUs = started := Watchdog.loaded.inj hl
    refine ⟨hist, [], rfl, List.not_mem_nil, ?_, ?_, ?_, h.stored hne⟩
    · rw [← h.here, hw]
    · rw [← h.here]
    · rw [← h.here]
      exact h.sound.inCall hne
  · rw [hm] at hhere hsound ⊢
    exact .inl ⟨hhere, nofun, hsound, hstored, hstoring, nofun, nofun⟩
  · rw [hm] at hhere hsound ⊢
    refine .inl ⟨hhere, nofun, hsound, hstored, hstoring, nofun, fun _ => ?_⟩
    refine ⟨hist, [], started, rfl, List.not_mem_nil, h.loaded started hw, ?_, ?_⟩
    · rw [← h.here, hw]
    · rwa [← h.here]
  · refine .inr ⟨g.callLabel, by rw [hm], hist, [], rfl, h.expired hw, ?_, ?_⟩
    · rw [← h.here, hw]
    · rw [← h.here]
  · rw [hm] at hhere hsound ⊢
    exact .inl ⟨hhere, h.running, hsound, hstored, hstoring,
      fun started hl => absurd hl (hloaded started), fun hl => absurd hl hexpired⟩

theorem Traced.step (h : Traced timer hist g) (e : Event) :
    Traced timer (hist ++ [e]) (g.step e) ∨
      ∃ label, (g.step e).watchdog = .restarted label ∧ RestartedFor timer (hist ++ [e]) label := by
  cases e with
  | arm label =>
    refine .inl ?_
    rcases g.arm_cases label with ⟨-, harm⟩ | harm
    · have hact : g.act (.arm label) = _ := harm
      refine h.of_act (by simp) (by simp) (by rw [hact]) (by rw [hact]) ?_
      rw [hact]
      intro now hnow
      dsimp only at hnow
      split at hnow <;> cases hnow
    · have hact : g.act (.arm label) = g := harm
      exact h.of_act (by simp) (by simp) (by rw [hact]) (by rw [hact]) fun now hnow => by
        rwa [hact] at hnow
  | proceed => exact .inl h.proceed
  | drop =>
    refine .inl ?_
    rcases g.drop_cases with ⟨label, held, -, -, hdrop⟩ | hdrop
    · have hact : g.act .drop = _ := hdrop
      refine h.of_act (by simp) (by simp) (by rw [hact]) (by rw [hact]) ?_
      rw [hact]
      intro now hnow
      dsimp only at hnow
      split at hnow <;> cases hnow
    · have hact : g.act .drop = g := hdrop
      exact h.of_act (by simp) (by simp) (by rw [hact]) (by rw [hact]) fun now hnow => by
        rwa [hact] at hnow
  | monitor => exact h.monitor
  | tick us => exact .inl (h.of_act (by simp) (by simp) rfl rfl fun _ => id)

theorem traced_run (timer : ℤ) (evs : List Event) :
    Traced timer evs (run step (boot timer) evs) ∨
      ∃ label, (run step (boot timer) evs).watchdog = .restarted label ∧
        RestartedFor timer evs label := by
  refine @run_history_induction _ _ _ (fun hist g => Traced timer hist g ∨
    ∃ label, g.watchdog = .restarted label ∧ RestartedFor timer hist label) _
    (.inl (traced_boot timer)) ?_ evs
  rintro hist g e (h | ⟨label, hw, h⟩)
  · exact h.step e
  · exact .inr ⟨label, by rw [step_restarted hw, hw], h.append e⟩

/-- The events in which the thread takes no step. -/
def Event.quiet : Event → Bool
  | .monitor | .tick _ => true
  | .arm _ | .proceed | .drop => false

/-- How many steps the watchdog is from restarting the chip for a call whose clock reads `v` and is
past the timeout.  What it has loaded may still come from the call before. -/
def remaining (v : ℤ) (g : Guard) : ℕ :=
  match g.watchdog with
  | .restarted _ => 0
  | .expired => 1
  | .loaded started => if started = v then 2 else 4
  | .delay => 3

theorem remaining_le (v : ℤ) (g : Guard) : g.remaining v ≤ 4 := by
  rw [remaining]
  split
  · omega
  · omega
  · split <;> omega
  · omega

/-- A call whose clock reads `v`, and what a restart would name it. -/
structure Busy (v : ℤ) (label : String) (g : Guard) : Prop where
  started : g.callStartedUs = v
  busy : v ≠ 0
  named : g.callLabel = label
  names : ∀ reported, g.watchdog = .restarted reported → reported = label

variable {label : String}

theorem Busy.monitor (h : Busy v label g) : Busy v label g.monitor := by
  rcases g.monitor_cases with ⟨-, -, hm⟩ | ⟨-, -, -, hm⟩ | ⟨-, -, -, hm⟩ | ⟨-, hm⟩ | ⟨-, -, -, hm⟩
  · rw [hm]
    exact ⟨h.started, h.busy, h.named, nofun⟩
  · rw [hm]
    exact ⟨h.started, h.busy, h.named, nofun⟩
  · rw [hm]
    exact ⟨h.started, h.busy, h.named, nofun⟩
  · rw [hm]
    refine ⟨h.started, h.busy, h.named, fun reported hr => ?_⟩
    rw [← Watchdog.restarted.inj hr, h.named]
  · rwa [hm]

theorem Busy.step (h : Busy v label g) {e : Event} (he : e.quiet = true) :
    Busy v label (g.step e) := by
  rcases g.step_cases e with ⟨-, -, hstep⟩ | ⟨-, hstep⟩
  · rwa [hstep]
  · rw [hstep]
    cases e with
    | arm label => cases he
    | proceed => cases he
    | drop => cases he
    | monitor => exact h.monitor
    | tick us => exact ⟨h.started, h.busy, h.named, h.names⟩

theorem Busy.run (h : Busy v label g) {evs : List Event} (hevs : ∀ e ∈ evs, e.quiet = true) :
    Busy v label (Machine.run Guard.step g evs) := by
  have hkept : ∀ g e, e.quiet = true → Busy v label g → Busy v label (Guard.step g e) :=
    fun _ _ he hg => hg.step he
  exact run_throughout hkept h (throughout_of_forall hevs g)

/-- Past the timeout, every step of the watchdog brings the restart closer. -/
theorem Busy.remaining_monitor (h : Busy v label g) (hlate : SD_CALL_TIMEOUT_US ≤ g.timer - v) :
    g.monitor.remaining v ≤ g.remaining v - 1 := by
  rcases g.monitor_cases with ⟨hw, hne, hm⟩ | ⟨started, hw, hlt, hm⟩ | ⟨started, hw, -, hm⟩ |
    ⟨hw, hm⟩ | ⟨hexpired, hloaded, hdelay, hm⟩
  · rw [hm]
    simp [remaining, hw, h.started]
  · have hstale : started ≠ v := by
      rintro rfl
      exact absurd hlt (not_lt.mpr hlate)
    rw [hm]
    simp [remaining, hw, hstale]
  · rw [hm]
    simp only [remaining, hw]
    split <;> simp
  · rw [hm]
    simp [remaining, hw]
  · rw [hm, remaining]
    split
    · simp
    · next hw => exact absurd hw hexpired
    · next started hw => exact absurd hw (hloaded started)
    · next hw => exact absurd (h.started.symm.trans (hdelay hw)) h.busy

theorem Busy.remaining_step (h : Busy v label g) (hlate : SD_CALL_TIMEOUT_US ≤ g.timer - v)
    {e : Event} (he : e.quiet = true) :
    SD_CALL_TIMEOUT_US ≤ (g.step e).timer - v ∧
      (g.step e).remaining v ≤ g.remaining v - (if e = .monitor then 1 else 0) := by
  rcases g.step_cases e with ⟨reported, hw, hstep⟩ | ⟨-, hstep⟩
  · rw [hstep]
    refine ⟨hlate, ?_⟩
    simp [remaining, hw]
  · rw [hstep]
    cases e with
    | arm label => cases he
    | proceed => cases he
    | drop => cases he
    | monitor =>
      refine ⟨?_, h.remaining_monitor hlate⟩
      show _ ≤ g.monitor.timer - v
      rcases g.monitor_cases with ⟨-, -, hm⟩ | ⟨-, -, -, hm⟩ | ⟨-, -, -, hm⟩ | ⟨-, hm⟩ |
        ⟨-, -, -, hm⟩ <;> rwa [hm]
    | tick us =>
      refine ⟨?_, by simp [remaining, act]⟩
      show _ ≤ g.timer + us - v
      omega

theorem Busy.remaining_run (h : Busy v label g) (hlate : SD_CALL_TIMEOUT_US ≤ g.timer - v)
    {evs : List Event} (hevs : ∀ e ∈ evs, e.quiet = true) :
    (Machine.run Guard.step g evs).remaining v ≤ g.remaining v - evs.count .monitor := by
  induction evs generalizing g with
  | nil => exact le_rfl
  | cons e evs ih =>
    have he := hevs e List.mem_cons_self
    obtain ⟨hstep, hle⟩ := h.remaining_step hlate he
    refine (ih (h.step he) hstep fun e' he' => hevs e' (List.mem_cons_of_mem _ he')).trans ?_
    have hbeq : (e == Event.monitor) = decide (e = .monitor) := rfl
    simp only [List.count_cons, hbeq, decide_eq_true_eq]
    omega

/-- **A call that the thread does not leave is restarted**, under the name of the outermost one, at
the latest with the fourth step of the watchdog after the timeout has passed. -/
theorem restarted_of_quiet {timer : ℤ} {evs early late : List Event}
    (hcall : (run step (boot timer) evs).held ≠ [])
    (hresting : (run step (boot timer) evs).stage = .resting)
    (hrunning : ∀ label, (run step (boot timer) evs).watchdog ≠ .restarted label)
    (hquiet : ∀ e ∈ early ++ late, e.quiet = true)
    (hlate : max (run step (boot timer) evs).timer 1 + SD_CALL_TIMEOUT_US ≤
      (run step (boot timer) (evs ++ early)).timer)
    (hpolls : 4 ≤ late.count .monitor) :
    (run step (boot timer) (evs ++ (early ++ late))).watchdog =
      .restarted ((run step (boot timer) evs).held.getLast hcall) := by
  rw [run_append] at hlate ⊢
  generalize hg : run step (boot timer) evs = g at hcall hresting hrunning hlate ⊢
  have hsound : g.Sound := hg ▸ (sound_boot timer).run evs
  have hstaged := hsound.staged
  rw [Staged, hresting] at hstaged
  have hlabel : g.callLabel = g.held.getLast hcall := by
    have hlast := hstaged.2 hcall
    rw [List.getLast?_eq_some_getLast hcall] at hlast
    exact (Option.some.inj hlast).symm
  have hbusy : Busy g.callStartedUs g.callLabel g :=
    ⟨rfl, fun he => hcall (hstaged.1.mpr he), rfl, fun label hl => absurd hl (hrunning label)⟩
  have hearly := hbusy.run fun e he => hquiet e (List.mem_append_left late he)
  have hlate' : ∀ e ∈ late, e.quiet = true := fun e he => hquiet e (List.mem_append_right early he)
  have hend := hearly.run hlate'
  have hremaining := hearly.remaining_run (by have := hsound.past; omega) hlate'
  have hle := (run step g early).remaining_le g.callStartedUs
  rw [run_append, ← hlabel]
  generalize run step (run step g early) late = g' at hend hremaining ⊢
  have hzero : g'.remaining g.callStartedUs = 0 := by omega
  rw [remaining] at hzero
  split at hzero
  · next label hw => rw [hw, hend.names label hw]
  · cases hzero
  · split at hzero <;> cases hzero
  · cases hzero

/-- A nested read that does not return is restarted under the name of the call around it. -/
example :
    (run step (boot 0)
      ([.arm "sd log", .proceed, .proceed, .proceed, .arm "sd read", .proceed, .proceed] ++
        ([.monitor, .tick 180000001] ++ [.monitor, .monitor, .monitor, .monitor]))).watchdog =
      .restarted "sd log" :=
  restarted_of_quiet (by decide +kernel) (by decide +kernel)
    (fun label => by simp [run, step, act, arm, proceed, boot]) (by decide +kernel)
    (by decide +kernel) (by decide +kernel)

end Guard

end GpsNtp.Storage
