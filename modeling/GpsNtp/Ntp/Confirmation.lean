import GpsNtp.Ntp.Runs

/-!
# Ntp/Confirmation — a step takes two pulses

    pulse i−1 : gps − predicted = δ ≠ 0      recorded, prediction served
    pulse i   : gps − predicted = δ          stepped to gps

The accepted pulses of a run, in order, make its **pulse log**.  The pending delta in the state is
a function of the last entry of the log (`logSpec_run`), so that what one pulse does is a
statement about that pulse and the one accepted before it, whatever came between.
-/

namespace GpsNtp

open MachineInt Machine

namespace NtpServer

variable {s : NtpServer}

/-! ## One pulse -/

section Account

variable (pendingGpsStep : Option ℤ) (anchorStepCount : ℕ) (predicted : ℤ) (gps : Option ℤ)

/-- **The second leaves the prediction** exactly when GPS repeats the pending disagreement. -/
theorem accountSecond_stepped_iff :
    (accountSecond pendingGpsStep anchorStepCount predicted gps).unixSeconds ≠ predicted ↔
      ∃ g, gps = some g ∧ g ≠ predicted ∧ pendingGpsStep = some (wrapSub g predicted) := by
  rcases gps with _ | g
  · simp
  · by_cases hne : g = predicted
    · simp [hne]
    · by_cases hpending : pendingGpsStep = some (wrapSub g predicted)
      · rw [accountSecond_step anchorStepCount hne hpending]
        simp [hne, hpending]
      · rw [accountSecond_pending anchorStepCount hne hpending]
        simp [hpending]

/-- A step goes to the second of GPS. -/
theorem accountSecond_of_stepped
    (h : (accountSecond pendingGpsStep anchorStepCount predicted gps).unixSeconds ≠ predicted) :
    gps = some (accountSecond pendingGpsStep anchorStepCount predicted gps).unixSeconds ∧
      (accountSecond pendingGpsStep anchorStepCount predicted gps).anchorStepCount =
        satSuccU32 anchorStepCount := by
  obtain ⟨g, rfl, hne, hpending⟩ := (accountSecond_stepped_iff _ _ _ _).mp h
  rw [accountSecond_step _ hne hpending]
  exact ⟨rfl, rfl⟩

/-- Without a step the count stays. -/
theorem accountSecond_of_not_stepped
    (h : (accountSecond pendingGpsStep anchorStepCount predicted gps).unixSeconds = predicted) :
    (accountSecond pendingGpsStep anchorStepCount predicted gps).anchorStepCount =
      anchorStepCount := by
  rcases gps with _ | g
  · rfl
  · by_cases hne : g = predicted
    · rw [hne, accountSecond_self]
    · by_cases hpending : pendingGpsStep = some (wrapSub g predicted)
      · rw [accountSecond_step _ hne hpending] at h
        exact absurd h hne
      · rw [accountSecond_pending _ hne hpending]

/-- **What is pending after a pulse** is its own disagreement, unless it stepped. -/
theorem accountSecond_pendingGpsStep :
    (accountSecond pendingGpsStep anchorStepCount predicted gps).pendingGpsStep =
      gps.bind fun g =>
        if g ≠ predicted ∧
            (accountSecond pendingGpsStep anchorStepCount predicted gps).unixSeconds = predicted
        then some (wrapSub g predicted) else none := by
  rcases gps with _ | g
  · rfl
  · by_cases hne : g = predicted
    · simp [hne]
    · by_cases hpending : pendingGpsStep = some (wrapSub g predicted)
      · rw [accountSecond_step anchorStepCount hne hpending]
        simp [hne]
      · rw [accountSecond_pending anchorStepCount hne hpending]
        simp [hne]

end Account

/-! ## The pulse log -/

/-- An accepted interval: the edge, the second predicted for it, and the server around it. -/
structure AcceptedPulse where
  before : NtpServer
  edgeUs : ℤ
  predicted : ℤ
  after : NtpServer

namespace AcceptedPulse

/-- The second GPS gives to the edge. -/
def gps (r : AcceptedPulse) : Option ℤ := r.before.gpsSecondAtEdge r.edgeUs

/-- The anchor second after the pulse. -/
def second (r : AcceptedPulse) : Option ℤ := r.after.clockAnchor.map ClockAnchor.unixSeconds

/-- The pulse repeats the disagreement of the pulse accepted before it, which was not a step. -/
def Confirms (r : AcceptedPulse) (prev : Option AcceptedPulse) : Prop :=
  ∃ q g' g, prev = some q ∧ q.gps = some g' ∧ r.gps = some g ∧ g ≠ r.predicted ∧
    wrapSub g r.predicted = wrapSub g' q.predicted ∧ q.second = some q.predicted

/-- The disagreement a pulse leaves pending. -/
def pending (q : AcceptedPulse) : Option ℤ :=
  q.gps.bind fun g =>
    if g ≠ q.predicted ∧ q.second = some q.predicted then some (wrapSub g q.predicted) else none

end AcceptedPulse

/-- The log entry of an event: a pulse that disciplines the anchor. -/
def acceptedPulse (s : NtpServer) : Event → Option AcceptedPulse
  | .observePpsPulse interval edgeUs =>
    match s.pulseOutcome interval edgeUs with
    | .disciplined anchor phaseErrorUs =>
      some ⟨s, edgeUs, s.predictedAt anchor phaseErrorUs edgeUs,
        s.observePpsPulse interval edgeUs⟩
    | _ => none
  | _ => none

/-- The accepted intervals of a run, in order. -/
def pulseLog (s : NtpServer) (evs : List Event) : List AcceptedPulse :=
  (transcript (fun s e => (step s e, s.acceptedPulse e)) s evs).filterMap Prod.snd

theorem pulseLog_snoc (s : NtpServer) (evs : List Event) (e : Event) :
    pulseLog s (evs ++ [e]) = pulseLog s evs ++ ((run step s evs).acceptedPulse e).toList := by
  rw [pulseLog, transcript_append, List.filterMap_append]
  congr 1

/-- The events the log is about: every pulse that is accepted comes with an interval. -/
def OnlyIntervals (s : NtpServer) (e : Event) : Prop :=
  ∀ edgeUs, e = .observePpsPulse none edgeUs → s.acceptsPulse none edgeUs = false

/-- An accepted interval, by its log entry. -/
theorem acceptedPulse_eq_some {e : Event} {r : AcceptedPulse} (h : s.acceptedPulse e = some r) :
    ∃ anchor phaseErrorUs, r.before = s ∧ r.after = step s e ∧
      r.predicted = s.predictedAt anchor phaseErrorUs r.edgeUs ∧
      r.after = s.discipline anchor phaseErrorUs r.edgeUs := by
  cases e with
  | observePpsPulse interval edgeUs =>
    rw [acceptedPulse] at h
    split at h
    · next anchor phaseErrorUs hout =>
      obtain rfl := Option.some.inj h
      refine ⟨anchor, phaseErrorUs, rfl, rfl, rfl, ?_⟩
      change s.observePpsPulse interval edgeUs = _
      rw [observePpsPulse_eq, hout]
      rfl
    · exact absurd h nofun
  | _ => exact absurd h nofun

/-- Every other event of a locked server leaves the discipline alone. -/
theorem sameDiscipline_of_no_entry (hl : s.ppsLocked = true) (hanchor : s.clockAnchor.isSome = true)
    {e : Event} (he : OnlyIntervals s e) (h : s.acceptedPulse e = none) :
    SameDiscipline s (step s e) := by
  refine sameDiscipline_step hl ?_
  cases e with
  | observePpsPulse interval edgeUs =>
    rcases interval with _ | interval
    · exact he edgeUs rfl
    · rw [acceptedPulse] at h
      obtain ⟨anchor, hanchor⟩ := Option.isSome_iff_exists.mp hanchor
      by_contra haccepts
      rw [disciplined_of_accepts hl hanchor (Bool.eq_true_of_not_eq_false haccepts)] at h
      exact absurd h nofun
  | _ => rfl

/-! ## One entry, and the one before it -/

/-- What one log entry does, given the entry before it and the count at the start of the run. -/
structure EntrySpec (count₀ : ℕ) (prev : Option AcceptedPulse) (r : AcceptedPulse) : Prop where
  stepped_iff : r.second ≠ some r.predicted ↔ r.Confirms prev
  second_of_confirms : r.Confirms prev → r.second = r.gps
  second_of_agrees : r.gps = some r.predicted → r.second = some r.predicted
  count_before : r.before.anchorStepCount =
    (prev.map fun q => q.after.anchorStepCount).getD count₀
  count_of_confirms : r.Confirms prev →
    r.after.anchorStepCount = satSuccU32 r.before.anchorStepCount
  count_of_not_confirms : ¬r.Confirms prev →
    r.after.anchorStepCount = r.before.anchorStepCount

theorem isI64_predictedAt (anchor : ClockAnchor) (phaseErrorUs edgeUs : ℤ) :
    IsI64 (s.predictedAt anchor phaseErrorUs edgeUs) := isI64_satAdd _ _

/-- **What is pending comes from the entry before**, so repeating it is confirming that entry. -/
theorem confirms_iff {prev : Option AcceptedPulse} {r : AcceptedPulse}
    (hpredicted : IsI64 r.predicted) :
    r.Confirms prev ↔ ∃ g, r.gps = some g ∧ g ≠ r.predicted ∧
      prev.bind AcceptedPulse.pending = some (wrapSub g r.predicted) := by
  constructor
  · rintro ⟨q, g', g, rfl, hg', hg, hne, hdelta, hq⟩
    refine ⟨g, hg, hne, ?_⟩
    have hne' : g' ≠ q.predicted := by
      rintro rfl
      have hzero : wrapSub q.predicted q.predicted = 0 := by
        rw [wrapSub, sub_self]
        rfl
      rw [hzero] at hdelta
      exact hne ((wrapSub_eq_zero_iff (isI64_gpsSecondAtEdge hg) hpredicted).mp hdelta)
    simp [AcceptedPulse.pending, hg', hne', hq, hdelta]
  · rintro ⟨g, hg, hne, hpending⟩
    obtain ⟨q, rfl, hq⟩ := Option.bind_eq_some_iff.mp hpending
    obtain ⟨g', hg', hif⟩ := Option.bind_eq_some_iff.mp hq
    split_ifs at hif with hcond
    exact ⟨q, g', g, rfl, hg', hg, hne, (Option.some.inj hif).symm, hcond.2⟩

/-- **One accepted interval**: its entry is as specified, and leaves pending what the state has. -/
theorem entrySpec_of_accepted {e : Event} {r : AcceptedPulse} (h : s.acceptedPulse e = some r)
    {prev : Option AcceptedPulse} {count₀ : ℕ}
    (hpending : s.pendingGpsStep = prev.bind AcceptedPulse.pending)
    (hcount : s.anchorStepCount = (prev.map fun q => q.after.anchorStepCount).getD count₀) :
    EntrySpec count₀ prev r ∧ (step s e).pendingGpsStep = r.pending := by
  obtain ⟨anchor, phase, hbefore, hafter, hpredicted, hdiscipline⟩ := acceptedPulse_eq_some h
  have hgps : r.gps = s.gpsSecondAtEdge r.edgeUs := by rw [AcceptedPulse.gps, hbefore]
  have haccount : s.accountAt anchor phase r.edgeUs =
      accountSecond s.pendingGpsStep s.anchorStepCount r.predicted r.gps := by
    rw [accountAt, hpredicted, hgps]
  have hsecond : r.second = some (accountSecond s.pendingGpsStep s.anchorStepCount r.predicted
      r.gps).unixSeconds := by
    rw [AcceptedPulse.second, hdiscipline, discipline_clockAnchor, haccount]
    rfl
  have hcountAfter : r.after.anchorStepCount = (accountSecond s.pendingGpsStep s.anchorStepCount
      r.predicted r.gps).anchorStepCount := by
    rw [hdiscipline, discipline_anchorStepCount, haccount]
  have hstepped : r.Confirms prev ↔ (accountSecond s.pendingGpsStep s.anchorStepCount r.predicted
      r.gps).unixSeconds ≠ r.predicted := by
    rw [confirms_iff (hpredicted ▸ isI64_predictedAt anchor phase r.edgeUs), ← hpending,
      accountSecond_stepped_iff]
  refine ⟨⟨?_, fun hc => ?_, fun hagrees => ?_, hbefore ▸ hcount, fun hc => ?_, fun hc => ?_⟩, ?_⟩
  · rw [hstepped, hsecond, Ne, Option.some_inj]
  · rw [hsecond, (accountSecond_of_stepped _ _ _ _ (hstepped.mp hc)).1.symm]
  · rw [hsecond, hagrees, accountSecond_self]
  · rw [hcountAfter, hbefore, (accountSecond_of_stepped _ _ _ _ (hstepped.mp hc)).2]
  · rw [hcountAfter, hbefore,
      accountSecond_of_not_stepped _ _ _ _ (not_not.mp (hstepped.not.mp hc))]
  · rw [← hafter, hdiscipline, discipline_pendingGpsStep, haccount, accountSecond_pendingGpsStep,
      AcceptedPulse.pending, hsecond]
    simp only [Option.some_inj]

/-! ## Runs -/

/-- The state of a run, as its log has it. -/
structure LogSpec (count₀ : ℕ) (log : List AcceptedPulse) (s : NtpServer) : Prop where
  locked : s.ppsLocked = true
  anchored : s.clockAnchor.isSome = true
  pending : s.pendingGpsStep = log.getLast?.bind AcceptedPulse.pending
  count : s.anchorStepCount = (log.getLast?.map fun q => q.after.anchorStepCount).getD count₀
  entries : ∀ pre r post, log = pre ++ r :: post → EntrySpec count₀ pre.getLast? r

/-- **The log describes the run**: the delta pending in the state is what its last entry left. -/
theorem logSpec_run {s : NtpServer} (hl : s.ppsLocked = true)
    (hanchor : s.clockAnchor.isSome = true) (hpending : s.pendingGpsStep = none)
    {evs : List Event} (hevs : Throughout step OnlyIntervals s evs) :
    LogSpec s.anchorStepCount (pulseLog s evs) (run step s evs) := by
  induction evs using List.reverseRecOn with
  | nil => exact ⟨hl, hanchor, hpending, rfl, fun pre r post h => absurd h (by simp [pulseLog])⟩
  | append_singleton evs e ih =>
    obtain ⟨hevs, he, -⟩ := throughout_append.mp hevs
    have hlog := ih hevs
    rw [run_append, run_cons, run_nil, pulseLog_snoc]
    cases hentry : (run step s evs).acceptedPulse e with
    | none =>
      have hsame := sameDiscipline_of_no_entry hlog.locked hlog.anchored he hentry
      rw [Option.toList_none, List.append_nil]
      exact ⟨hsame.ppsLocked.trans hlog.locked, hsame.clockAnchor.symm ▸ hlog.anchored,
        ((congrArg pendingGpsStep hsame).trans rfl).trans hlog.pending,
        ((congrArg anchorStepCount hsame).trans rfl).trans hlog.count, hlog.entries⟩
    | some r =>
      obtain ⟨hspec, hpend⟩ := entrySpec_of_accepted hentry hlog.pending hlog.count
      obtain ⟨anchor, phase, -, hafter, -, hdiscipline⟩ := acceptedPulse_eq_some hentry
      have hstep : step (run step s evs) e = r.after := hafter.symm
      rw [Option.toList_some]
      refine ⟨?_, ?_, ?_, ?_, ?_⟩
      · rw [hstep, hdiscipline]
        exact hlog.locked
      · rw [hstep, hdiscipline]
        rfl
      · rw [hpend, List.getLast?_concat]
        rfl
      · rw [hstep, List.getLast?_concat]
        rfl
      · intro pre r' post h
        rcases List.eq_nil_or_concat post with rfl | ⟨post, r'', rfl⟩
        · obtain ⟨hpre, hr⟩ := List.append_inj' h rfl
          obtain rfl := List.singleton_inj.mp hr
          exact hpre ▸ hspec
        · rw [List.concat_eq_append, ← List.cons_append, ← List.append_assoc] at h
          exact hlog.entries pre r' post (List.append_inj' h rfl).1

/-- **Two-pulse confirmation.**  From a locked server with nothing pending, over any run in which
accepted pulses come with an interval: at each accepted pulse the anchor second leaves the
prediction exactly when GPS repeats the disagreement of the pulse accepted before, itself no step;
it then goes to GPS, and the step count moves, saturating, there and nowhere else.  And two
accepted pulses whose GPS seconds advance as the server counts leave the server at GPS. -/
theorem two_pulse_confirmation (hl : s.ppsLocked = true) (hanchor : s.clockAnchor.isSome = true)
    (hpending : s.pendingGpsStep = none) {evs : List Event}
    (hevs : Throughout step OnlyIntervals s evs) :
    ∀ pre r post, pulseLog s evs = pre ++ r :: post →
      (r.second ≠ some r.predicted ↔ r.Confirms pre.getLast?) ∧
      (r.Confirms pre.getLast? → r.second = r.gps ∧
        r.after.anchorStepCount = satSuccU32 r.before.anchorStepCount) ∧
      (¬r.Confirms pre.getLast? → r.after.anchorStepCount = r.before.anchorStepCount) ∧
      (r.before.anchorStepCount =
        (pre.getLast?.map fun q => q.after.anchorStepCount).getD s.anchorStepCount) ∧
      (∀ q g' u g, pre.getLast? = some q → q.gps = some g' → q.second = some u →
        r.gps = some g → g - g' = r.predicted - u → r.second = some g) := by
  intro pre r post h
  have hentries := (logSpec_run hl hanchor hpending hevs).entries
  have hr := hentries pre r post h
  refine ⟨hr.stepped_iff, fun hc => ⟨hr.second_of_confirms hc, hr.count_of_confirms hc⟩,
    hr.count_of_not_confirms, hr.count_before, ?_⟩
  intro q g' u g hlast hg' hu hg hadvance
  obtain ⟨pre, rfl⟩ := List.getLast?_eq_some_iff.mp hlast
  rw [List.append_assoc, List.singleton_append] at h
  have hq := hentries pre q (r :: post) h
  by_cases hagrees : g = r.predicted
  · rw [hr.second_of_agrees (by rw [hg, hagrees]), hagrees]
  · have hnostep : q.second = some q.predicted := by
      by_contra hstep
      have hgu := hq.second_of_confirms (hq.stepped_iff.mp hstep)
      rw [hg', hu] at hgu
      obtain rfl := Option.some.inj hgu
      omega
    obtain rfl := Option.some.inj (hu.symm.trans hnostep)
    have hconfirms : r.Confirms (some q) :=
      ⟨q, g', g, rfl, hg', hg, hagrees, wrapSub_congr (by omega), hnostep⟩
    rw [hr.second_of_confirms (hlast ▸ hconfirms), hg]

/-- A GPS second four ahead of the clock, and two pulses on it. -/
def aheadTwice : List Event :=
  [.updateGpsUtcSeconds 105 2300000, .observePpsPulse (some 1000000) 3000000,
    .observePpsPulse (some 1000000) 4000000]

theorem two_pulse_confirmation_aheadTwice :
    ∃ q r, pulseLog firstLock aheadTwice = [q, r] ∧ r.Confirms (some q) := by
  have hevs : Throughout step OnlyIntervals firstLock aheadTwice := ⟨nofun, nofun, nofun, trivial⟩
  have hlog : ∃ q r, pulseLog firstLock aheadTwice = [q, r] ∧ r.second ≠ some r.predicted :=
    ⟨_, _, rfl, by decide +kernel⟩
  obtain ⟨q, r, hlog, hstep⟩ := hlog
  exact ⟨q, r, hlog, (two_pulse_confirmation rfl rfl rfl hevs [q] r [] hlog).1.mp hstep⟩

/-- **The count saturates and the difference wraps**: a step that the count, at its limit, does not
grow by; and a step on two differences 2⁶⁴ apart. -/
theorem step_not_counted_or_not_repeated :
    (¬∀ r ∈ pulseLog { firstLock with anchorStepCount := u32Max } aheadTwice,
      r.second ≠ some r.predicted →
        r.after.anchorStepCount = r.before.anchorStepCount + 1) ∧
      (pulseLog { firstLock with clockAnchor := some ⟨-1, 2000000⟩ }
        [.updateGpsUtcSeconds (i64Max - 1) 2300000, .observePpsPulse (some 1000000) 3000000,
          .updateGpsUtcSeconds i64Min 4300000, .observePpsPulse (some 1000000) 5000000]).map
        (fun r => (r.predicted, r.gps, r.second)) =
      [(0, some i64Max, some 0), (2, some (i64Min + 1), some (i64Min + 1))] := by
  decide +kernel

end NtpServer

end GpsNtp
