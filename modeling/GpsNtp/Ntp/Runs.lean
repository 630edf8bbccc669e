import GpsNtp.Ntp.Poll

/-!
# Ntp/Runs — the server over whole runs

    fromSocket ──seed──▸ ──gps──▸ ──pulse──▸ ──poll──▸ ⋯

An **event** is one call of the server's interface with the clock readings it makes; a run is the
fold of `step` over a list of events.  `wellFormed_run` is the invariant of `Ntp/WellFormed` on
every run, and `latestGpsUpdate` the one fact about the past that the state keeps.
-/

namespace GpsNtp

open MachineInt Machine

/-- One call of the server. -/
inductive Event where
  | seedUtcSeconds (utcUnixSeconds nowUs : ℤ)
  | updateGpsUtcSeconds (utcUnixSeconds nowUs : ℤ)
  | observePpsPulse (ppsIntervalUs : Option ℕ) (edgeUs : ℤ)
  | setLeapIndicator (li : UInt8)
  | setAcl (acl : Acl)
  | poll (gpsFix : Bool) (ds : List Datagram)
deriving DecidableEq

namespace NtpServer

/-- A call: the server after it, and what `poll` made of its datagrams. -/
def call (s : NtpServer) : Event → NtpServer × List Disposition
  | .seedUtcSeconds utc nowUs => (s.seedUtcSeconds utc nowUs, [])
  | .updateGpsUtcSeconds utc nowUs => (s.updateGpsUtcSeconds utc nowUs, [])
  | .observePpsPulse interval edgeUs => (s.observePpsPulse interval edgeUs, [])
  | .setLeapIndicator li => (s.setLeapIndicator li, [])
  | .setAcl acl => (s.setAcl acl, [])
  | .poll gpsFix ds => s.poll gpsFix ds

/-- The server after a call. -/
def step (s : NtpServer) (e : Event) : NtpServer := (s.call e).1

/-- A state some run of a fresh server reaches. -/
def Reachable (s : NtpServer) : Prop := ∃ evs, s = run step fromSocket evs

variable {s : NtpServer}

/-! ## The invariant on runs -/

/-- **Every call keeps the invariant.** -/
theorem WellFormed.step (h : s.WellFormed) (e : Event) : (s.step e).WellFormed := by
  cases e with
  | seedUtcSeconds utc nowUs => exact h.seedUtcSeconds utc nowUs
  | updateGpsUtcSeconds utc nowUs => exact h.updateGpsUtcSeconds utc nowUs
  | observePpsPulse interval edgeUs => exact h.observePpsPulse interval edgeUs
  | setLeapIndicator li => exact h.setLeapIndicator li
  | setAcl acl => exact h.setAcl acl
  | poll gpsFix ds => exact h.poll gpsFix ds

/-- **Every run keeps the invariant.** -/
theorem wellFormed_run (evs : List Event) : (run step fromSocket evs).WellFormed :=
  run_induction (fun _ e h => h.step e) wellFormed_fromSocket evs

theorem Reachable.wellFormed (h : s.Reachable) : s.WellFormed := by
  obtain ⟨evs, rfl⟩ := h
  exact wellFormed_run evs

theorem Reachable.step (h : s.Reachable) (e : Event) : (s.step e).Reachable := by
  obtain ⟨evs, rfl⟩ := h
  exact ⟨evs ++ [e], by rw [run_append, run_cons, run_nil]⟩

theorem Reachable.run (h : s.Reachable) (evs : List Event) :
    (Machine.run NtpServer.step s evs).Reachable :=
  run_induction (fun _ e h => h.step e) h evs

/-! ## Between two accepted pulses -/

/-- The event is a pulse that is accepted. -/
def accepts (s : NtpServer) : Event → Bool
  | .observePpsPulse interval edgeUs => s.acceptsPulse interval edgeUs
  | _ => false

theorem exists_pulse_of_accepts {e : Event} (h : s.accepts e = true) :
    ∃ interval edgeUs, e = .observePpsPulse interval edgeUs := by
  cases e with
  | observePpsPulse interval edgeUs => exact ⟨interval, edgeUs, rfl⟩
  | _ => exact absurd h nofun

/-- The two servers differ at most in what an accepted pulse does not write: the service fields,
the NMEA record, the settings and the glitch count. -/
def SameDiscipline (s t : NtpServer) : Prop :=
  t = { s with
    served := t.served
    lastGpsUtcSeconds := t.lastGpsUtcSeconds
    procDelayUs := t.procDelayUs
    procDelayHasSample := t.procDelayHasSample
    rateLimiter := t.rateLimiter
    acl := t.acl
    rateLimitedTotal := t.rateLimitedTotal
    aclBlockedTotal := t.aclBlockedTotal
    pendingLeap := t.pendingLeap
    ppsGlitchCount := t.ppsGlitchCount
    lastGpsUtcUpdateUs := t.lastGpsUtcUpdateUs }

@[refl] theorem SameDiscipline.refl (s : NtpServer) : SameDiscipline s s := rfl

theorem SameDiscipline.trans {s t u : NtpServer} (h₁ : SameDiscipline s t)
    (h₂ : SameDiscipline t u) : SameDiscipline s u := by
  unfold SameDiscipline at h₁ h₂ ⊢
  rw [h₁] at h₂
  exact h₂

theorem SameDiscipline.ppsLocked {s t : NtpServer} (h : SameDiscipline s t) :
    t.ppsLocked = s.ppsLocked := (congrArg NtpServer.ppsLocked h).trans rfl

theorem SameDiscipline.clockAnchor {s t : NtpServer} (h : SameDiscipline s t) :
    t.clockAnchor = s.clockAnchor := (congrArg NtpServer.clockAnchor h).trans rfl

/-- Without an accepted pulse a call touches at most the anchor of the discipline. -/
theorem sameDiscipline_upto_anchor {e : Event} (he : s.accepts e = false) :
    SameDiscipline { s with clockAnchor := (s.step e).clockAnchor } (s.step e) := by
  cases e with
  | seedUtcSeconds utc nowUs =>
    obtain ⟨anchor, hseed⟩ := @seedUtcSeconds_eq s utc nowUs
    have hstep : s.step (.seedUtcSeconds utc nowUs) = _ := hseed
    rw [hstep]
  | updateGpsUtcSeconds utc nowUs =>
    have hstep : s.step (.updateGpsUtcSeconds utc nowUs) = _ := updateGpsUtcSeconds_eq utc nowUs
    rw [hstep]
    rfl
  | observePpsPulse interval edgeUs =>
    obtain ⟨n, hn⟩ := observePpsPulse_of_not_accepts he
    have hstep : s.step (.observePpsPulse interval edgeUs) = _ := hn
    rw [hstep]
    rfl
  | setLeapIndicator li => rfl
  | setAcl acl => rfl
  | poll gpsFix ds =>
    have hstep : SameClock s (s.step (.poll gpsFix ds)) := sameClock_poll gpsFix ds
    unfold SameClock at hstep
    rw [hstep]
    rfl

/-- The event writes the anchor. -/
def reanchors (s : NtpServer) : Event → Bool
  | .seedUtcSeconds _ _ => !s.ppsLocked && !s.clockAnchor.isSome
  | .updateGpsUtcSeconds _ _ => !s.ppsLocked
  | .observePpsPulse interval edgeUs => s.acceptsPulse interval edgeUs
  | .setLeapIndicator _ | .setAcl _ | .poll _ _ => false

theorem not_accepts_of_not_reanchors {e : Event} (h : s.reanchors e = false) :
    s.accepts e = false := by
  cases e with
  | observePpsPulse interval edgeUs => exact h
  | _ => rfl

theorem clockAnchor_of_not_reanchors {e : Event} (h : s.reanchors e = false) :
    (s.step e).clockAnchor = s.clockAnchor := by
  cases e with
  | seedUtcSeconds utc nowUs =>
    have hseed : s.ppsLocked = true ∨ s.clockAnchor.isSome = true := by
      simpa [reanchors, or_iff_not_imp_left] using h
    change (s.seedUtcSeconds utc nowUs).clockAnchor = _
    rw [NtpServer.seedUtcSeconds, if_pos (by simpa using hseed)]
  | updateGpsUtcSeconds utc nowUs =>
    have hl : s.ppsLocked = true := by simpa [reanchors] using h
    exact (congrArg NtpServer.clockAnchor (updateGpsUtcSeconds_eq utc nowUs)).trans (if_pos hl)
  | observePpsPulse interval edgeUs =>
    obtain ⟨n, hn⟩ := observePpsPulse_of_not_accepts h
    exact (congrArg NtpServer.clockAnchor hn).trans rfl
  | setLeapIndicator li => rfl
  | setAcl acl => rfl
  | poll gpsFix ds => exact (congrArg NtpServer.clockAnchor (sameClock_poll gpsFix ds)).trans rfl

/-- Under a lock only an accepted pulse moves the anchor. -/
theorem clockAnchor_of_locked (hl : s.ppsLocked = true) {e : Event} (he : s.accepts e = false) :
    (s.step e).clockAnchor = s.clockAnchor := by
  refine clockAnchor_of_not_reanchors ?_
  cases e with
  | seedUtcSeconds utc nowUs => rw [reanchors, hl, Bool.not_true, Bool.false_and]
  | updateGpsUtcSeconds utc nowUs => rw [reanchors, hl, Bool.not_true]
  | observePpsPulse interval edgeUs => exact he
  | _ => rfl

/-- **Under a lock only an accepted pulse touches the discipline.** -/
theorem sameDiscipline_step (hl : s.ppsLocked = true) {e : Event} (he : s.accepts e = false) :
    SameDiscipline s (s.step e) := by
  have hsame := sameDiscipline_upto_anchor he
  rwa [clockAnchor_of_locked hl he] at hsame

/-- **…and so on runs** without an accepted pulse. -/
theorem sameDiscipline_run (hl : s.ppsLocked = true) {evs : List Event}
    (hevs : Throughout step (fun s e => s.accepts e = false) s evs) :
    SameDiscipline s (run step s evs) := by
  refine run_throughout (fun t e he ht => ?_) (SameDiscipline.refl s) hevs
  exact SameDiscipline.trans ht (sameDiscipline_step (ht.ppsLocked.trans hl) he)

/-! ## The latest GPS update -/

/-- The time of the last GPS update of a history. -/
def latestGpsUpdate (evs : List Event) : Option ℤ :=
  evs.foldl (fun latest e =>
    match e with
    | .updateGpsUtcSeconds _ nowUs => some nowUs
    | _ => latest) none

theorem latestGpsUpdate_snoc (evs : List Event) (e : Event) :
    latestGpsUpdate (evs ++ [e]) =
      match e with
      | .updateGpsUtcSeconds _ nowUs => some nowUs
      | _ => latestGpsUpdate evs := by
  rw [latestGpsUpdate, List.foldl_append]
  rfl

/-- A pulse leaves the NMEA record alone. -/
theorem observePpsPulse_gpsRecord (ppsIntervalUs : Option ℕ) (edgeUs : ℤ) :
    (s.observePpsPulse ppsIntervalUs edgeUs).lastGpsUtcUpdateUs = s.lastGpsUtcUpdateUs ∧
      (s.observePpsPulse ppsIntervalUs edgeUs).lastGpsUtcSeconds = s.lastGpsUtcSeconds := by
  rw [observePpsPulse_eq]
  cases s.pulseOutcome ppsIntervalUs edgeUs <;> exact ⟨rfl, rfl⟩

/-- Polling leaves the NMEA record alone. -/
theorem poll_gpsRecord (gpsFix : Bool) (ds : List Datagram) :
    (s.poll gpsFix ds).1.lastGpsUtcUpdateUs = s.lastGpsUtcUpdateUs ∧
      (s.poll gpsFix ds).1.lastGpsUtcSeconds = s.lastGpsUtcSeconds :=
  ⟨(congrArg lastGpsUtcUpdateUs (sameClock_poll gpsFix ds)).trans rfl,
    (congrArg lastGpsUtcSeconds (sameClock_poll gpsFix ds)).trans rfl⟩

/-- **Only a GPS update writes the NMEA record.** -/
theorem gpsRecord_step {e : Event} (he : ∀ utc nowUs, e ≠ .updateGpsUtcSeconds utc nowUs) :
    (s.step e).lastGpsUtcUpdateUs = s.lastGpsUtcUpdateUs ∧
      (s.step e).lastGpsUtcSeconds = s.lastGpsUtcSeconds := by
  cases e with
  | seedUtcSeconds utc nowUs =>
    obtain ⟨anchor, hseed⟩ := @seedUtcSeconds_eq s utc nowUs
    exact ⟨(congrArg lastGpsUtcUpdateUs hseed).trans rfl,
      (congrArg lastGpsUtcSeconds hseed).trans rfl⟩
  | updateGpsUtcSeconds utc nowUs => exact absurd rfl (he utc nowUs)
  | observePpsPulse interval edgeUs => exact observePpsPulse_gpsRecord interval edgeUs
  | setLeapIndicator li => exact ⟨rfl, rfl⟩
  | setAcl acl => exact ⟨rfl, rfl⟩
  | poll gpsFix ds => exact poll_gpsRecord gpsFix ds

/-- **The update time on record is that of the latest GPS update.** -/
theorem lastGpsUtcUpdateUs_run (evs : List Event) :
    (run step fromSocket evs).lastGpsUtcUpdateUs = latestGpsUpdate evs := by
  let Inv (hist : List Event) (s : NtpServer) := s.lastGpsUtcUpdateUs = latestGpsUpdate hist
  suffices hrun : Inv evs (run step fromSocket evs) from hrun
  refine run_history_induction ?_ ?_ evs
  · exact rfl
  intro hist s e (h : s.lastGpsUtcUpdateUs = latestGpsUpdate hist)
  change (s.step e).lastGpsUtcUpdateUs = _
  rw [latestGpsUpdate_snoc]
  cases e with
  | updateGpsUtcSeconds utc nowUs =>
    exact congrArg lastGpsUtcUpdateUs (updateGpsUtcSeconds_eq utc nowUs)
  | _ => exact (gpsRecord_step fun _ _ => by simp).1.trans h

/-- A server that has just locked, at the top of second 101. -/
def firstLock : NtpServer :=
  run step fromSocket [.updateGpsUtcSeconds 100 1300000, .observePpsPulse none 2000000]

theorem reachable_firstLock : firstLock.Reachable := ⟨_, rfl⟩

end NtpServer

end GpsNtp
