import GpsNtp.Ntp.Runs

/-!
# Ntp/Recovery — the first pulse after holdover has run out

    stratum 1 ──2008 s──▸ stratum 16 ──next accepted pulse──▸ stratum 1

An outage past the holdover limit ends with the next accepted pulse, at once and whatever GPS says.
What GPS says decides the second: it is taken over when it agrees with the elapsed prediction or
repeats the disagreement on record, and otherwise waits for confirmation while the prediction is
served.
-/

namespace GpsNtp

open MachineInt Machine

namespace NtpServer

variable {s t : NtpServer}

theorem SameDiscipline.lastPpsMonotonicUs (h : SameDiscipline s t) :
    t.lastPpsMonotonicUs = s.lastPpsMonotonicUs :=
  (congrArg NtpServer.lastPpsMonotonicUs h).trans rfl

/-- Up to the next accepted pulse stratum 1 is a matter of the age of the last one. -/
theorem stratum_run_eq_one_iff (hs : s.Reachable) {edgeUs : ℤ}
    (hlast : s.lastPpsMonotonicUs = some edgeUs) {evs : List Event}
    (hevs : Throughout step (fun s e => s.accepts e = false) s evs) (gpsFix : Bool) (nowUs : ℤ)
    (reading : ClockReading) :
    ((run step s evs).disciplineParams gpsFix nowUs reading).stratum = 1 ↔
      nowUs - edgeUs < 2008000000 := by
  have hl : s.ppsLocked = true := hs.wellFormed.locked_iff.mpr (by rw [hlast]; rfl)
  rw [stratum_eq_one_iff (hs.run evs).wellFormed,
    (sameDiscipline_run hl hevs).lastPpsMonotonicUs, hlast]
  simp

/-- **The second after an accepted interval**, by what GPS says. -/
theorem accountAt_cases (anchor : ClockAnchor) (phaseErrorUs edgeUs : ℤ) :
    let predicted := s.predictedAt anchor phaseErrorUs edgeUs
    let account := s.accountAt anchor phaseErrorUs edgeUs
    (s.gpsSecondAtEdge edgeUs = none →
      account.unixSeconds = predicted ∧ account.pendingGpsStep = none) ∧
    (∀ g, s.gpsSecondAtEdge edgeUs = some g →
      g = predicted ∨ s.pendingGpsStep = some (wrapSub g predicted) →
      account.unixSeconds = g ∧ account.pendingGpsStep = none) ∧
    (∀ g, s.gpsSecondAtEdge edgeUs = some g →
      g ≠ predicted → s.pendingGpsStep ≠ some (wrapSub g predicted) →
      account.unixSeconds = predicted ∧
        account.pendingGpsStep = some (wrapSub g predicted)) := by
  intro predicted account
  have haccount : account = accountSecond s.pendingGpsStep s.anchorStepCount predicted
      (s.gpsSecondAtEdge edgeUs) := rfl
  refine ⟨fun hg => ?_, fun g hg h => ?_, fun g hg hne hpending => ?_⟩
  · rw [haccount, hg, accountSecond_none]
    exact ⟨rfl, rfl⟩
  · rw [haccount, hg]
    by_cases hne : g = predicted
    · rw [hne, accountSecond_self]
      exact ⟨rfl, rfl⟩
    · rw [accountSecond_step _ hne (h.resolve_left hne)]
      exact ⟨rfl, rfl⟩
  · rw [haccount, hg, accountSecond_pending _ hne hpending]
    exact ⟨rfl, rfl⟩

/-- **Recovery.**  When the last accepted pulse of a reachable server is 2008 s old at an edge, the
server is at stratum 16 from there until a pulse is accepted.  When that edge is accepted with its
interval, stratum 1 is back until the pulse is 2008 s old in turn; and the second of the new anchor
is the elapsed prediction when GPS is stale, that of GPS when it agrees with the prediction or
repeats the disagreement on record, and otherwise the prediction, the disagreement recorded. -/
theorem recovery_after_expiry (hs : s.Reachable) {lastUs edgeUs : ℤ}
    (hlast : s.lastPpsMonotonicUs = some lastUs) (hexpired : 2008000000 ≤ edgeUs - lastUs) :
    (∀ evs, Throughout step (fun s e => s.accepts e = false) s evs →
      ∀ gpsFix nowUs reading, edgeUs ≤ nowUs →
        ((run step s evs).disciplineParams gpsFix nowUs reading).stratum = 16) ∧
    ∀ interval, s.acceptsPulse (some interval) edgeUs = true →
      let s' := s.observePpsPulse (some interval) edgeUs
      ∃ anchor anchor', s.clockAnchor = some anchor ∧ s'.clockAnchor = some anchor' ∧
        let predicted := s.predictedAt anchor (interval - 1000000) edgeUs
        (∀ evs, Throughout step (fun s e => s.accepts e = false) s' evs →
          ∀ gpsFix nowUs reading,
            ((run step s' evs).disciplineParams gpsFix nowUs reading).stratum = 1 ↔
              nowUs - edgeUs < 2008000000) ∧
        (s.gpsSecondAtEdge edgeUs = none →
          anchor'.unixSeconds = predicted ∧ s'.pendingGpsStep = none) ∧
        (∀ g, s.gpsSecondAtEdge edgeUs = some g →
          g = predicted ∨ s.pendingGpsStep = some (wrapSub g predicted) →
          anchor'.unixSeconds = g ∧ s'.pendingGpsStep = none) ∧
        (∀ g, s.gpsSecondAtEdge edgeUs = some g →
          g ≠ predicted → s.pendingGpsStep ≠ some (wrapSub g predicted) →
          anchor'.unixSeconds = predicted ∧
            s'.pendingGpsStep = some (wrapSub g predicted)) := by
  constructor
  · intro evs hevs gpsFix nowUs reading hnow
    have hnot : ¬((run step s evs).disciplineParams gpsFix nowUs reading).stratum = 1 := by
      rw [stratum_run_eq_one_iff hs hlast hevs]
      omega
    exact (stratum_eq gpsFix nowUs reading).resolve_left hnot
  · intro interval haccepts s'
    have hwf := hs.wellFormed
    have hl : s.ppsLocked = true := hwf.locked_iff.mpr (by rw [hlast]; rfl)
    obtain ⟨anchor, hanchor⟩ := Option.isSome_iff_exists.mp (hwf.anchor_of_locked hl)
    have hs' : s' = s.discipline anchor (interval - 1000000) edgeUs := by
      change s.observePpsPulse (some interval) edgeUs = _
      rw [observePpsPulse_eq, disciplined_of_accepts hl hanchor haccepts]
      rfl
    have hreach : s'.Reachable := hs.step (.observePpsPulse (some interval) edgeUs)
    have hlast' : s'.lastPpsMonotonicUs = some edgeUs := by
      rw [hs', discipline_lastPpsMonotonicUs]
    refine ⟨anchor, _, hanchor, by rw [hs']; exact discipline_clockAnchor .., ?_, ?_⟩
    · exact fun evs hevs => stratum_run_eq_one_iff hreach hlast' hevs
    · rw [hs', discipline_pendingGpsStep]
      exact accountAt_cases anchor (interval - 1000000) edgeUs

/-- A lock that has been out for 2008 s, and the pulse that ends the outage with GPS silent. -/
theorem recovery_after_expiry_firstLock :
    (firstLock.disciplineParams true 2010000000 ⟨2010000000, none⟩).stratum = 16 ∧
      ((firstLock.observePpsPulse (some 1000000) 2010000000).disciplineParams true 2010000000
        ⟨2010000000, none⟩).stratum = 1 := by
  obtain ⟨hunsync, hrecovered⟩ := @recovery_after_expiry _ reachable_firstLock 2000000 2010000000
    rfl (by decide)
  obtain ⟨_, _, -, -, hone, -⟩ := hrecovered 1000000 rfl
  exact ⟨hunsync [] trivial true _ _ le_rfl,
    (hone [] trivial true 2010000000 ⟨2010000000, none⟩).mpr (by decide)⟩

/-- **Stratum 1 returns on an unverified second**: after the outage with GPS silent, and just so
with a fresh GPS second that the new anchor does not take over. -/
theorem stratum_one_on_unverified_second :
    let e := 2010000000
    let drifted := firstLock.updateGpsUtcSeconds 2113 2009700000
    (firstLock.lastPpsMonotonicUs = some 2000000 ∧ 2008000000 ≤ e - 2000000) ∧
      (firstLock.acceptsPulse (some 1000000) e = true ∧
        ((firstLock.observePpsPulse (some 1000000) e).disciplineParams true e ⟨e, none⟩).stratum
          = 1 ∧ firstLock.gpsSecondAtEdge e = none) ∧
      (drifted.Reachable ∧ drifted.acceptsPulse (some 1000000) e = true ∧
        ((drifted.observePpsPulse (some 1000000) e).disciplineParams true e ⟨e, none⟩).stratum
          = 1 ∧ drifted.gpsSecondAtEdge e = some 2114 ∧
        (drifted.observePpsPulse (some 1000000) e).clockAnchor = some ⟨2109, e⟩) :=
  ⟨⟨rfl, by decide⟩, ⟨rfl, rfl, rfl⟩,
    reachable_firstLock.step (.updateGpsUtcSeconds 2113 2009700000), rfl, rfl, rfl,
    by decide +kernel⟩

end NtpServer

end GpsNtp
