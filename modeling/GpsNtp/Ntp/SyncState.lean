import GpsNtp.Ntp.Runs

/-!
# Ntp/SyncState — the synchronisation state over whole runs

What the server advertises is decided by two fields, the lock and the time of the last accepted
pulse, and on a run the lock is a fact about the history: it was brought about by one pulse, on
GPS data less than two seconds old.
-/

namespace GpsNtp

open MachineInt Machine

namespace NtpServer

variable {s : NtpServer}

/-! ## The lock -/

/-- Only a pulse locks, and only on a fresh GPS update. -/
theorem locked_of_pulse {e : Event} (h₀ : ¬s.ppsLocked = true)
    (h : (s.step e).ppsLocked = true) :
    ∃ interval edgeUs t, e = .observePpsPulse interval edgeUs ∧
      s.lastGpsUtcUpdateUs = some t ∧ edgeUs - t < gpsStaleThresholdUs := by
  have haccepts : s.accepts e = true := by
    by_contra hrefused
    have hsame := sameDiscipline_upto_anchor (Bool.eq_false_of_not_eq_true hrefused)
    exact h₀ (hsame.ppsLocked.symm.trans h)
  obtain ⟨interval, edgeUs, rfl⟩ := exists_pulse_of_accepts haccepts
  rcases accepts_cases haccepts with ⟨u, hout⟩ | ⟨anchor, phaseErrorUs, hout⟩
  · obtain ⟨-, t, -, ht, hfresh, -⟩ := gpsSecondAtEdge_eq_some (gpsSecondAtEdge_of_aligned hout)
    exact ⟨interval, edgeUs, t, rfl, ht, hfresh⟩
  · obtain ⟨_, -, -, -, -, -, hl, -⟩ := pulseOutcome_eq_disciplined hout
    exact absurd hl h₀

/-- **The pulse that locked** is in the history of every locked state. -/
theorem locking_pulse {evs : List Event} (h : (run step fromSocket evs).ppsLocked = true) :
    ∃ pre interval edgeUs post t, evs = pre ++ .observePpsPulse interval edgeUs :: post ∧
      latestGpsUpdate pre = some t ∧ edgeUs - t < gpsStaleThresholdUs := by
  obtain ⟨pre, e, post, rfl, hpre, hpost⟩ :=
    @run_switch _ _ step (fun s => s.ppsLocked = true) _ (by decide) _ h
  obtain ⟨interval, edgeUs, t, rfl, ht, hfresh⟩ := locked_of_pulse hpre hpost
  exact ⟨pre, interval, edgeUs, post, t, rfl, (lastGpsUtcUpdateUs_run pre).symm.trans ht, hfresh⟩

/-! ## The advertised state -/

/-- Locked is advertised at an age below 10 s, with a fix. -/
theorem state_eq_locked_iff (hwf : s.WellFormed) (gpsFix : Bool) (nowUs : ℤ)
    (reading : ClockReading) :
    (s.disciplineParams gpsFix nowUs reading).state = .locked ↔
      gpsFix = true ∧ ∃ t, s.lastPpsMonotonicUs = some t ∧ nowUs - t < 10000000 := by
  have hstate : (s.disciplineParams gpsFix nowUs reading).state = .locked ↔
      s.fullySynced gpsFix nowUs = true := by
    rw [disciplineParams_state]
    split_ifs with hsync <;> simp [hsync]
  rw [hstate]
  cases ht : s.lastPpsMonotonicUs with
  | none => simp [fullySynced_of_none ht]
  | some t => simp [fullySynced_iff hwf ht]

/-- **The three states partition the stratum**: locked implies stratum 1, holdover is the rest of
it, unsync is stratum 16. -/
theorem state_iff_stratum (hwf : s.WellFormed) (gpsFix : Bool) (nowUs : ℤ)
    (reading : ClockReading) :
    let dp := s.disciplineParams gpsFix nowUs reading
    (dp.state = .locked → dp.stratum = 1) ∧
      (dp.state = .holdover ↔ dp.stratum = 1 ∧ dp.state ≠ .locked) ∧
      (dp.state = .unsync ↔ dp.stratum ≠ 1) := by
  intro dp
  have hlocked : dp.state = .locked → dp.stratum = 1 := by
    intro h
    obtain ⟨-, t, ht, hlt⟩ := (state_eq_locked_iff hwf gpsFix nowUs reading).mp h
    exact (stratum_eq_one_iff hwf gpsFix nowUs reading).mpr ⟨t, ht, by omega⟩
  refine ⟨hlocked, ?_⟩
  have hstate := @disciplineParams_state s gpsFix nowUs reading
  change dp.state = _ at hstate
  split_ifs at hstate with hsync hone
  · simp [hstate, hlocked hstate]
  · have hone : dp.stratum = 1 := hone
    simp [hstate, hone]
  · have hone : ¬dp.stratum = 1 := hone
    simp [hstate, hone]

/-- **The synchronisation state on every run**: stratum, state and leap read off the lock and the
age of the last pulse; the lock off the last pulse; and locking needs a fresh GPS update. -/
theorem syncState_run (evs : List Event) (gpsFix : Bool) (nowUs : ℤ) (reading : ClockReading) :
    let s := run step fromSocket evs
    let dp := s.disciplineParams gpsFix nowUs reading
    (dp.stratum = 1 ↔ s.ppsLocked = true ∧
        ∃ t, s.lastPpsMonotonicUs = some t ∧ nowUs - t < 2008000000) ∧
      (dp.stratum = 1 ∨ dp.stratum = 16) ∧
      (dp.state = .locked ↔ dp.stratum = 1 ∧ gpsFix = true ∧
        ∃ t, s.lastPpsMonotonicUs = some t ∧ nowUs - t < 10000000) ∧
      (dp.state = .holdover ↔ dp.stratum = 1 ∧ dp.state ≠ .locked) ∧
      (dp.state = .unsync ↔ dp.stratum ≠ 1) ∧
      (dp.leap = if dp.stratum = 1 then s.pendingLeap else 3) ∧
      s.pendingLeap ≤ 2 ∧
      (s.ppsLocked = true ↔ s.lastPpsMonotonicUs.isSome = true) ∧
      (s.ppsLocked = true → s.clockAnchor.isSome = true) ∧
      (∀ e, ¬s.ppsLocked = true → (s.step e).ppsLocked = true →
        ∃ interval edgeUs t, e = .observePpsPulse interval edgeUs ∧
          latestGpsUpdate evs = some t ∧ edgeUs - t < 2000000) ∧
      (dp.stratum = 1 → ∃ pre interval edgeUs post t,
        evs = pre ++ .observePpsPulse interval edgeUs :: post ∧
          latestGpsUpdate pre = some t ∧ edgeUs - t < 2000000) := by
  intro s dp
  have hwf : s.WellFormed := wellFormed_run evs
  obtain ⟨hlockedOne, hholdover, hunsync⟩ := state_iff_stratum hwf gpsFix nowUs reading
  have hone : dp.stratum = 1 ↔ s.ppsLocked = true ∧
      ∃ t, s.lastPpsMonotonicUs = some t ∧ nowUs - t < 2008000000 := by
    refine (stratum_eq_one_iff hwf gpsFix nowUs reading).trans
      ⟨fun h => ⟨hwf.locked_iff.mpr ?_, h⟩, And.right⟩
    obtain ⟨t, ht, -⟩ := h
    rw [ht]
    rfl
  have hlocked : dp.state = .locked ↔ dp.stratum = 1 ∧ gpsFix = true ∧
      ∃ t, s.lastPpsMonotonicUs = some t ∧ nowUs - t < 10000000 :=
    ⟨fun h => ⟨hlockedOne h, (state_eq_locked_iff hwf gpsFix nowUs reading).mp h⟩,
      fun h => (state_eq_locked_iff hwf gpsFix nowUs reading).mpr h.2⟩
  refine ⟨hone, stratum_eq gpsFix nowUs reading, hlocked, hholdover, hunsync, rfl, hwf.leap,
    hwf.locked_iff, hwf.anchor_of_locked, fun e h₀ h => ?_, fun h => locking_pulse (hone.mp h).1⟩
  obtain ⟨interval, edgeUs, t, he, ht, hfresh⟩ := locked_of_pulse h₀ h
  exact ⟨interval, edgeUs, t, he, (lastGpsUtcUpdateUs_run evs).symm.trans ht, hfresh⟩

/-- A run that locks at second 2: stratum 1 half a second later, in holdover once the pulse is ten
seconds old, and given up after 2008. -/
example : (firstLock.disciplineParams true 2500000 ⟨2500000, none⟩).stratum = 1 ∧
    (firstLock.disciplineParams true 2500000 ⟨2500000, none⟩).state = .locked ∧
    (firstLock.disciplineParams true 12000000 ⟨12000000, none⟩).state = .holdover ∧
    (firstLock.disciplineParams true 2010000000 ⟨2010000000, none⟩).stratum = 16 := by
  decide +kernel

end NtpServer

end GpsNtp
