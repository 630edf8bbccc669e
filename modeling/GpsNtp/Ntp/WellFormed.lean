import GpsNtp.Ntp.Pulse

/-!
# Ntp/WellFormed — the invariant of a server

Lock, last pulse, NMEA record and anchor are four fields that the source sets in different
functions.  `WellFormed` says how they go together, and bounds what the servo may reach; a fresh
server has it and every operation keeps it.
-/

namespace GpsNtp

open MachineInt

namespace NtpServer

/-- **The invariant**: a lock has a last pulse, an anchor and a GPS update behind it, its reference
timestamp is the top of the anchored second, and the estimates stay in their bounds. -/
structure WellFormed (s : NtpServer) : Prop where
  locked_iff : s.ppsLocked = true ↔ s.lastPpsMonotonicUs.isSome = true
  gps_record : s.lastGpsUtcSeconds.isSome = s.lastGpsUtcUpdateUs.isSome
  gps_of_locked : s.ppsLocked = true → s.lastGpsUtcSeconds.isSome = true
  anchor_of_gps : s.lastGpsUtcSeconds.isSome = true → s.clockAnchor.isSome = true
  sync_ts : s.ppsLocked = true → ∀ anchor, s.clockAnchor = some anchor →
    s.lastSyncNtpTs = ntpTimestampFromUnix anchor.unixSeconds 0
  freq : |s.freqPpm| ≤ servoMaxFreqPpm
  jitter_nonneg : 0 ≤ s.ppsJitterUs
  jitter_le : s.ppsJitterUs ≤ 200000
  leap : s.pendingLeap ≤ 2

variable {s : NtpServer}

/-- A lock implies an anchor. -/
theorem WellFormed.anchor_of_locked (h : s.WellFormed) (hl : s.ppsLocked = true) :
    s.clockAnchor.isSome = true :=
  h.anchor_of_gps (h.gps_of_locked hl)

theorem WellFormed.freq_lt (h : s.WellFormed) : s.freqPpm < 1000000 :=
  ((le_abs_self _).trans h.freq).trans_lt (by norm_num [servoMaxFreqPpm])

theorem wellFormed_fromSocket : fromSocket.WellFormed where
  locked_iff := by decide
  gps_record := rfl
  gps_of_locked := by decide
  anchor_of_gps := by decide
  sync_ts := nofun
  freq := by norm_num [fromSocket, servoMaxFreqPpm]
  jitter_nonneg := le_refl _
  jitter_le := by norm_num [fromSocket]
  leap := by decide

theorem WellFormed.seedUtcSeconds (h : s.WellFormed) (utc nowUs : ℤ) :
    (s.seedUtcSeconds utc nowUs).WellFormed := by
  unfold NtpServer.seedUtcSeconds
  split_ifs with hseed
  · exact h
  · have hl : s.ppsLocked = false := by
      cases hl : s.ppsLocked with
      | false => rfl
      | true => exact absurd (by rw [hl, Bool.true_or]) hseed
    exact { h with anchor_of_gps := fun _ => rfl, sync_ts := fun hl' => by simp [hl] at hl' }

theorem WellFormed.updateGpsUtcSeconds (h : s.WellFormed) (utc nowUs : ℤ) :
    (s.updateGpsUtcSeconds utc nowUs).WellFormed := by
  rw [updateGpsUtcSeconds_eq]
  refine { h with
    gps_record := rfl
    gps_of_locked := fun _ => rfl
    anchor_of_gps := fun _ => ?_
    sync_ts := fun hl anchor ha => ?_ }
  · cases hl : s.ppsLocked with
    | true => simpa using h.anchor_of_locked hl
    | false => simp
  · have hl : s.ppsLocked = true := hl
    exact h.sync_ts hl anchor (by simpa [hl] using ha)

theorem WellFormed.lockAnchor (h : s.WellFormed) {unixSeconds edgeUs : ℤ}
    (hg : s.gpsSecondAtEdge edgeUs = some unixSeconds) :
    (s.lockAnchor unixSeconds edgeUs).WellFormed := by
  obtain ⟨gpsUtc, -, hgps, -, -, -⟩ := gpsSecondAtEdge_eq_some hg
  exact { h with
    locked_iff := by simp [NtpServer.lockAnchor]
    gps_of_locked := fun _ => by simp [NtpServer.lockAnchor, hgps]
    anchor_of_gps := fun _ => rfl
    sync_ts := fun _ anchor ha => by rw [← Option.some.inj ha]; rfl }

theorem WellFormed.discipline (h : s.WellFormed) {anchor : ClockAnchor}
    (hl : s.ppsLocked = true) {phaseErrorUs : ℤ} (hphase : phaseErrorUs.natAbs ≤ 200000)
    (edgeUs : ℤ) :
    (s.discipline anchor phaseErrorUs edgeUs).WellFormed where
  locked_iff := by simpa [NtpServer.discipline] using hl
  gps_record := h.gps_record
  gps_of_locked := h.gps_of_locked
  anchor_of_gps := fun _ => rfl
  sync_ts := fun _ anchor ha => by rw [← Option.some.inj ha]; rfl
  freq := abs_blendFreqPpm_le _ _
  jitter_nonneg := smoothUs_nonneg h.jitter_nonneg (Nat.cast_nonneg _)
  jitter_le := smoothUs_le h.jitter_le (by exact_mod_cast hphase)
  leap := h.leap

/-- **A pulse keeps the invariant**, outcome by outcome. -/
theorem WellFormed.observePpsPulse (h : s.WellFormed) (ppsIntervalUs : Option ℕ) (edgeUs : ℤ) :
    (s.observePpsPulse ppsIntervalUs edgeUs).WellFormed := by
  rw [observePpsPulse_eq]
  cases hout : s.pulseOutcome ppsIntervalUs edgeUs with
  | skipped => exact h
  | outlier => exact { h with }
  | aligned unixSeconds => exact h.lockAnchor (gpsSecondAtEdge_of_aligned hout)
  | disciplined anchor phaseErrorUs =>
    obtain ⟨_, -, hlo, hhi, rfl, -, hl, -⟩ := pulseOutcome_eq_disciplined hout
    exact h.discipline hl (by omega) edgeUs

theorem WellFormed.setLeapIndicator (h : s.WellFormed) (li : UInt8) :
    (s.setLeapIndicator li).WellFormed := by
  have hmin : (if li ≤ 2 then li else 2) ≤ (2 : UInt8) := by
    split
    · assumption
    · decide
  exact { h with leap := hmin }

theorem WellFormed.setAcl (h : s.WellFormed) (acl : Acl) : (s.setAcl acl).WellFormed :=
  { h with }

end NtpServer

end GpsNtp
