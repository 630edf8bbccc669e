import GpsNtp.Machinery.MachineInt
import GpsNtp.Ntp.Protection

/-!
# Ntp/Server — the server state, its clock anchor and its timestamps

    clock_anchor = (unix_seconds, monotonic_us)     disciplined time = anchor + corrected elapsed

`ntp/mod.rs`, the engine without its packets.  Every reading of `monotonic_us_now` is an argument
`nowUs` of the function that takes it.  An `i64` or `u64` is the integer it denotes with each
saturating or wrapping operation written out (`Machinery/MachineInt`; plain operators follow the
release profile and wrap), an `f32` or `f64` is the rational it denotes.
-/

namespace GpsNtp

open MachineInt

/-! ## Constants -/

/-- `NTP_UNIX_EPOCH_OFFSET_SECS`. -/
def ntpUnixEpochOffsetSecs : ℕ := 2208988800

/-- `NTP_FRAC_SCALE`. -/
def ntpFracScale : ℕ := 4294967296

/-- `MICROS_PER_SEC`. -/
def microsPerSec : ℤ := 1000000

/-- `NMEA_PPS_FUDGE_S`, as the default configuration sets it: the sentence follows its edge. -/
def nmeaPpsFudgeS : ℤ := 1

/-- `GPS_STALE_THRESHOLD_US`: the age from which the last GPS update is stale. -/
def gpsStaleThresholdUs : ℤ := 2000000

/-! ## State -/

/-- `ClockAnchor`: a UTC second and the monotonic instant it was captured at. -/
structure ClockAnchor where
  unixSeconds : ℤ
  monotonicUs : ℤ
deriving DecidableEq

/-- `NtpServer`, without its socket. -/
structure NtpServer where
  served : ℕ
  clockAnchor : Option ClockAnchor
  lastGpsUtcSeconds : Option ℤ
  ppsLocked : Bool
  ppsOffsetUs : ℤ
  ppsJitterUs : ℚ
  ppsHasSample : Bool
  procDelayUs : ℚ
  procDelayHasSample : Bool
  freqPpm : ℚ
  lastPpsMonotonicUs : Option ℤ
  lastSyncNtpTs : ℕ
  rateLimiter : RateLimiter
  acl : Acl
  rateLimitedTotal : ℕ
  aclBlockedTotal : ℕ
  pendingLeap : UInt8
  ppsGlitchCount : ℕ
  anchorStepCount : ℕ
  pendingGpsStep : Option ℤ
  lastGpsUtcUpdateUs : Option ℤ
deriving DecidableEq

/-! ## Timestamps -/

/-- `ntp_timestamp_from_unix`: seconds since 1900 over a 32-bit binary fraction.  An instant before
1970 clamps to the Unix epoch. -/
def ntpTimestampFromUnix (unixSeconds : ℤ) (remUs : ℕ) : ℕ :=
  let ntpSeconds :=
    if 0 ≤ unixSeconds then min u64Max (unixSeconds.toNat + ntpUnixEpochOffsetSecs)
    else ntpUnixEpochOffsetSecs
  let ntpFraction := remUs * ntpFracScale / 1000000 % 18446744073709551616
  (ntpSeconds <<< 32) % 18446744073709551616 ||| ntpFraction

/-- `SystemTime::now().duration_since(UNIX_EPOCH)`. -/
structure WallTime where
  secs : ℕ
  subsecNanos : ℕ
deriving DecidableEq

/-- One look at the clocks: the monotonic timer and the wall clock, the latter `none` when it
stands before 1970. -/
structure ClockReading where
  monotonicUs : ℤ
  wall : Option WallTime
deriving DecidableEq

/-- `ntp_timestamp_now`: the NTP timestamp of the wall clock. -/
def ntpTimestampNow (wall : Option WallTime) : ℕ :=
  let unix := wall.getD ⟨0, 0⟩
  let seconds := min u64Max (unix.secs + ntpUnixEpochOffsetSecs)
  let fraction := unix.subsecNanos * ntpFracScale / 1000000000 % 18446744073709551616
  (seconds <<< 32) % 18446744073709551616 ||| fraction

namespace NtpServer

/-- `NtpServer::from_socket`: a fresh, unsynchronised server. -/
def fromSocket : NtpServer where
  served := 0
  clockAnchor := none
  lastGpsUtcSeconds := none
  ppsLocked := false
  ppsOffsetUs := 0
  ppsJitterUs := 0
  ppsHasSample := false
  procDelayUs := 0
  procDelayHasSample := false
  freqPpm := 0
  lastPpsMonotonicUs := none
  lastSyncNtpTs := 0
  rateLimiter := RateLimiter.new
  acl := Acl.allowAll
  rateLimitedTotal := 0
  aclBlockedTotal := 0
  pendingLeap := 0
  ppsGlitchCount := 0
  anchorStepCount := 0
  pendingGpsStep := none
  lastGpsUtcUpdateUs := none

variable (s : NtpServer)

/-- `NtpServer::set_acl`. -/
def setAcl (acl : Acl) : NtpServer := { s with acl := acl }

/-- `NtpServer::set_leap_indicator`: values above 2 are clamped. -/
def setLeapIndicator (li : UInt8) : NtpServer := { s with pendingLeap := min li 2 }

/-- `NtpServer::seed_utc_seconds`: an RTC second makes the first anchor, and nothing else. -/
def seedUtcSeconds (utcUnixSeconds nowUs : ℤ) : NtpServer :=
  if s.ppsLocked || s.clockAnchor.isSome then s
  else { s with clockAnchor := some ⟨utcUnixSeconds, nowUs⟩ }

/-- `NtpServer::update_gps_utc_seconds`: the NMEA record, and the anchor until PPS takes over. -/
def updateGpsUtcSeconds (utcUnixSeconds nowUs : ℤ) : NtpServer :=
  let s :=
    { s with lastGpsUtcSeconds := some utcUnixSeconds, lastGpsUtcUpdateUs := some nowUs }
  if s.ppsLocked then s
  else { s with clockAnchor := some ⟨utcUnixSeconds, nowUs⟩ }

/-- `NtpServer::gps_time_fresh`. -/
def gpsTimeFresh (edgeUs : ℤ) : Bool :=
  s.lastGpsUtcUpdateUs.elim false fun t => decide (satSub edgeUs t < gpsStaleThresholdUs)

/-- `NtpServer::gps_second_at_edge`: the UTC second GPS gives to an edge, when GPS is fresh. -/
def gpsSecondAtEdge (edgeUs : ℤ) : Option ℤ :=
  if !s.gpsTimeFresh edgeUs then none
  else do
    let gpsUtc ← s.lastGpsUtcSeconds
    let tNmea ← s.lastGpsUtcUpdateUs
    let wholeSecs := satSub edgeUs tNmea / microsPerSec
    some (satAdd (satAdd gpsUtc wholeSecs) nmeaPpsFudgeS)

/-- `NtpServer::lock_anchor`: lock with the anchor at `edgeUs`, the top of `unixSeconds`. -/
def lockAnchor (unixSeconds edgeUs : ℤ) : NtpServer :=
  { s with
    clockAnchor := some ⟨unixSeconds, edgeUs⟩
    ppsLocked := true
    pendingGpsStep := none
    lastPpsMonotonicUs := some edgeUs
    lastSyncNtpTs := ntpTimestampFromUnix unixSeconds 0 }

/-- `NtpServer::corrected_elapsed_us`: raw elapsed time scaled by the frequency estimate, never
negative. -/
def correctedElapsedUs (rawElapsedUs : ℤ) : ℤ :=
  max
    (if s.freqPpm = 0 then rawElapsedUs
      else castI64 ((rawElapsedUs : ℚ) * (1 - s.freqPpm / 1000000)))
    0

/-- `NtpServer::current_ntp_timestamp`: the disciplined time, or the wall clock before there is an
anchor. -/
def currentNtpTimestamp (now : ClockReading) : ℕ :=
  match s.clockAnchor with
  | some anchor =>
    let rawElapsedUs := satSub now.monotonicUs anchor.monotonicUs
    let correctedElapsedUs := s.correctedElapsedUs rawElapsedUs
    let elapsedSeconds := correctedElapsedUs / microsPerSec
    let remUs := (correctedElapsedUs % microsPerSec).toNat
    let unixSeconds := satAdd anchor.unixSeconds elapsedSeconds
    ntpTimestampFromUnix unixSeconds remUs
  | none => ntpTimestampNow now.wall

/-- `NtpServer::current_utc_unix_seconds`. -/
def currentUtcUnixSeconds (nowUs : ℤ) : Option ℤ := do
  let anchor ← s.clockAnchor
  let rawElapsedUs := satSub nowUs anchor.monotonicUs
  let elapsedSeconds := s.correctedElapsedUs rawElapsedUs / microsPerSec
  some (satAdd anchor.unixSeconds elapsedSeconds)

/-! ## What the operations write -/

variable {s}

/-- A seed is a no-op once there is an anchor. -/
theorem seedUtcSeconds_of_isSome (h : s.clockAnchor.isSome = true) (utc nowUs : ℤ) :
    s.seedUtcSeconds utc nowUs = s := by
  rw [seedUtcSeconds, h, Bool.or_true, if_pos rfl]

/-- **A seed writes at most the anchor.** -/
theorem seedUtcSeconds_eq (utc nowUs : ℤ) :
    ∃ anchor, s.seedUtcSeconds utc nowUs = { s with clockAnchor := anchor } := by
  unfold seedUtcSeconds
  split
  · exact ⟨s.clockAnchor, rfl⟩
  · exact ⟨_, rfl⟩

/-- **A GPS update writes the NMEA record**, and the anchor as long as PPS is not locked. -/
theorem updateGpsUtcSeconds_eq (utc nowUs : ℤ) :
    s.updateGpsUtcSeconds utc nowUs =
      { s with
        lastGpsUtcSeconds := some utc
        lastGpsUtcUpdateUs := some nowUs
        clockAnchor := if s.ppsLocked = true then s.clockAnchor else some ⟨utc, nowUs⟩ } := by
  unfold updateGpsUtcSeconds
  cases s.ppsLocked <;> simp

/-- GPS speaks for an edge exactly when an update less than the stale threshold before it is on
record. -/
theorem gpsSecondAtEdge_eq_some {edgeUs g : ℤ} (h : s.gpsSecondAtEdge edgeUs = some g) :
    ∃ gpsUtc tNmea, s.lastGpsUtcSeconds = some gpsUtc ∧ s.lastGpsUtcUpdateUs = some tNmea ∧
      edgeUs - tNmea < gpsStaleThresholdUs ∧
      g = satAdd (satAdd gpsUtc (satSub edgeUs tNmea / microsPerSec)) nmeaPpsFudgeS := by
  unfold gpsSecondAtEdge at h
  split at h
  · exact absurd h (by simp)
  · next hfresh =>
    cases hg : s.lastGpsUtcSeconds with
    | none => simp [hg] at h
    | some gpsUtc =>
      cases ht : s.lastGpsUtcUpdateUs with
      | none => simp [hg, ht] at h
      | some tNmea =>
        refine ⟨gpsUtc, tNmea, rfl, rfl, ?_, ?_⟩
        · have : satSub edgeUs tNmea < gpsStaleThresholdUs := by
            simpa [gpsTimeFresh, ht] using hfresh
          exact (satSub_lt_iff (by decide) (by decide)).mp this
        · simpa [hg, ht] using h.symm

/-- GPS reads the NMEA record only. -/
theorem gpsSecondAtEdge_congr {t : NtpServer} (h₁ : s.lastGpsUtcSeconds = t.lastGpsUtcSeconds)
    (h₂ : s.lastGpsUtcUpdateUs = t.lastGpsUtcUpdateUs) (edgeUs : ℤ) :
    s.gpsSecondAtEdge edgeUs = t.gpsSecondAtEdge edgeUs := by
  rw [gpsSecondAtEdge, gpsSecondAtEdge, gpsTimeFresh, gpsTimeFresh, h₁, h₂]

theorem isI64_gpsSecondAtEdge {edgeUs g : ℤ} (h : s.gpsSecondAtEdge edgeUs = some g) :
    IsI64 g := by
  obtain ⟨_, _, -, -, -, rfl⟩ := gpsSecondAtEdge_eq_some h
  exact isI64_satAdd _ _

theorem correctedElapsedUs_nonneg (raw : ℤ) : 0 ≤ s.correctedElapsedUs raw := le_max_right _ _

/-- Corrected elapsed time reads the frequency estimate only. -/
theorem correctedElapsedUs_congr {t : NtpServer} (h : s.freqPpm = t.freqPpm) (raw : ℤ) :
    s.correctedElapsedUs raw = t.correctedElapsedUs raw := by
  simp only [correctedElapsedUs, h]

/-- **Corrected elapsed time is monotone** while the estimate stays below a million ppm. -/
theorem correctedElapsedUs_mono (hf : s.freqPpm < 1000000) {raw raw' : ℤ} (h : raw ≤ raw') :
    s.correctedElapsedUs raw ≤ s.correctedElapsedUs raw' := by
  unfold correctedElapsedUs
  refine max_le_max ?_ le_rfl
  split
  · exact h
  · have hscale : 0 ≤ 1 - s.freqPpm / 1000000 := by linarith
    exact castI64_mono (mul_le_mul_of_nonneg_right (by exact_mod_cast h) hscale)

end NtpServer

end GpsNtp
