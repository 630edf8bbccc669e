import GpsNtp.Gps.Uart
import GpsNtp.Machinery.Interval
import GpsNtp.Ntp.Runs
import GpsNtp.Ui.TimeSource

/-!
# App/MainLoop — the main loop between the satellites and the clock chip

    clock chip ──▸ feed.rtc ──fallback──▸ NtpServer ──write-back──▸ rtc_write_pending ──▸ clock chip
                                           ▴     ▴
                                          GPS   PPS

Without a fix the loop feeds the cached time of the clock chip into the server, at most once a
second (`fallbacks_spaced`); with a lock it writes the server's time back to the chip, at most once
a minute (`writebacks_spaced`).
-/

namespace GpsNtp.App

open Machine
open Ui (RtcSnapshot)

/-- Minimum interval between PCF8523 writebacks from disciplined GPS time. -/
def WRITEBACK_INTERVAL_US : ℤ := 60000000

/-- How often to feed cached RTC UTC into NTP when GPS fix is lost. -/
def FALLBACK_INTERVAL_US : ℤ := 1000000

/-- `UiFeed`, as far as it concerns the clock chip. -/
structure UiFeed where
  rtc : RtcSnapshot
  rtcWritePending : ℤ

/-- The state of `run` between two steps of its loop. -/
structure MainLoop where
  ntpServer : NtpServer
  gps : GpsSnapshot
  uiFeed : UiFeed
  rtcPresent : Bool
  lastRtcFallbackUs : ℤ
  lastRtcWriteUs : ℤ
  firstFixLogged : Bool
  rtcSeededFromGps : Bool
  nowUs : ℤ

/-- What happens to it: the steps of the loop, what the panel task does with the feed, and time.
Every later reading of the clock in a step has its delay. -/
inductive LoopEvent where
  | gpsPoll (gps : GpsSnapshot) (calls : List (GpsCall × ℕ))
  | ntpPoll (ds : List Datagram)
  | rtcFallback (seedDelayUs : ℕ)
  | pps (ppsIntervalUs : Option ℕ) (edgeUs : ℤ) (snapshotDelayUs currentDelayUs : ℕ)
      (reading : ClockReading)
  | selfCheck
  | publishRtc (snap : RtcSnapshot)
  | takeRtcWrite
  | tick (us : ℕ)

namespace MainLoop

/-- `init_ntp_server`. -/
def initNtpServer (acl : Acl) (bootRtcUnix : Option ℤ) (nowUs : ℤ) : NtpServer :=
  match bootRtcUnix with
  | some secs => (NtpServer.fromSocket.setAcl acl).seedUtcSeconds secs nowUs
  | none => NtpServer.fromSocket.setAcl acl

/-- When `run` enters its loop. -/
def entered (acl : Acl) (gps : GpsSnapshot) (rtcPresent : Bool) (bootRtcUnix : Option ℤ)
    (seedUs nowUs : ℤ) : MainLoop where
  ntpServer := initNtpServer acl bootRtcUnix seedUs
  gps
  uiFeed := ⟨if rtcPresent then ⟨true, bootRtcUnix⟩ else ⟨false, none⟩, 0⟩
  rtcPresent
  lastRtcFallbackUs := 0
  lastRtcWriteUs := 0
  firstFixLogged := false
  rtcSeededFromGps := bootRtcUnix.isSome
  nowUs

variable (s : MainLoop)

/-- `GpsDispatch`, on one call of `GpsUart::poll`. -/
def onCall (call : GpsCall × ℕ) : MainLoop :=
  match call with
  | (.onFix gps, delayUs) =>
    match GpsDispatch.onFix gps with
    | some utc =>
      { s with ntpServer := s.ntpServer.updateGpsUtcSeconds utc (s.nowUs + delayUs) }
    | none => s
  | _ => s

/-- `request_rtc_write`. -/
def requestRtcWrite (utcUnixSeconds : ℤ) : MainLoop :=
  { s with uiFeed.rtcWritePending := utcUnixSeconds }

/-- The second that `maybe_apply_rtc_fallback` feeds to the server. -/
def fallbackSecs : Option ℤ :=
  if s.gps.fix then none
  else if !s.uiFeed.rtc.detected then none
  else
    match s.uiFeed.rtc.utcUnixSeconds with
    | none => none
    | some secs =>
      if s.lastRtcFallbackUs = 0 ∨ FALLBACK_INTERVAL_US ≤ s.nowUs - s.lastRtcFallbackUs then
        some secs
      else none

/-- `maybe_apply_rtc_fallback`. -/
def maybeApplyRtcFallback (seedDelayUs : ℕ) : MainLoop :=
  match s.fallbackSecs with
  | some secs =>
    { s with
      ntpServer := s.ntpServer.seedUtcSeconds secs (s.nowUs + seedDelayUs)
      lastRtcFallbackUs := s.nowUs }
  | none => s

/-- The second that `maybe_writeback_rtc` queues for the clock chip. -/
def writebackSecs (snapshotDelayUs currentDelayUs : ℕ) (reading : ClockReading) : Option ℤ :=
  if !s.gps.fix then none
  else if (s.ntpServer.disciplineParams s.gps.fix (s.nowUs + snapshotDelayUs) reading).state ≠
      .locked then none
  else if s.lastRtcWriteUs ≠ 0 ∧ s.nowUs - s.lastRtcWriteUs < WRITEBACK_INTERVAL_US then none
  else s.ntpServer.currentUtcUnixSeconds (s.nowUs + currentDelayUs)

/-- `maybe_writeback_rtc`. -/
def maybeWritebackRtc (snapshotDelayUs currentDelayUs : ℕ) (reading : ClockReading) : MainLoop :=
  match s.writebackSecs snapshotDelayUs currentDelayUs reading with
  | some secs => { s.requestRtcWrite secs with lastRtcWriteUs := s.nowUs }
  | none => s

/-- The server has seen the pulse. -/
def observePps (ppsIntervalUs : Option ℕ) (edgeUs : ℤ) : MainLoop :=
  { s with ntpServer := s.ntpServer.observePpsPulse ppsIntervalUs edgeUs }

/-- The second that the first fix of all queues for the clock chip. -/
def initialSecs : Option ℤ :=
  if !s.firstFixLogged && s.gps.fix && s.rtcPresent && !s.rtcSeededFromGps then
    s.gps.utcUnixSeconds
  else none

/-- The self-check of the first fix. -/
def selfCheck : MainLoop :=
  let s' := { s with firstFixLogged := s.firstFixLogged || s.gps.fix }
  match s.initialSecs with
  | some utc => { s'.requestRtcWrite utc with rtcSeededFromGps := true }
  | none => s'

/-- One step. -/
def step : LoopEvent → MainLoop
  | .gpsPoll gps calls => { calls.foldl onCall s with gps }
  | .ntpPoll ds => { s with ntpServer := (s.ntpServer.poll s.gps.fix ds).1 }
  | .rtcFallback seedDelayUs => s.maybeApplyRtcFallback seedDelayUs
  | .pps ppsIntervalUs edgeUs snapshotDelayUs currentDelayUs reading =>
    (s.observePps ppsIntervalUs edgeUs).maybeWritebackRtc snapshotDelayUs currentDelayUs reading
  | .selfCheck => s.selfCheck
  | .publishRtc snap => { s with uiFeed.rtc := snap }
  | .takeRtcWrite => { s with uiFeed.rtcWritePending := 0 }
  | .tick us => { s with nowUs := s.nowUs + us }

/-- The fallback that an event makes, with its time. -/
def fallbackBy : LoopEvent → Option (ℤ × ℤ)
  | .rtcFallback _ => s.fallbackSecs.map (s.nowUs, ·)
  | _ => none

/-- The write-back that an event queues, with its time. -/
def writebackBy : LoopEvent → Option (ℤ × ℤ)
  | .pps ppsIntervalUs edgeUs snapshotDelayUs currentDelayUs reading =>
    ((s.observePps ppsIntervalUs edgeUs).writebackSecs snapshotDelayUs currentDelayUs reading).map
      (s.nowUs, ·)
  | _ => none

/-- The first setting of the clock chip, if an event queues it. -/
def initialBy : LoopEvent → Option ℤ
  | .selfCheck => s.initialSecs
  | _ => none

/-- What an event queues for the clock chip. -/
def requestBy (e : LoopEvent) : Option ℤ :=
  ((s.writebackBy e).map Prod.snd).or (s.initialBy e)

/-- The call of the server that a call of `GpsUart::poll` makes. -/
def ntpUpdate : GpsCall × ℕ → Option Event
  | (.onFix gps, delayUs) =>
    (GpsDispatch.onFix gps).map (.updateGpsUtcSeconds · (s.nowUs + delayUs))
  | _ => none

/-- The calls of the server that an event makes. -/
def ntpEvents : LoopEvent → List Event
  | .gpsPoll _ calls => calls.filterMap s.ntpUpdate
  | .ntpPoll ds => [.poll s.gps.fix ds]
  | .rtcFallback seedDelayUs =>
    (s.fallbackSecs.map (.seedUtcSeconds · (s.nowUs + seedDelayUs))).toList
  | .pps ppsIntervalUs edgeUs _ _ _ => [.observePpsPulse ppsIntervalUs edgeUs]
  | _ => []

/-! ## What a step leaves -/

variable {s}

theorem onCall_eq (call : GpsCall × ℕ) :
    s.onCall call = { s with ntpServer := (s.onCall call).ntpServer } := by
  rcases call with ⟨_ | _ | _ | gps, delayUs⟩
  · rfl
  · rfl
  · rfl
  · rw [onCall]
    cases GpsDispatch.onFix gps <;> rfl

theorem foldl_onCall (calls : List (GpsCall × ℕ)) :
    calls.foldl onCall s = { s with ntpServer := (calls.foldl onCall s).ntpServer } := by
  induction calls generalizing s with
  | nil => rfl
  | cons call calls ih => rw [List.foldl_cons, ih, onCall_eq]

theorem gpsPoll_eq (gps : GpsSnapshot) (calls : List (GpsCall × ℕ)) :
    s.step (.gpsPoll gps calls) =
      { s with ntpServer := (calls.foldl onCall s).ntpServer, gps } := by
  rw [step, foldl_onCall]

theorem ntpServer_foldl_onCall (calls : List (GpsCall × ℕ)) :
    (calls.foldl onCall s).ntpServer =
      run NtpServer.step s.ntpServer (calls.filterMap s.ntpUpdate) := by
  induction calls generalizing s with
  | nil => rfl
  | cons call calls ih =>
    have hupdate : (s.onCall call).ntpUpdate = s.ntpUpdate := by
      rw [onCall_eq]
      rfl
    rw [List.foldl_cons, ih, hupdate, List.filterMap_cons]
    rcases call with ⟨_ | _ | _ | gps, delayUs⟩
    · rfl
    · rfl
    · rfl
    · rw [onCall, ntpUpdate]
      cases GpsDispatch.onFix gps <;> rfl

/-- **The loop's server makes a run of its own** out of the calls that the loop makes. -/
theorem ntpServer_step (e : LoopEvent) :
    (s.step e).ntpServer = run NtpServer.step s.ntpServer (s.ntpEvents e) := by
  cases e with
  | gpsPoll gps calls => exact ntpServer_foldl_onCall calls
  | rtcFallback seedDelayUs =>
    rw [step, maybeApplyRtcFallback, ntpEvents]
    cases s.fallbackSecs <;> rfl
  | pps ppsIntervalUs edgeUs snapshotDelayUs currentDelayUs reading =>
    rw [step, maybeWritebackRtc]
    split <;> rfl
  | selfCheck =>
    rw [step, selfCheck]
    dsimp only
    split <;> rfl
  | _ => rfl

/-- When a fallback is made, and with which second. -/
theorem fallbackSecs_eq_some_iff {secs : ℤ} :
    s.fallbackSecs = some secs ↔
      s.gps.fix = false ∧ s.uiFeed.rtc.detected = true ∧ s.uiFeed.rtc.utcUnixSeconds = some secs ∧
        (s.lastRtcFallbackUs = 0 ∨ FALLBACK_INTERVAL_US ≤ s.nowUs - s.lastRtcFallbackUs) := by
  rw [fallbackSecs]
  cases s.gps.fix with
  | true => simp
  | false =>
    cases s.uiFeed.rtc.detected with
    | false => simp
    | true =>
      cases s.uiFeed.rtc.utcUnixSeconds with
      | none => simp
      | some secs' => simp [and_comm]

/-- When a write-back is queued, and with which second. -/
theorem writebackSecs_eq_some_iff {snapshotDelayUs currentDelayUs : ℕ} {reading : ClockReading}
    {secs : ℤ} :
    s.writebackSecs snapshotDelayUs currentDelayUs reading = some secs ↔
      s.gps.fix = true ∧
        (s.ntpServer.disciplineParams s.gps.fix (s.nowUs + snapshotDelayUs) reading).state =
          .locked ∧
        (s.lastRtcWriteUs = 0 ∨ WRITEBACK_INTERVAL_US ≤ s.nowUs - s.lastRtcWriteUs) ∧
        s.ntpServer.currentUtcUnixSeconds (s.nowUs + currentDelayUs) = some secs := by
  rw [writebackSecs]
  split_ifs with hfix hstate hdue
  · simp_all
  · simp_all
  · simp_all
  · simp_all [or_iff_not_imp_left]

/-- Fallbacks wait for their interval. -/
theorem timer_fallback :
    Timer step fallbackBy (fun _ => FALLBACK_INTERVAL_US) lastRtcFallbackUs nowUs := by
  intro s e
  cases e with
  | rtcFallback seedDelayUs =>
    rw [step, maybeApplyRtcFallback, fallbackBy]
    cases hsecs : s.fallbackSecs with
    | none => exact .waits rfl le_rfl
    | some secs =>
      obtain ⟨-, -, -, hdue⟩ := fallbackSecs_eq_some_iff.mp hsecs
      exact .fires hdue rfl le_rfl le_rfl
  | gpsPoll gps calls =>
    rw [gpsPoll_eq]
    exact .waits rfl le_rfl
  | pps ppsIntervalUs edgeUs snapshotDelayUs currentDelayUs reading =>
    rw [step, maybeWritebackRtc]
    split <;> exact .waits rfl le_rfl
  | selfCheck =>
    rw [step, selfCheck]
    dsimp only
    split <;> exact .waits rfl le_rfl
  | tick us => exact .waits rfl (le_add_of_nonneg_right (Int.natCast_nonneg us))
  | _ => exact .waits rfl le_rfl

/-- So do write-backs. -/
theorem timer_writeback :
    Timer step writebackBy (fun _ => WRITEBACK_INTERVAL_US) lastRtcWriteUs nowUs := by
  intro s e
  cases e with
  | rtcFallback seedDelayUs =>
    rw [step, maybeApplyRtcFallback]
    split <;> exact .waits rfl le_rfl
  | gpsPoll gps calls =>
    rw [gpsPoll_eq]
    exact .waits rfl le_rfl
  | pps ppsIntervalUs edgeUs snapshotDelayUs currentDelayUs reading =>
    rw [step, maybeWritebackRtc, writebackBy]
    cases hsecs : (s.observePps ppsIntervalUs edgeUs).writebackSecs snapshotDelayUs currentDelayUs
        reading with
    | none => exact .waits rfl le_rfl
    | some secs =>
      obtain ⟨-, -, hdue, -⟩ := writebackSecs_eq_some_iff.mp hsecs
      exact .fires hdue rfl le_rfl le_rfl
  | selfCheck =>
    rw [step, selfCheck]
    dsimp only
    split <;> exact .waits rfl le_rfl
  | tick us => exact .waits rfl (le_add_of_nonneg_right (Int.natCast_nonneg us))
  | _ => exact .waits rfl le_rfl

end MainLoop

end GpsNtp.App
