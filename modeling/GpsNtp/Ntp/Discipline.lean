import GpsNtp.Ntp.WellFormed
import Mathlib.Data.Int.Log

/-!
# Ntp/Discipline — what the server advertises

    age of the last pulse:   0 ─────── 10 s ───────────────── 2008 s ───────▸
    advertised:              Locked    Holdover (stratum 1)    Unsync (stratum 16)

`NtpServer::discipline_params` and the snapshots built on it.  Dispersion has two formulas, jitter
plus a drift allowance while GPS and PPS are both live, and a ramp in holdover;
`stratum_eq_one_iff` reads the stratum back off the lock and the age of the last pulse.
-/

namespace GpsNtp

open MachineInt

/-! ## Thresholds -/

/-- `STRATUM_UNSYNC`. -/
def stratumUnsync : UInt8 := 16

/-- `HOLDOVER_ENTRY_US`. -/
def holdoverEntryUs : ℤ := 10000000

/-- `HOLDOVER_DISP_RATE_US_PER_SEC`. -/
def holdoverDispRateUsPerSec : ℤ := 500

/-- `BASE_DISP_US`. -/
def baseDispUs : ℤ := 1000

/-- `MAX_DISP_US`. -/
def maxDispUs : ℤ := 2000000

/-- `HOLDOVER_UNSYNC_US`. -/
def holdoverUnsyncUs : ℤ := 1000000

/-- `PHI_US_PER_S`. -/
def phiUsPerS : ℤ := 15

/-- `MIN_HW_ACCURACY_US`. -/
def minHwAccuracyUs : ℤ := 100

/-- `LOOP_POLL_UNCERTAINTY_US`. -/
def loopPollUncertaintyUs : ℤ := 500

/-! ## Discipline parameters -/

/-- `DisciplineState`. -/
inductive DisciplineState where
  | locked
  | holdover
  | unsync
deriving DecidableEq

/-- `DisciplineParams`. -/
structure DisciplineParams where
  stratum : UInt8
  state : DisciplineState
  leap : UInt8
  rootDispShort : ℕ
  rootDispMs : ℚ
  refTs : ℕ
  currentTs : ℕ
  precision : ℤ
deriving DecidableEq

/-- `ntp_precision_from_uncertainty_us`: the exponent of the uncertainty in seconds, in
`[-20, -4]`. -/
def ntpPrecisionFromUncertaintyUs (uncertaintyUs : ℚ) : ℤ :=
  let secs := max uncertaintyUs 1 / 1000000
  max (-20) (min (-4) (Int.log 2 secs))

namespace NtpServer

variable (s : NtpServer)

/-- The age of the last accepted pulse; the greatest age before there is one. -/
def ppsAgeUs (nowUs : ℤ) : ℤ := s.lastPpsMonotonicUs.elim i64Max fun t => satSub nowUs t

/-- GPS fix, fresh PPS and an anchor. -/
def fullySynced (gpsFix : Bool) (nowUs : ℤ) : Bool :=
  gpsFix && decide (s.ppsAgeUs nowUs < holdoverEntryUs) && s.clockAnchor.isSome

/-- The measured jitter, over its hardware floor. -/
def hwAccuracyUs : ℤ :=
  if s.ppsHasSample then max (satI64 (roundHalfAway s.ppsJitterUs)) minHwAccuracyUs
  else minHwAccuracyUs

/-- Root dispersion while fully synced: the hardware accuracy plus drift since the pulse. -/
def syncedDispUs (nowUs : ℤ) : ℤ :=
  let ageUs := min (s.ppsAgeUs nowUs) microsPerSec
  let phiComponent := (wrapI64 (phiUsPerS * ageUs)).tdiv microsPerSec
  wrapI64 (s.hwAccuracyUs + phiComponent)

/-- Root dispersion in holdover: the base, growing from `HOLDOVER_ENTRY_US` on. -/
def holdoverDispUs (nowUs : ℤ) : ℤ :=
  let holdoverUs := max (satSub (s.ppsAgeUs nowUs) holdoverEntryUs) 0
  let holdoverSecs := holdoverUs / microsPerSec
  let growth := satMul holdoverSecs holdoverDispRateUsPerSec
  min (wrapI64 (baseDispUs + growth)) maxDispUs

/-- The root dispersion in microseconds. -/
def dispUs (gpsFix : Bool) (nowUs : ℤ) : ℤ :=
  if s.fullySynced gpsFix nowUs then s.syncedDispUs nowUs
  else if s.clockAnchor.isSome then s.holdoverDispUs nowUs
  else maxDispUs

/-- The worst-case error the precision field covers while fully synced. -/
def syncedUncertaintyUs : ℚ :=
  let uncertaintyUs : ℚ :=
    if s.ppsHasSample then max s.ppsJitterUs minHwAccuracyUs else minHwAccuracyUs
  let uncertaintyUs := max uncertaintyUs loopPollUncertaintyUs
  if s.procDelayHasSample then max uncertaintyUs s.procDelayUs else uncertaintyUs

/-- `NtpServer::discipline_params`; the current timestamp reads the clock once more. -/
def disciplineParams (gpsFix : Bool) (nowUs : ℤ) (tsReading : ClockReading) : DisciplineParams :=
  let hasAnchor := s.clockAnchor.isSome
  let fullySynced := s.fullySynced gpsFix nowUs
  let dispUs := s.dispUs gpsFix nowUs
  let holdoverOk := s.ppsLocked && hasAnchor && decide (dispUs < holdoverUnsyncUs)
  let stratum : UInt8 := if fullySynced || holdoverOk then 1 else stratumUnsync
  { stratum := stratum
    state :=
      if fullySynced then .locked else if stratum = 1 then .holdover else .unsync
    leap := if stratum = 1 then s.pendingLeap else 3
    rootDispShort := wrapU32 (wrapU64 dispUs * 65536 % 18446744073709551616 / 1000000)
    rootDispMs := dispUs / 1000
    refTs := s.lastSyncNtpTs
    currentTs := s.currentNtpTimestamp tsReading
    precision :=
      if fullySynced then ntpPrecisionFromUncertaintyUs s.syncedUncertaintyUs
      else if hasAnchor then ntpPrecisionFromUncertaintyUs dispUs
      else ntpPrecisionFromUncertaintyUs maxDispUs }

/-- `ServoStats`. -/
structure ServoStats where
  ppsOffsetUs : ℤ
  ppsJitterUs : ℚ
  procDelayUs : ℚ
  freqPpm : ℚ
deriving DecidableEq

/-- `NtpServer::servo_stats`. -/
def servoStats : ServoStats := ⟨s.ppsOffsetUs, s.ppsJitterUs, s.procDelayUs, s.freqPpm⟩

/-! ## Stratum -/

variable {s}

/-- The dispersion ramp at an age the machine can represent. -/
theorem holdoverDispUs_eq {nowUs age : ℤ} (hage : s.ppsAgeUs nowUs = age) (hi : IsI64 age) :
    s.holdoverDispUs nowUs = min (1000 + max (age - 10000000) 0 / 1000000 * 500) 2000000 := by
  simp only [IsI64, i64Min, i64Max] at hi
  have hsub : max (satSub age holdoverEntryUs) 0 = max (age - 10000000) 0 := by
    simp only [satSub, satI64, i64Min, i64Max, holdoverEntryUs]
    omega
  have hsecs : 0 ≤ max (age - 10000000) 0 / 1000000 ∧
      max (age - 10000000) 0 / 1000000 ≤ 9223372036854 := by omega
  have hmul : satMul (max (age - 10000000) 0 / 1000000) holdoverDispRateUsPerSec =
      max (age - 10000000) 0 / 1000000 * 500 := by
    refine satI64_of_isI64 ?_
    simp only [IsI64, i64Min, i64Max, holdoverDispRateUsPerSec]
    omega
  simp only [holdoverDispUs, hage, hsub, microsPerSec, hmul, baseDispUs, maxDispUs]
  rw [wrapI64_of_isI64]
  simp only [IsI64, i64Min, i64Max]
  omega

/-- **Holdover runs out 2008 s after the last pulse.** -/
theorem holdoverDispUs_lt_iff {nowUs t : ℤ} (ht : s.lastPpsMonotonicUs = some t) :
    s.holdoverDispUs nowUs < holdoverUnsyncUs ↔ nowUs - t < 2008000000 := by
  have hage : s.ppsAgeUs nowUs = satSub nowUs t := by rw [ppsAgeUs, ht, Option.elim_some]
  have hsat : satSub nowUs t < 2008000000 ↔ nowUs - t < 2008000000 :=
    satSub_lt_iff (by decide) (by decide)
  rw [holdoverDispUs_eq hage (isI64_satI64 _), ← hsat]
  simp only [holdoverUnsyncUs]
  omega

theorem ppsAgeUs_lt_iff {nowUs t : ℤ} (ht : s.lastPpsMonotonicUs = some t) :
    s.ppsAgeUs nowUs < holdoverEntryUs ↔ nowUs - t < 10000000 := by
  rw [ppsAgeUs, ht, Option.elim_some]
  exact satSub_lt_iff (by decide) (by decide)

/-- Full synchronisation, on a locked server. -/
theorem fullySynced_iff (hwf : s.WellFormed) {gpsFix : Bool} {nowUs t : ℤ}
    (ht : s.lastPpsMonotonicUs = some t) :
    s.fullySynced gpsFix nowUs = true ↔ gpsFix = true ∧ nowUs - t < 10000000 := by
  have hanchor : s.clockAnchor.isSome = true :=
    hwf.anchor_of_locked (hwf.locked_iff.mpr (by rw [ht]; rfl))
  rw [fullySynced, hanchor, Bool.and_true, Bool.and_eq_true, decide_eq_true_iff,
    ppsAgeUs_lt_iff ht]

/-- Before the first pulse nothing is synchronised. -/
theorem fullySynced_of_none {gpsFix : Bool} {nowUs : ℤ} (ht : s.lastPpsMonotonicUs = none) :
    s.fullySynced gpsFix nowUs = false := by
  rw [fullySynced, ppsAgeUs, ht, Option.elim_none]
  simp [show ¬i64Max < holdoverEntryUs by decide]

/-- The stratum is 1 or 16. -/
theorem stratum_eq (gpsFix : Bool) (nowUs : ℤ) (tsReading : ClockReading) :
    (s.disciplineParams gpsFix nowUs tsReading).stratum = 1 ∨
      (s.disciplineParams gpsFix nowUs tsReading).stratum = 16 := by
  simp only [disciplineParams]
  split
  · exact Or.inl rfl
  · exact Or.inr rfl

/-- **Stratum 1 is a live lock**: a last pulse less than 2008 s old, with a fix or without. -/
theorem stratum_eq_one_iff (hwf : s.WellFormed) (gpsFix : Bool) (nowUs : ℤ)
    (tsReading : ClockReading) :
    (s.disciplineParams gpsFix nowUs tsReading).stratum = 1 ↔
      ∃ t, s.lastPpsMonotonicUs = some t ∧ nowUs - t < 2008000000 := by
  have hstratum : (s.disciplineParams gpsFix nowUs tsReading).stratum = 1 ↔
      s.fullySynced gpsFix nowUs = true ∨ (s.ppsLocked = true ∧ s.clockAnchor.isSome = true ∧
        s.dispUs gpsFix nowUs < holdoverUnsyncUs) := by
    simp only [disciplineParams, ite_eq_left_iff, show stratumUnsync ≠ 1 by decide, imp_false,
      not_not, Bool.or_eq_true, Bool.and_eq_true, decide_eq_true_iff, and_assoc]
  rw [hstratum]
  cases ht : s.lastPpsMonotonicUs with
  | none =>
    have hl : ¬s.ppsLocked = true := fun hl => by simpa [ht] using hwf.locked_iff.mp hl
    simp [fullySynced_of_none ht, hl]
  | some t =>
    have hl : s.ppsLocked = true := hwf.locked_iff.mpr (by rw [ht]; rfl)
    have hanchor := hwf.anchor_of_locked hl
    cases hsync : s.fullySynced gpsFix nowUs with
    | true =>
      have := ((fullySynced_iff hwf ht).mp hsync).2
      simp only [true_or, Option.some.injEq, exists_eq_left', true_iff]
      omega
    | false =>
      rw [dispUs, hsync, if_neg (by decide), if_pos hanchor]
      simp [hl, hanchor, holdoverDispUs_lt_iff ht]

/-- The advertised state: locked when fully synced, holdover at any other stratum 1. -/
theorem disciplineParams_state (gpsFix : Bool) (nowUs : ℤ) (tsReading : ClockReading) :
    (s.disciplineParams gpsFix nowUs tsReading).state =
      if s.fullySynced gpsFix nowUs = true then .locked
      else if (s.disciplineParams gpsFix nowUs tsReading).stratum = 1 then .holdover
      else .unsync := rfl

end NtpServer

end GpsNtp
