import GpsNtp.Ntp.Server
import Mathlib.Tactic.FieldSimp
import Mathlib.Tactic.Positivity

/-!
# Ntp/Pulse — the PPS servo

    edge ──range──▸ ──lock?──▸ ──outlier──▸ frequency ▸ second ▸ phase nudge ▸ jitter

`NtpServer::observe_pps_pulse`.  A pulse has one of four **outcomes** (`PulseOutcome`): it is
skipped, counted as an outlier, aligns the anchor to GPS, or disciplines an anchor already locked.
`observePpsPulse` follows the source branch by branch; `observePpsPulse_eq` factors it through its
outcome, and every later argument cases on that.
-/

namespace GpsNtp

open MachineInt

/-! ## Servo constants -/

/-- `SERVO_KP`: the fraction of the phase error nudged into the anchor. -/
def servoKp : ℚ := 1 / 10

/-- `SERVO_KI`: the weight of one sample in the frequency estimate. -/
def servoKi : ℚ := 1 / 100

/-- `SERVO_MAX_FREQ_PPM`. -/
def servoMaxFreqPpm : ℚ := 500

/-- `PPS_OUTLIER_THRESHOLD_US`. -/
def ppsOutlierThresholdUs : ℕ := 50000

/-! ## One pulse -/

/-- The frequency estimate blended with one interval error, clamped. -/
def blendFreqPpm (freqPpm : ℚ) (phaseErrorUs : ℤ) : ℚ :=
  max (-servoMaxFreqPpm) (min servoMaxFreqPpm (freqPpm + (phaseErrorUs - freqPpm) * servoKi))

/-- An estimate blended with one sample, four parts to one; the first sample stands for itself. -/
def smoothUs (hasSample : Bool) (estimateUs sampleUs : ℚ) : ℚ :=
  if hasSample then estimateUs * (4 / 5) + sampleUs * (1 / 5) else sampleUs

/-- What integer-second accounting decides: the second of the edge, and the confirmation record. -/
structure SecondAccount where
  unixSeconds : ℤ
  pendingGpsStep : Option ℤ
  anchorStepCount : ℕ
deriving DecidableEq

/-- Integer-second accounting: GPS overrules the predicted second when the previous accepted pulse
recorded the same difference. -/
def accountSecond (pendingGpsStep : Option ℤ) (anchorStepCount : ℕ) (predicted : ℤ) :
    Option ℤ → SecondAccount
  | some gps =>
    if gps ≠ predicted then
      let delta := wrapSub gps predicted
      if pendingGpsStep = some delta then ⟨gps, none, satSuccU32 anchorStepCount⟩
      else ⟨predicted, some delta, anchorStepCount⟩
    else ⟨predicted, none, anchorStepCount⟩
  | none => ⟨predicted, none, anchorStepCount⟩

namespace NtpServer

variable (s : NtpServer)

/-- The second predicted for `edgeUs` from the time elapsed since the anchor, to the nearest. -/
def predictedSecond (anchor : ClockAnchor) (edgeUs : ℤ) : ℤ :=
  let rawElapsedUs := satSub edgeUs anchor.monotonicUs
  let elapsedSecs := wrapI64 (s.correctedElapsedUs rawElapsedUs + microsPerSec / 2) / microsPerSec
  satAdd anchor.unixSeconds elapsedSecs

/-- The servo on an accepted pulse: frequency, second, anchor nudge, diagnostics. -/
def discipline (anchor : ClockAnchor) (phaseErrorUs edgeUs : ℤ) : NtpServer :=
  let s := { s with freqPpm := blendFreqPpm s.freqPpm phaseErrorUs }
  let predicted := s.predictedSecond anchor edgeUs
  let account :=
    accountSecond s.pendingGpsStep s.anchorStepCount predicted (s.gpsSecondAtEdge edgeUs)
  let phaseCorrectionUs := castI64 (phaseErrorUs * servoKp)
  { s with
    pendingGpsStep := account.pendingGpsStep
    anchorStepCount := account.anchorStepCount
    clockAnchor := some ⟨account.unixSeconds, satSub edgeUs phaseCorrectionUs⟩
    ppsOffsetUs := phaseErrorUs
    ppsJitterUs := smoothUs s.ppsHasSample s.ppsJitterUs phaseErrorUs.natAbs
    ppsHasSample := true
    lastPpsMonotonicUs := some edgeUs
    lastSyncNtpTs := ntpTimestampFromUnix account.unixSeconds 0 }

/-- The second predicted on an accepted pulse, under the frequency estimate it blends in. -/
def predictedAt (anchor : ClockAnchor) (phaseErrorUs edgeUs : ℤ) : ℤ :=
  ({ s with freqPpm := blendFreqPpm s.freqPpm phaseErrorUs } : NtpServer).predictedSecond anchor
    edgeUs

/-- The integer-second accounting of an accepted pulse. -/
def accountAt (anchor : ClockAnchor) (phaseErrorUs edgeUs : ℤ) : SecondAccount :=
  accountSecond s.pendingGpsStep s.anchorStepCount (s.predictedAt anchor phaseErrorUs edgeUs)
    (s.gpsSecondAtEdge edgeUs)

/-- `NtpServer::observe_pps_pulse`: the interval is `none` on the first observed pulse. -/
def observePpsPulse (ppsIntervalUs : Option ℕ) (edgeUs : ℤ) : NtpServer :=
  match ppsIntervalUs with
  | none =>
    match s.gpsSecondAtEdge edgeUs with
    | none => s
    | some unixSeconds => s.lockAnchor unixSeconds edgeUs
  | some interval =>
    if ¬(800000 ≤ interval ∧ interval ≤ 1200000) then s
    else
      match s.clockAnchor.filter fun _ => s.ppsLocked with
      | none =>
        match s.gpsSecondAtEdge edgeUs with
        | none => s
        | some unixSeconds => s.lockAnchor unixSeconds edgeUs
      | some anchor =>
        let phaseErrorUs : ℤ := interval - 1000000
        if s.ppsHasSample = true ∧ ppsOutlierThresholdUs < phaseErrorUs.natAbs then
          { s with ppsGlitchCount := satSuccU32 s.ppsGlitchCount }
        else s.discipline anchor phaseErrorUs edgeUs

/-! ## Outcomes -/

/-- What becomes of a pulse. -/
inductive PulseOutcome where
  | skipped
  | outlier
  | aligned (unixSeconds : ℤ)
  | disciplined (anchor : ClockAnchor) (phaseErrorUs : ℤ)
deriving DecidableEq

/-- The pulses that move the anchor. -/
def PulseOutcome.accepted : PulseOutcome → Bool
  | .skipped | .outlier => false
  | .aligned _ | .disciplined _ _ => true

/-- The alignment outcome: GPS speaks for the edge or the pulse is skipped. -/
def alignOutcome (edgeUs : ℤ) : PulseOutcome :=
  (s.gpsSecondAtEdge edgeUs).elim .skipped .aligned

/-- The outcome of a pulse, read off the guards alone. -/
def pulseOutcome (ppsIntervalUs : Option ℕ) (edgeUs : ℤ) : PulseOutcome :=
  match ppsIntervalUs with
  | none => s.alignOutcome edgeUs
  | some interval =>
    if ¬(800000 ≤ interval ∧ interval ≤ 1200000) then .skipped
    else
      match s.clockAnchor.filter fun _ => s.ppsLocked with
      | none => s.alignOutcome edgeUs
      | some anchor =>
        if s.ppsHasSample = true ∧ ppsOutlierThresholdUs < ((interval : ℤ) - 1000000).natAbs then
          .outlier
        else .disciplined anchor ((interval : ℤ) - 1000000)

/-- What an outcome does to the state. -/
def applyOutcome (edgeUs : ℤ) : PulseOutcome → NtpServer
  | .skipped => s
  | .outlier => { s with ppsGlitchCount := satSuccU32 s.ppsGlitchCount }
  | .aligned unixSeconds => s.lockAnchor unixSeconds edgeUs
  | .disciplined anchor phaseErrorUs => s.discipline anchor phaseErrorUs edgeUs

/-- A pulse is accepted when it aligns or disciplines the anchor. -/
def acceptsPulse (ppsIntervalUs : Option ℕ) (edgeUs : ℤ) : Bool :=
  (s.pulseOutcome ppsIntervalUs edgeUs).accepted

variable {s}

theorem applyOutcome_alignOutcome (edgeUs : ℤ) :
    s.applyOutcome edgeUs (s.alignOutcome edgeUs) =
      match s.gpsSecondAtEdge edgeUs with
      | none => s
      | some unixSeconds => s.lockAnchor unixSeconds edgeUs := by
  unfold alignOutcome
  cases s.gpsSecondAtEdge edgeUs <;> rfl

/-- **A pulse does what its outcome says.** -/
theorem observePpsPulse_eq (ppsIntervalUs : Option ℕ) (edgeUs : ℤ) :
    s.observePpsPulse ppsIntervalUs edgeUs =
      s.applyOutcome edgeUs (s.pulseOutcome ppsIntervalUs edgeUs) := by
  unfold observePpsPulse pulseOutcome
  rcases ppsIntervalUs with _ | interval
  · exact (applyOutcome_alignOutcome edgeUs).symm
  · dsimp only
    by_cases hrange : 800000 ≤ interval ∧ interval ≤ 1200000
    · rw [if_neg (not_not.mpr hrange), if_neg (not_not.mpr hrange)]
      rcases s.clockAnchor.filter fun _ => s.ppsLocked with _ | anchor
      · exact (applyOutcome_alignOutcome edgeUs).symm
      · dsimp only
        split <;> rfl
    · rw [if_pos hrange, if_pos hrange]
      rfl

theorem alignOutcome_ne_disciplined {edgeUs : ℤ} {anchor : ClockAnchor} {phaseErrorUs : ℤ} :
    s.alignOutcome edgeUs ≠ .disciplined anchor phaseErrorUs := by
  unfold alignOutcome
  cases s.gpsSecondAtEdge edgeUs <;> exact nofun

theorem alignOutcome_eq_aligned {edgeUs unixSeconds : ℤ}
    (h : s.alignOutcome edgeUs = .aligned unixSeconds) :
    s.gpsSecondAtEdge edgeUs = some unixSeconds := by
  unfold alignOutcome at h
  cases hg : s.gpsSecondAtEdge edgeUs with
  | none => rw [hg] at h; exact absurd h nofun
  | some g => rw [hg] at h; exact congrArg some (PulseOutcome.aligned.inj h)

/-- **A pulse aligns only when GPS speaks for its edge.** -/
theorem gpsSecondAtEdge_of_aligned {ppsIntervalUs : Option ℕ} {edgeUs unixSeconds : ℤ}
    (h : s.pulseOutcome ppsIntervalUs edgeUs = .aligned unixSeconds) :
    s.gpsSecondAtEdge edgeUs = some unixSeconds := by
  unfold pulseOutcome at h
  rcases ppsIntervalUs with _ | interval
  · exact alignOutcome_eq_aligned h
  · dsimp only at h
    split at h
    · exact absurd h nofun
    · split at h
      · exact alignOutcome_eq_aligned h
      · split at h <;> exact absurd h nofun

/-- **A pulse disciplines** a locked anchor, from an interval in range that is no outlier. -/
theorem pulseOutcome_eq_disciplined {ppsIntervalUs : Option ℕ} {edgeUs phaseErrorUs : ℤ}
    {anchor : ClockAnchor}
    (h : s.pulseOutcome ppsIntervalUs edgeUs = .disciplined anchor phaseErrorUs) :
    ∃ interval : ℕ, ppsIntervalUs = some interval ∧ 800000 ≤ interval ∧ interval ≤ 1200000 ∧
      phaseErrorUs = interval - 1000000 ∧ s.clockAnchor = some anchor ∧ s.ppsLocked = true ∧
      (s.ppsHasSample = true → phaseErrorUs.natAbs ≤ ppsOutlierThresholdUs) := by
  unfold pulseOutcome at h
  rcases ppsIntervalUs with _ | interval
  · exact absurd h alignOutcome_ne_disciplined
  · dsimp only at h
    split at h
    · exact absurd h nofun
    next hrange =>
    split at h
    · exact absurd h alignOutcome_ne_disciplined
    next hanchor =>
    split at h
    · exact absurd h nofun
    next hout =>
    obtain ⟨rfl, rfl⟩ := PulseOutcome.disciplined.inj h
    obtain ⟨hanchor, hlocked⟩ := Option.filter_eq_some_iff.mp hanchor
    obtain ⟨hlo, hhi⟩ := not_not.mp hrange
    exact ⟨interval, rfl, hlo, hhi, rfl, hanchor, hlocked,
      fun hsample => not_lt.mp fun hlt => hout ⟨hsample, hlt⟩⟩

/-- Refused pulses touch the glitch count at most. -/
theorem observePpsPulse_of_not_accepts {ppsIntervalUs : Option ℕ} {edgeUs : ℤ}
    (h : s.acceptsPulse ppsIntervalUs edgeUs = false) :
    ∃ n, s.observePpsPulse ppsIntervalUs edgeUs = { s with ppsGlitchCount := n } := by
  rw [observePpsPulse_eq]
  unfold acceptsPulse at h
  cases hout : s.pulseOutcome ppsIntervalUs edgeUs with
  | skipped => exact ⟨s.ppsGlitchCount, rfl⟩
  | outlier => exact ⟨_, rfl⟩
  | aligned u => rw [hout] at h; exact absurd h nofun
  | disciplined a p => rw [hout] at h; exact absurd h nofun

/-- **The outcomes of an accepted pulse.** -/
theorem accepts_cases {ppsIntervalUs : Option ℕ} {edgeUs : ℤ}
    (h : s.acceptsPulse ppsIntervalUs edgeUs = true) :
    (∃ u, s.pulseOutcome ppsIntervalUs edgeUs = .aligned u) ∨
      ∃ anchor phaseErrorUs,
        s.pulseOutcome ppsIntervalUs edgeUs = .disciplined anchor phaseErrorUs := by
  unfold acceptsPulse at h
  cases hout : s.pulseOutcome ppsIntervalUs edgeUs with
  | skipped => rw [hout] at h; exact absurd h (by decide)
  | outlier => rw [hout] at h; exact absurd h (by decide)
  | aligned u => exact Or.inl ⟨u, rfl⟩
  | disciplined a p => exact Or.inr ⟨a, p, rfl⟩

/-- **An accepted interval disciplines** the anchor of a locked server. -/
theorem disciplined_of_accepts {interval : ℕ} {edgeUs : ℤ} {anchor : ClockAnchor}
    (hl : s.ppsLocked = true) (hanchor : s.clockAnchor = some anchor)
    (h : s.acceptsPulse (some interval) edgeUs = true) :
    s.pulseOutcome (some interval) edgeUs = .disciplined anchor (interval - 1000000) := by
  have hfilter : (s.clockAnchor.filter fun _ => s.ppsLocked) = some anchor := by
    rw [hanchor, hl]
    rfl
  simp only [acceptsPulse, pulseOutcome, hfilter] at h ⊢
  split_ifs at h ⊢
  · exact absurd h nofun
  · rfl
  · exact absurd h nofun

/-! ## What the servo writes -/

section Discipline

variable (anchor : ClockAnchor) (phaseErrorUs edgeUs : ℤ)

theorem discipline_clockAnchor :
    (s.discipline anchor phaseErrorUs edgeUs).clockAnchor =
      some ⟨(s.accountAt anchor phaseErrorUs edgeUs).unixSeconds,
        satSub edgeUs (castI64 (phaseErrorUs * servoKp))⟩ := (rfl)

theorem discipline_pendingGpsStep :
    (s.discipline anchor phaseErrorUs edgeUs).pendingGpsStep =
      (s.accountAt anchor phaseErrorUs edgeUs).pendingGpsStep := (rfl)

theorem discipline_anchorStepCount :
    (s.discipline anchor phaseErrorUs edgeUs).anchorStepCount =
      (s.accountAt anchor phaseErrorUs edgeUs).anchorStepCount := (rfl)

theorem discipline_lastPpsMonotonicUs :
    (s.discipline anchor phaseErrorUs edgeUs).lastPpsMonotonicUs = some edgeUs := (rfl)

end Discipline

/-! ## Bounds -/

/-- **The frequency estimate stays clamped.** -/
theorem abs_blendFreqPpm_le (freqPpm : ℚ) (phaseErrorUs : ℤ) :
    |blendFreqPpm freqPpm phaseErrorUs| ≤ servoMaxFreqPpm := by
  rw [abs_le, blendFreqPpm]
  exact ⟨le_max_left _ _, max_le (by norm_num [servoMaxFreqPpm]) (min_le_left _ _)⟩

theorem smoothUs_nonneg {hasSample : Bool} {estimateUs sampleUs : ℚ} (he : 0 ≤ estimateUs)
    (hs : 0 ≤ sampleUs) : 0 ≤ smoothUs hasSample estimateUs sampleUs := by
  unfold smoothUs
  split <;> positivity

theorem smoothUs_le {hasSample : Bool} {estimateUs sampleUs b : ℚ} (he : estimateUs ≤ b)
    (hs : sampleUs ≤ b) : smoothUs hasSample estimateUs sampleUs ≤ b := by
  unfold smoothUs
  split <;> linarith

/-! ## Integer-second accounting, by cases -/

section Account

variable (pendingGpsStep : Option ℤ) (anchorStepCount : ℕ) (predicted : ℤ)

/-- Without a word from GPS the prediction stands. -/
@[simp] theorem accountSecond_none :
    accountSecond pendingGpsStep anchorStepCount predicted none =
      ⟨predicted, none, anchorStepCount⟩ := rfl

/-- When GPS agrees the prediction stands. -/
@[simp] theorem accountSecond_self :
    accountSecond pendingGpsStep anchorStepCount predicted (some predicted) =
      ⟨predicted, none, anchorStepCount⟩ := by
  rw [accountSecond, if_neg (not_not.mpr rfl)]

variable {pendingGpsStep predicted} {gps : ℤ}

/-- **A first disagreement** is recorded, and the prediction stands. -/
theorem accountSecond_pending (hne : gps ≠ predicted)
    (hpending : pendingGpsStep ≠ some (wrapSub gps predicted)) :
    accountSecond pendingGpsStep anchorStepCount predicted (some gps) =
      ⟨predicted, some (wrapSub gps predicted), anchorStepCount⟩ := by
  rw [accountSecond, if_pos hne]
  exact if_neg hpending

/-- **A disagreement met twice** is a step to the second of GPS. -/
theorem accountSecond_step (hne : gps ≠ predicted)
    (hpending : pendingGpsStep = some (wrapSub gps predicted)) :
    accountSecond pendingGpsStep anchorStepCount predicted (some gps) =
      ⟨gps, none, satSuccU32 anchorStepCount⟩ := by
  rw [accountSecond, if_pos hne]
  exact if_pos hpending

end Account

end NtpServer

end GpsNtp
