import GpsNtp.Ntp.Dispersion

/-!
# Ntp/ServoRange — the servo stays in range, the dispersion in its words

    first interval     |offset| ≤ 200 ms     any in-range interval is the first sample
    second, third, …   |offset| ≤ 50 ms      the outlier guard is armed

`ServoRange` adds to the invariant of `Ntp/WellFormed` what depends on the edge times: how far the
anchor is nudged from the last edge, and that edge's range.  From it every intermediate result of
the dispersion arithmetic is representable (`dispersionRepresentable`).  The outlier guard asks for
a sample, so the tighter bound on the offset counts the intervals the servo has taken
(`takesInterval`); one that only aligns the anchor is accepted but leaves no sample.
-/

namespace GpsNtp

open MachineInt Machine

/-- A pulse has its edge in `[0, 2⁶²)`. -/
def Event.edgeInRange : Event → Prop
  | .observePpsPulse _ edgeUs => 0 ≤ edgeUs ∧ edgeUs < 4611686018427387904
  | _ => True

namespace NtpServer

variable {s : NtpServer}

/-! ## The invariant -/

/-- The range of the servo state. -/
structure ServoRange (s : NtpServer) : Prop where
  wellFormed : s.WellFormed
  offset : |s.ppsOffsetUs| ≤ 200000
  lag : ∀ anchor t, s.ppsLocked = true → s.clockAnchor = some anchor →
    s.lastPpsMonotonicUs = some t → |anchor.monotonicUs - t| ≤ 20000
  last : ∀ t, s.lastPpsMonotonicUs = some t → 0 ≤ t ∧ t < 4611686018427387904

theorem servoRange_fromSocket : fromSocket.ServoRange where
  wellFormed := wellFormed_fromSocket
  offset := by decide
  lag := fun _ _ hl => absurd hl (by decide)
  last := nofun

/-- The anchor nudge is a tenth of the phase error at most. -/
theorem abs_phaseCorrection_le {phaseErrorUs : ℤ} (h : phaseErrorUs.natAbs ≤ 200000) :
    |castI64 (phaseErrorUs * servoKp)| ≤ 20000 := by
  have hl : (-200000 : ℤ) ≤ phaseErrorUs := by omega
  have hu : phaseErrorUs ≤ 200000 := by omega
  have hl : (-200000 : ℚ) ≤ phaseErrorUs := by exact_mod_cast hl
  have hu : (phaseErrorUs : ℚ) ≤ 200000 := by exact_mod_cast hu
  obtain ⟨h₁, h₂⟩ := @castI64_mem (phaseErrorUs * servoKp) (-20000) 20000 (by decide) (by decide)
    (by rw [servoKp]; push_cast; linarith) (by rw [servoKp]; push_cast; linarith)
  exact abs_le.mpr ⟨h₁, h₂⟩

theorem ServoRange.lockAnchor (h : s.ServoRange) {unixSeconds edgeUs : ℤ}
    (hg : s.gpsSecondAtEdge edgeUs = some unixSeconds)
    (hedge : 0 ≤ edgeUs ∧ edgeUs < 4611686018427387904) :
    (s.lockAnchor unixSeconds edgeUs).ServoRange where
  wellFormed := h.wellFormed.lockAnchor hg
  offset := h.offset
  lag := fun anchor t _ ha ht => by
    rw [← Option.some.inj ha, ← Option.some.inj ht, sub_self, abs_zero]
    decide
  last := fun t ht => by rwa [← Option.some.inj ht]

theorem ServoRange.discipline (h : s.ServoRange) {anchor : ClockAnchor}
    (hl : s.ppsLocked = true) {phaseErrorUs edgeUs : ℤ} (hphase : phaseErrorUs.natAbs ≤ 200000)
    (hedge : 0 ≤ edgeUs ∧ edgeUs < 4611686018427387904) :
    (s.discipline anchor phaseErrorUs edgeUs).ServoRange where
  wellFormed := h.wellFormed.discipline hl hphase edgeUs
  offset := by
    change |phaseErrorUs| ≤ 200000
    rw [abs_le]
    omega
  lag := fun anchor' t _ ha ht => by
    have hcorrection := abs_le.mp (abs_phaseCorrection_le hphase)
    have hexact : satSub edgeUs (castI64 (phaseErrorUs * servoKp)) =
        edgeUs - castI64 (phaseErrorUs * servoKp) := by
      refine satSub_of_isI64 ?_
      simp only [IsI64, i64Min, i64Max]
      omega
    rw [discipline_clockAnchor] at ha
    rw [← Option.some.inj ha, ← Option.some.inj ht]
    change |satSub edgeUs (castI64 (phaseErrorUs * servoKp)) - edgeUs| ≤ 20000
    rw [hexact, abs_le]
    omega
  last := fun t ht => by rwa [← Option.some.inj ht]

theorem ServoRange.observePpsPulse (h : s.ServoRange) (ppsIntervalUs : Option ℕ) {edgeUs : ℤ}
    (hedge : 0 ≤ edgeUs ∧ edgeUs < 4611686018427387904) :
    (s.observePpsPulse ppsIntervalUs edgeUs).ServoRange := by
  have hwf := h.wellFormed.observePpsPulse ppsIntervalUs edgeUs
  rw [observePpsPulse_eq] at hwf ⊢
  cases hout : s.pulseOutcome ppsIntervalUs edgeUs with
  | skipped => exact h
  | outlier =>
    rw [hout] at hwf
    exact { h with wellFormed := hwf }
  | aligned unixSeconds => exact h.lockAnchor (gpsSecondAtEdge_of_aligned hout) hedge
  | disciplined anchor phaseErrorUs =>
    obtain ⟨_, -, hlo, hhi, rfl, -, hl, -⟩ := pulseOutcome_eq_disciplined hout
    exact h.discipline hl (by omega) hedge

/-- **Every call keeps the range**: outside a pulse nothing of it is written but an unlocked
anchor. -/
theorem ServoRange.step (h : s.ServoRange) {e : Event} (he : e.edgeInRange) :
    (s.step e).ServoRange := by
  cases hpulse : s.accepts e with
  | true =>
    obtain ⟨interval, edgeUs, rfl⟩ := exists_pulse_of_accepts hpulse
    exact h.observePpsPulse interval he
  | false =>
    have hsame := sameDiscipline_upto_anchor hpulse
    have hoffset : (s.step e).ppsOffsetUs = s.ppsOffsetUs := (congrArg ppsOffsetUs hsame).trans rfl
    have hlast : (s.step e).lastPpsMonotonicUs = s.lastPpsMonotonicUs :=
      (congrArg lastPpsMonotonicUs hsame).trans rfl
    have hlocked : (s.step e).ppsLocked = s.ppsLocked :=
      (congrArg NtpServer.ppsLocked hsame).trans rfl
    refine ⟨h.wellFormed.step e, by rw [hoffset]; exact h.offset, ?_, by rw [hlast]; exact h.last⟩
    intro anchor t hl ha ht
    rw [hlocked] at hl
    rw [clockAnchor_of_locked hl hpulse] at ha
    rw [hlast] at ht
    exact h.lag anchor t hl ha ht

theorem servoRange_run {evs : List Event} (hevs : ∀ e ∈ evs, e.edgeInRange) :
    (run step fromSocket evs).ServoRange :=
  @run_throughout _ _ NtpServer.step (fun _ e => e.edgeInRange) ServoRange
    (fun _ _ he h => h.step he) _ servoRange_fromSocket _ (throughout_of_forall hevs fromSocket)

/-! ## The intervals the servo takes -/

/-- The event is an interval accepted while locked: the servo takes it as a sample. -/
def takesInterval (s : NtpServer) : Event → Bool
  | .observePpsPulse (some interval) edgeUs =>
    s.ppsLocked && s.acceptsPulse (some interval) edgeUs
  | _ => false

/-- The event is a pulse with an interval, and is accepted. -/
def acceptsInterval (s : NtpServer) : Event → Bool
  | .observePpsPulse (some interval) edgeUs => s.acceptsPulse (some interval) edgeUs
  | _ => false

/-- **An interval taken disciplines** the anchor. -/
theorem exists_discipline_of_takesInterval (hwf : s.WellFormed) {e : Event}
    (he : s.takesInterval e = true) :
    ∃ interval edgeUs anchor, e = .observePpsPulse (some interval) edgeUs ∧
      s.pulseOutcome (some interval) edgeUs = .disciplined anchor (interval - 1000000) ∧
      s.step e = s.discipline anchor (interval - 1000000) edgeUs := by
  obtain ⟨interval, edgeUs, rfl⟩ :
      ∃ interval edgeUs, e = .observePpsPulse (some interval) edgeUs := by
    rcases e with _ | _ | ⟨_ | interval, edgeUs⟩ | _ | _ | _
    case observePpsPulse.some => exact ⟨interval, edgeUs, rfl⟩
    all_goals exact absurd he Bool.false_ne_true
  obtain ⟨hl, haccepts⟩ := Bool.and_eq_true_iff.mp he
  obtain ⟨anchor, hanchor⟩ := Option.isSome_iff_exists.mp (hwf.anchor_of_locked hl)
  have hout := disciplined_of_accepts hl hanchor haccepts
  refine ⟨interval, edgeUs, anchor, rfl, hout, ?_⟩
  change s.observePpsPulse (some interval) edgeUs = _
  rw [observePpsPulse_eq, hout]
  rfl

/-- **An interval taken** becomes the offset, and the first sample or one the outlier guard let
pass. -/
theorem step_of_takesInterval (hwf : s.WellFormed) {e : Event} (he : s.takesInterval e = true) :
    (s.step e).ppsHasSample = true ∧
      (s.ppsHasSample = true → |(s.step e).ppsOffsetUs| ≤ 50000) := by
  obtain ⟨interval, edgeUs, anchor, -, hout, hstep⟩ := exists_discipline_of_takesInterval hwf he
  obtain ⟨-, -, -, -, -, -, -, hguard⟩ := pulseOutcome_eq_disciplined hout
  rw [hstep]
  refine ⟨rfl, fun hsample => ?_⟩
  have hle := hguard hsample
  change |(interval : ℤ) - 1000000| ≤ 50000
  rw [abs_le]
  simp only [ppsOutlierThresholdUs] at hle
  omega

/-- Any other event leaves sample, offset and frequency estimate alone. -/
theorem step_of_not_takesInterval {e : Event} (he : s.takesInterval e = false) :
    (s.step e).ppsHasSample = s.ppsHasSample ∧ (s.step e).ppsOffsetUs = s.ppsOffsetUs ∧
      (s.step e).freqPpm = s.freqPpm := by
  cases hpulse : s.accepts e with
  | false =>
    have hsame := sameDiscipline_upto_anchor hpulse
    exact ⟨(congrArg ppsHasSample hsame).trans rfl, (congrArg ppsOffsetUs hsame).trans rfl,
      (congrArg NtpServer.freqPpm hsame).trans rfl⟩
  | true =>
    obtain ⟨interval, edgeUs, rfl⟩ := exists_pulse_of_accepts hpulse
    have haccepts : s.acceptsPulse interval edgeUs = true := hpulse
    change (s.observePpsPulse interval edgeUs).ppsHasSample = _ ∧
      (s.observePpsPulse interval edgeUs).ppsOffsetUs = _ ∧
      (s.observePpsPulse interval edgeUs).freqPpm = _
    rw [observePpsPulse_eq]
    rcases accepts_cases haccepts with ⟨u, hout⟩ | ⟨anchor, phaseErrorUs, hout⟩
    · rw [hout]
      exact ⟨rfl, rfl, rfl⟩
    · obtain ⟨n, rfl, -, -, -, -, hl, -⟩ := pulseOutcome_eq_disciplined hout
      rw [takesInterval, hl, haccepts] at he
      exact absurd he nofun

/-- **The samples of a run**: the servo has one once an interval was taken, and from the second on
the offset is within the outlier threshold. -/
theorem ppsOffsetUs_run (evs : List Event) :
    (1 ≤ metCount step takesInterval fromSocket evs →
        (run step fromSocket evs).ppsHasSample = true) ∧
      (2 ≤ metCount step takesInterval fromSocket evs →
        |(run step fromSocket evs).ppsOffsetUs| ≤ 50000) := by
  induction evs using List.reverseRecOn with
  | nil => exact ⟨nofun, nofun⟩
  | append_singleton evs e ih =>
    obtain ⟨ih₁, ih₂⟩ := ih
    rw [metCount_append_singleton, run_append, run_cons, run_nil]
    cases he : takesInterval (run step fromSocket evs) e with
    | true =>
      obtain ⟨hsample, hoffset⟩ := step_of_takesInterval (wellFormed_run evs) he
      rw [Bool.toNat_true]
      exact ⟨fun _ => hsample, fun h => hoffset (ih₁ (by omega))⟩
    | false =>
      obtain ⟨hsample, hoffset, -⟩ := step_of_not_takesInterval he
      rw [hsample, hoffset]
      exact ⟨ih₁, ih₂⟩

/-! ## The dispersion arithmetic -/

/-- The seconds of holdover that widen the dispersion. -/
def holdoverSecs (s : NtpServer) (nowUs : ℤ) : ℤ :=
  max (s.ppsAgeUs nowUs - holdoverEntryUs) 0 / microsPerSec

/-- **No overflow**: the exact result of every operation of the dispersion arithmetic fits the
integer type the source computes it in. -/
structure DispersionRepresentable (s : NtpServer) (gpsFix : Bool) (nowUs : ℤ) : Prop where
  age : ∀ t, s.lastPpsMonotonicUs = some t → IsI64 (nowUs - t)
  jitter : IsI64 (roundHalfAway s.ppsJitterUs)
  phi : IsI64 (phiUsPerS * min (s.ppsAgeUs nowUs) microsPerSec)
  synced : IsI64 (s.hwAccuracyUs +
    (phiUsPerS * min (s.ppsAgeUs nowUs) microsPerSec).tdiv microsPerSec)
  holdover : IsI64 (s.ppsAgeUs nowUs - holdoverEntryUs)
  growth : IsI64 (s.holdoverSecs nowUs * holdoverDispRateUsPerSec)
  ramp : IsI64 (baseDispUs + s.holdoverSecs nowUs * holdoverDispRateUsPerSec)
  unsigned : 0 ≤ s.dispUs gpsFix nowUs
  product : s.dispUs gpsFix nowUs * 65536 ≤ u64Max
  short : s.dispUs gpsFix nowUs * 65536 / 1000000 ≤ u32Max

theorem dispersionRepresentable (h : s.ServoRange) (gpsFix : Bool) {nowUs : ℤ}
    (hclock : s.SinceLastPulse nowUs) (hnow : nowUs < 4611686018427387904) :
    s.DispersionRepresentable gpsFix nowUs := by
  have hwf := h.wellFormed
  have hage := hclock.ppsAgeUs_nonneg
  have hhw := hwAccuracyUs_mem hwf
  have hdisp := dispUs_mem hwf gpsFix hclock
  have hle : s.ppsAgeUs nowUs ≤ i64Max := (isI64_ppsAgeUs s nowUs).2
  have hjitter := roundHalfAway_nonneg hwf.jitter_nonneg
  have hjitter' : roundHalfAway s.ppsJitterUs ≤ 200000 :=
    roundHalfAway_le hwf.jitter_nonneg (by exact_mod_cast hwf.jitter_le)
  have htdiv : (15 * min (s.ppsAgeUs nowUs) 1000000).tdiv 1000000 =
      15 * min (s.ppsAgeUs nowUs) 1000000 / 1000000 := Int.tdiv_eq_ediv_of_nonneg (by omega)
  have hsecs : 0 ≤ s.holdoverSecs nowUs ∧ s.holdoverSecs nowUs ≤ 9223372036854 := by
    simp only [holdoverSecs, holdoverEntryUs, microsPerSec, i64Max] at hle ⊢
    omega
  simp only [i64Max] at hle
  exact
    { age := fun t ht => by
        have := hclock t ht
        have := h.last t ht
        simp only [IsI64, i64Min, i64Max]
        omega
      jitter := by simp only [IsI64, i64Min, i64Max]; omega
      phi := by simp only [IsI64, i64Min, i64Max, phiUsPerS, microsPerSec]; omega
      synced := by simp only [IsI64, i64Min, i64Max, phiUsPerS, microsPerSec, htdiv]; omega
      holdover := by simp only [IsI64, i64Min, i64Max, holdoverEntryUs]; omega
      growth := by simp only [IsI64, i64Min, i64Max, holdoverDispRateUsPerSec]; omega
      ramp := by simp only [IsI64, i64Min, i64Max, holdoverDispRateUsPerSec, baseDispUs]; omega
      unsigned := by omega
      product := by simp only [u64Max]; omega
      short := by simp only [u32Max]; omega }

/-! ## The guarantee -/

/-- **The servo in range.**  On every run whose edges lie in `[0, 2⁶²)`: frequency, jitter and
offset are bounded, the anchor of a lock is within 20 ms of the last edge and carries the reference
timestamp, the offset is within 50 ms from the second interval the servo takes, and at any instant
since the last accepted edge the dispersion is between 100 µs and 2 s and computed without
overflow. -/
theorem servo_in_range {evs : List Event} (hevs : ∀ e ∈ evs, e.edgeInRange) :
    let s := run step fromSocket evs
    |s.freqPpm| ≤ 500 ∧ 0 ≤ s.ppsJitterUs ∧ s.ppsJitterUs ≤ 200000 ∧ |s.ppsOffsetUs| ≤ 200000 ∧
      (s.ppsLocked = true → ∃ anchor t, s.clockAnchor = some anchor ∧
        s.lastPpsMonotonicUs = some t ∧ |anchor.monotonicUs - t| ≤ 20000 ∧
        s.lastSyncNtpTs = ntpTimestampFromUnix anchor.unixSeconds 0) ∧
      (2 ≤ metCount step takesInterval fromSocket evs → |s.ppsOffsetUs| ≤ 50000) ∧
      ∀ gpsFix nowUs reading, (∀ t, s.lastPpsMonotonicUs = some t → t ≤ nowUs) →
        nowUs < 4611686018427387904 →
        100 ≤ s.dispUs gpsFix nowUs ∧ s.dispUs gpsFix nowUs ≤ 2000000 ∧
          s.DispersionRepresentable gpsFix nowUs ∧
          ((s.disciplineParams gpsFix nowUs reading).rootDispShort : ℤ) =
            s.dispUs gpsFix nowUs * 65536 / 1000000 := by
  intro s
  have hrange : s.ServoRange := servoRange_run hevs
  have hwf := hrange.wellFormed
  refine ⟨hwf.freq, hwf.jitter_nonneg, hwf.jitter_le, hrange.offset, fun hl => ?_,
    (ppsOffsetUs_run evs).2, fun gpsFix nowUs reading hclock hnow => ?_⟩
  · obtain ⟨anchor, ha⟩ := Option.isSome_iff_exists.mp (hwf.anchor_of_locked hl)
    obtain ⟨t, ht⟩ := Option.isSome_iff_exists.mp (hwf.locked_iff.mp hl)
    exact ⟨anchor, t, ha, ht, hrange.lag anchor t hl ha ht, hwf.sync_ts hl anchor ha⟩
  · obtain ⟨hlo, hhi⟩ := dispUs_mem hwf gpsFix hclock
    exact ⟨hlo, hhi, dispersionRepresentable hrange gpsFix hclock hnow, rootDispShort_eq hwf hclock⟩

/-- A lock and two intervals: the offset of the second is within the threshold. -/
theorem servo_in_range_two_intervals :
    |(run step fromSocket [.updateGpsUtcSeconds 100 1300000, .observePpsPulse none 2000000,
      .observePpsPulse (some 1150000) 3150000,
      .observePpsPulse (some 1000010) 4150010]).ppsOffsetUs| ≤ 50000 :=
  (@servo_in_range [.updateGpsUtcSeconds 100 1300000, .observePpsPulse none 2000000,
    .observePpsPulse (some 1150000) 3150000, .observePpsPulse (some 1000010) 4150010]
    (by simp [Event.edgeInRange])).2.2.2.2.2.1 (by decide +kernel)

/-- **An interval that aligns is accepted without being taken**: the first accepted interval locks
the anchor, the second is the first sample and may be anything in range. -/
theorem accepted_interval_not_taken :
    let evs : List Event := [.updateGpsUtcSeconds 100 1300000,
      .observePpsPulse (some 1000000) 2000000, .observePpsPulse (some 1150000) 3150000]
    (∀ e ∈ evs, e.edgeInRange) ∧ metCount step acceptsInterval fromSocket evs = 2 ∧
      metCount step takesInterval fromSocket evs = 1 ∧
      ¬|(run step fromSocket evs).ppsOffsetUs| ≤ 50000 := by
  intro evs
  exact ⟨by simp [evs, Event.edgeInRange], by decide +kernel, by decide +kernel, by decide +kernel⟩

end NtpServer

end GpsNtp
