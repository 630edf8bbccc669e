import GpsNtp.Ntp.Discard
import GpsNtp.Ntp.Runs

/-!
# Ntp/Rejected — rejected pulses leave no trace

    all pulses            p₁ ✗ p₂ ✗ ✗ p₃      same state but for pps_glitch_count
    without the rejected  p₁   p₂     p₃

A pulse is rejected by one of three guards (`outOfRange`, `outlier`, `unaligned`), two of which
read the state it meets.  Rejection moves the glitch count at most, and nothing reads that count,
so the rejected pulses of a run are deleted by `run_kept_related`; the count itself is a counter on
the run (`run_eq_iterate`).
-/

namespace GpsNtp

open MachineInt Machine

namespace NtpServer

/-! ## The three guards -/

/-- The interval is outside the range of one second. -/
def outOfRange : Event → Bool
  | .observePpsPulse (some interval) _ => !decide (800000 ≤ interval ∧ interval ≤ 1200000)
  | _ => false

variable (s : NtpServer)

/-- The phase error of an interval in range exceeds the threshold, and a sample exists. -/
def outlier : Event → Bool
  | .observePpsPulse (some interval) _ =>
    decide (800000 ≤ interval ∧ interval ≤ 1200000) && s.ppsLocked && s.ppsHasSample &&
      decide (ppsOutlierThresholdUs < ((interval : ℤ) - 1000000).natAbs)
  | _ => false

/-- A first pulse, or a pulse in range before the lock, that GPS has no fresh second for. -/
def unaligned : Event → Bool
  | .observePpsPulse none edgeUs => (s.gpsSecondAtEdge edgeUs).isNone
  | .observePpsPulse (some interval) edgeUs =>
    decide (800000 ≤ interval ∧ interval ≤ 1200000) && !s.ppsLocked &&
      (s.gpsSecondAtEdge edgeUs).isNone
  | _ => false

/-- The event is a pulse that is rejected. -/
def rejected (e : Event) : Bool := outOfRange e || s.outlier e || s.unaligned e

/-- The events of a sequence without the pulses rejected when it ran. -/
def withoutRejected (evs : List Event) : List Event := kept step rejected s evs

/-- The number of outliers a sequence meets. -/
def outlierCount (evs : List Event) : ℕ := metCount step outlier s evs

variable {s}

theorem alignOutcome_ne_outlier {edgeUs : ℤ} : s.alignOutcome edgeUs ≠ .outlier := by
  unfold alignOutcome
  cases s.gpsSecondAtEdge edgeUs <;> exact nofun

/-- The anchor the servo disciplines, by the lock. -/
theorem filter_clockAnchor (hwf : s.WellFormed) :
    (s.ppsLocked = false ∧ (s.clockAnchor.filter fun _ => s.ppsLocked) = none) ∨
      (s.ppsLocked = true ∧
        ∃ anchor, (s.clockAnchor.filter fun _ => s.ppsLocked) = some anchor) := by
  cases hl : s.ppsLocked with
  | false =>
    refine Or.inl ⟨rfl, ?_⟩
    cases s.clockAnchor <;> rfl
  | true =>
    obtain ⟨anchor, hanchor⟩ := Option.isSome_iff_exists.mp (hwf.anchor_of_locked hl)
    exact Or.inr ⟨rfl, anchor, by rw [hanchor]; rfl⟩

/-- **The outcome of an outlier.** -/
theorem pulseOutcome_eq_outlier_iff (hwf : s.WellFormed) (ppsIntervalUs : Option ℕ)
    (edgeUs : ℤ) :
    s.pulseOutcome ppsIntervalUs edgeUs = .outlier ↔
      s.outlier (.observePpsPulse ppsIntervalUs edgeUs) = true := by
  rcases ppsIntervalUs with _ | interval
  · exact iff_of_false alignOutcome_ne_outlier Bool.false_ne_true
  simp only [pulseOutcome, outlier]
  by_cases hrange : 800000 ≤ interval ∧ interval ≤ 1200000
  · rw [if_neg (not_not.mpr hrange), decide_eq_true hrange, Bool.true_and]
    rcases filter_clockAnchor hwf with ⟨hl, hfilter⟩ | ⟨hl, anchor, hfilter⟩
    · rw [hfilter, hl]
      exact iff_of_false alignOutcome_ne_outlier Bool.false_ne_true
    · rw [hfilter, hl]
      simp
  · rw [if_pos hrange, decide_eq_false hrange]
    exact iff_of_false (fun h => by cases h) Bool.false_ne_true

/-- **Rejected by a guard is refused by the servo**: the three guards are all there is. -/
theorem rejected_eq_not_acceptsPulse (hwf : s.WellFormed) (ppsIntervalUs : Option ℕ)
    (edgeUs : ℤ) :
    s.rejected (.observePpsPulse ppsIntervalUs edgeUs) =
      !s.acceptsPulse ppsIntervalUs edgeUs := by
  have halign : (s.alignOutcome edgeUs).accepted = !(s.gpsSecondAtEdge edgeUs).isNone := by
    unfold alignOutcome
    cases s.gpsSecondAtEdge edgeUs <;> rfl
  rcases ppsIntervalUs with _ | interval
  · simp [rejected, outOfRange, outlier, unaligned, acceptsPulse, pulseOutcome, halign]
  simp only [rejected, outOfRange, outlier, unaligned, acceptsPulse, pulseOutcome]
  by_cases hrange : 800000 ≤ interval ∧ interval ≤ 1200000
  · rw [if_neg (not_not.mpr hrange), decide_eq_true hrange]
    rcases filter_clockAnchor hwf with ⟨hl, hfilter⟩ | ⟨hl, anchor, hfilter⟩
    · rw [hfilter, hl]
      simp [halign]
    · rw [hfilter, hl]
      dsimp only
      split_ifs with hout
      · simp [hout.1, hout.2, PulseOutcome.accepted]
      · have hout : (s.ppsHasSample &&
            decide (ppsOutlierThresholdUs < ((interval : ℤ) - 1000000).natAbs)) = false := by
          simpa using hout
        simp only [Bool.not_true, Bool.true_and, Bool.false_and, Bool.or_false, hout]
        rfl
  · rw [if_pos hrange, decide_eq_false hrange]
    rfl

/-! ## The glitch count is never read -/

/-- The server with another glitch count. -/
def withGlitchCount (s : NtpServer) (n : ℕ) : NtpServer := { s with ppsGlitchCount := n }

theorem unserved_withGlitchCount (n : ℕ) : Unserved fun s => s.withGlitchCount n where
  limit := tryRateLimit_commute (fun _ => rfl) (fun _ _ => rfl) fun _ _ => rfl
  send := fun _ _ sendOk _ => by cases sendOk <;> rfl
  params := fun _ _ _ _ => rfl
  stats := fun _ => rfl
  timestamp := fun _ _ => rfl

theorem handleDatagram_withGlitchCount (n : ℕ) (gpsFix : Bool) (req : List UInt8) (len : ℕ)
    (d : Datagram) :
    (s.withGlitchCount n).handleDatagram gpsFix req len d =
      ((s.handleDatagram gpsFix req len d).1.withGlitchCount n,
        (s.handleDatagram gpsFix req len d).2) := by
  cases hd : d.denied s.acl with
  | false => exact (unserved_withGlitchCount n).handleDatagram rfl gpsFix req len hd
  | true =>
    have hacl : (s.withGlitchCount n).acl = s.acl := rfl
    have hdenied : (d.peer.srcIpV4.any fun ip => !s.acl.allows ip) = true := hd
    simp only [handleDatagram, hacl, if_pos hdenied]
    split_ifs <;> rfl

theorem pollLoop_withGlitchCount (n : ℕ) (gpsFix : Bool) (st : PollState) (ds : List Datagram) :
    pollLoop gpsFix ⟨st.server.withGlitchCount n, st.req⟩ ds =
      ((pollLoop gpsFix st ds).1.withGlitchCount n, (pollLoop gpsFix st ds).2) := by
  induction ds generalizing st with
  | nil => rfl
  | cons d rest ih =>
    have hstep : pollStep gpsFix ⟨st.server.withGlitchCount n, st.req⟩ d =
        (⟨(pollStep gpsFix st d).1.server.withGlitchCount n, (pollStep gpsFix st d).1.req⟩,
          (pollStep gpsFix st d).2) := by
      simp only [pollStep, handleDatagram_withGlitchCount]
    simp only [pollLoop, hstep, ih]
    split_ifs <;> rfl

theorem pulseOutcome_withGlitchCount (n : ℕ) (ppsIntervalUs : Option ℕ) (edgeUs : ℤ) :
    (s.withGlitchCount n).pulseOutcome ppsIntervalUs edgeUs =
      s.pulseOutcome ppsIntervalUs edgeUs := rfl

/-- **Under another glitch count** every event but an outlier has the same effect. -/
theorem step_withGlitchCount (hwf : s.WellFormed) (n : ℕ) {e : Event}
    (he : s.outlier e = false) :
    (s.withGlitchCount n).step e = (s.step e).withGlitchCount n := by
  cases e with
  | seedUtcSeconds utc nowUs =>
    change (s.withGlitchCount n).seedUtcSeconds utc nowUs =
      (s.seedUtcSeconds utc nowUs).withGlitchCount n
    have hl : (s.withGlitchCount n).ppsLocked = s.ppsLocked := rfl
    have hanchor : (s.withGlitchCount n).clockAnchor = s.clockAnchor := rfl
    simp only [NtpServer.seedUtcSeconds, hl, hanchor]
    split_ifs <;> rfl
  | updateGpsUtcSeconds utc nowUs =>
    change (s.withGlitchCount n).updateGpsUtcSeconds utc nowUs =
      (s.updateGpsUtcSeconds utc nowUs).withGlitchCount n
    rw [updateGpsUtcSeconds_eq, updateGpsUtcSeconds_eq]
    rfl
  | observePpsPulse interval edgeUs =>
    change (s.withGlitchCount n).observePpsPulse interval edgeUs =
      (s.observePpsPulse interval edgeUs).withGlitchCount n
    rw [observePpsPulse_eq, observePpsPulse_eq, pulseOutcome_withGlitchCount]
    cases hout : s.pulseOutcome interval edgeUs with
    | skipped => rfl
    | outlier =>
      rw [(pulseOutcome_eq_outlier_iff hwf interval edgeUs).mp hout] at he
      cases he
    | aligned u => rfl
    | disciplined anchor phaseErrorUs => rfl
  | setLeapIndicator li => rfl
  | setAcl acl => rfl
  | poll gpsFix ds =>
    exact congrArg Prod.fst (pollLoop_withGlitchCount n gpsFix ⟨s, _⟩ ds)

/-! ## Rejection -/

/-- **A rejected pulse moves the glitch count at most.** -/
theorem step_of_rejected (hwf : s.WellFormed) {e : Event} (he : s.rejected e = true) :
    ∃ n, s.step e = s.withGlitchCount n := by
  cases e with
  | observePpsPulse interval edgeUs =>
    rw [rejected_eq_not_acceptsPulse hwf, Bool.not_eq_true'] at he
    exact observePpsPulse_of_not_accepts he
  | _ => exact absurd he nofun

/-- **The glitch count counts the outliers.** -/
theorem ppsGlitchCount_step (hwf : s.WellFormed) (e : Event) :
    (s.step e).ppsGlitchCount =
      if s.outlier e = true then satSuccU32 s.ppsGlitchCount else s.ppsGlitchCount := by
  cases he : s.outlier e with
  | false =>
    have hself : s.step e = (s.step e).withGlitchCount s.ppsGlitchCount :=
      step_withGlitchCount hwf s.ppsGlitchCount he
    exact (congrArg NtpServer.ppsGlitchCount hself).trans rfl
  | true =>
    cases e with
    | observePpsPulse interval edgeUs =>
      have hout := (pulseOutcome_eq_outlier_iff hwf interval edgeUs).mpr he
      have hstep : s.step (.observePpsPulse interval edgeUs) =
          s.applyOutcome edgeUs (s.pulseOutcome interval edgeUs) :=
        observePpsPulse_eq interval edgeUs
      rw [hstep, hout]
      rfl
    | _ => exact absurd he nofun

theorem Reachable.ppsGlitchCount_le (h : s.Reachable) : s.ppsGlitchCount ≤ u32Max := by
  obtain ⟨evs, rfl⟩ := h
  let Inv (s : NtpServer) := s.WellFormed ∧ s.ppsGlitchCount ≤ u32Max
  have hinit : Inv fromSocket := ⟨wellFormed_fromSocket, Nat.zero_le _⟩
  refine (@run_induction _ _ _ Inv ?_ _ hinit evs).2
  rintro s e ⟨hwf, hle⟩
  refine ⟨hwf.step e, ?_⟩
  rw [ppsGlitchCount_step hwf]
  split_ifs
  · exact min_le_left _ _
  · exact hle

/-- **The glitch count of a run**: the outliers it met, saturating. -/
theorem ppsGlitchCount_run (h : s.Reachable) (evs : List Event) :
    (run step s evs).ppsGlitchCount = min u32Max (s.ppsGlitchCount + s.outlierCount evs) := by
  have hcount : (run step s evs).ppsGlitchCount =
      satSuccU32^[s.outlierCount evs] s.ppsGlitchCount :=
    @run_eq_iterate _ _ _ NtpServer.step WellFormed NtpServer.ppsGlitchCount satSuccU32 outlier
      (fun _ e hwf => ⟨hwf.step e, ppsGlitchCount_step hwf e⟩) s h.wellFormed evs
  rw [hcount, iterate_satSuccU32 h.ppsGlitchCount_le]

/-- **Without its rejected pulses** a run ends in the same state but for the glitch count. -/
theorem run_withoutRejected (hwf : s.WellFormed) (evs : List Event) :
    run step s (s.withoutRejected evs) = (run step s evs).withGlitchCount s.ppsGlitchCount := by
  let R (a b : NtpServer) := a.WellFormed ∧ b = a.withGlitchCount s.ppsGlitchCount
  have hinit : R s s := ⟨hwf, rfl⟩
  refine (@run_kept_related _ _ NtpServer.step R rejected ?_ ?_ s s hinit evs).2
  · rintro a _ e he ⟨ha, rfl⟩
    have hout : a.outlier e = false := by
      simp only [rejected, Bool.or_eq_false_iff] at he
      exact he.1.2
    exact ⟨ha.step e, step_withGlitchCount ha _ hout⟩
  · rintro a _ e he ⟨ha, rfl⟩
    obtain ⟨n, hn⟩ := step_of_rejected ha he
    exact ⟨ha.step e, by rw [hn]; rfl⟩

/-- **Rejected pulses leave no trace.**  From any reachable state, a sequence of calls and the same
sequence without the pulses rejected when it ran end in states that are equal but for the glitch
count, hence in the same timestamps and the same advertised discipline; and the glitch count grew
by the number of outliers. -/
theorem rejected_pulses_leave_no_trace (hs : s.Reachable) (evs : List Event) :
    let full := run step s evs
    let reduced := run step s (s.withoutRejected evs)
    reduced = { full with ppsGlitchCount := reduced.ppsGlitchCount } ∧
      (∀ reading, reduced.currentNtpTimestamp reading = full.currentNtpTimestamp reading) ∧
      (∀ nowUs, reduced.currentUtcUnixSeconds nowUs = full.currentUtcUnixSeconds nowUs) ∧
      (∀ gpsFix nowUs reading, reduced.disciplineParams gpsFix nowUs reading =
        full.disciplineParams gpsFix nowUs reading) ∧
      reduced.ppsGlitchCount = s.ppsGlitchCount ∧
      full.ppsGlitchCount = min u32Max (s.ppsGlitchCount + s.outlierCount evs) := by
  intro full reduced
  have hreduced : reduced = full.withGlitchCount s.ppsGlitchCount :=
    run_withoutRejected hs.wellFormed evs
  rw [hreduced]
  exact ⟨rfl, fun _ => rfl, fun _ => rfl, fun _ _ _ => rfl, rfl, ppsGlitchCount_run hs evs⟩

/-- An outlier and an interval of two seconds, met after the servo's first sample. -/
theorem rejected_pulses_leave_no_trace_firstLock :
    let evs : List Event :=
      [.observePpsPulse (some 1000010) 3000010, .observePpsPulse (some 1060000) 4060010,
        .observePpsPulse (some 2000000) 6060010, .observePpsPulse (some 1000010) 7060020]
    firstLock.withoutRejected evs =
        [.observePpsPulse (some 1000010) 3000010, .observePpsPulse (some 1000010) 7060020] ∧
      (run step firstLock evs).ppsGlitchCount = 1 := by
  intro evs
  refine ⟨by decide +kernel, ?_⟩
  rw [(rejected_pulses_leave_no_trace reachable_firstLock evs).2.2.2.2.2]
  decide +kernel

end NtpServer

end GpsNtp
