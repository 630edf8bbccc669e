import GpsNtp.Machinery.Ewma
import GpsNtp.Ntp.ServoRange

/-!
# Ntp/Convergence — the frequency estimate converges without overshoot

    freq ──▸ freq + (e - freq) / 100 ──▸ ⋯          after n pulses  e + (99/100)ⁿ (freq₀ - e)

Each interval that the servo takes blends its error into the estimate, and nothing else writes it.
Errors within ±500 µs pass the outlier guard and never meet the clamp, so on them the estimate is
the exponentially weighted average of `Machinery/Ewma`.
-/

namespace GpsNtp

open MachineInt Machine

namespace NtpServer

variable {s : NtpServer}

/-! ## The errors taken -/

/-- The interval error of an event that the servo takes as a sample. -/
def takenError (s : NtpServer) : Event → Option ℤ
  | .observePpsPulse (some interval) edgeUs =>
    if s.takesInterval (.observePpsPulse (some interval) edgeUs) then
      some ((interval : ℤ) - 1000000)
    else none
  | _ => none

/-- The interval errors that the servo takes on a run, in turn. -/
def takenErrors : NtpServer → List Event → List ℤ := collected step takenError

theorem takenError_of_not_takesInterval {e : Event} (he : s.takesInterval e = false) :
    s.takenError e = none := by
  rcases e with _ | _ | ⟨_ | interval, edgeUs⟩ | _ | _ | _
  case observePpsPulse.some => exact if_neg (by rw [he]; exact Bool.false_ne_true)
  all_goals rfl

/-- **Only the errors taken move the estimate.** -/
theorem freqPpm_step (hwf : s.WellFormed) (e : Event) :
    (s.step e).freqPpm = (s.takenError e).toList.foldl blendFreqPpm s.freqPpm := by
  cases he : s.takesInterval e with
  | false =>
    rw [takenError_of_not_takesInterval he]
    exact (step_of_not_takesInterval he).2.2
  | true =>
    obtain ⟨interval, edgeUs, anchor, rfl, -, hstep⟩ := exists_discipline_of_takesInterval hwf he
    rw [hstep, takenError, if_pos he]
    rfl

/-- The estimate of a run is the blend of the errors taken. -/
theorem freqPpm_run (hwf : s.WellFormed) (evs : List Event) :
    (run step s evs).freqPpm = (takenErrors s evs).foldl blendFreqPpm s.freqPpm :=
  run_eq_foldl (fun _ e h => ⟨h.step e, freqPpm_step h e⟩) hwf evs

/-- **The clamp is not met** by an estimate and an error within it. -/
theorem blendFreqPpm_eq_blend {freqPpm : ℚ} {phaseErrorUs : ℤ}
    (hfreq : -500 ≤ freqPpm ∧ freqPpm ≤ 500)
    (herror : -500 ≤ (phaseErrorUs : ℚ) ∧ (phaseErrorUs : ℚ) ≤ 500) :
    blendFreqPpm freqPpm phaseErrorUs = Ewma.blend servoKi freqPpm phaseErrorUs := by
  have hweight : 0 ≤ servoKi ∧ servoKi ≤ 1 := by norm_num [servoKi]
  obtain ⟨hlo, hhi⟩ := Ewma.blend_mem hweight hfreq herror
  rw [Ewma.blend] at hlo hhi ⊢
  rw [blendFreqPpm, servoMaxFreqPpm, min_eq_right hhi, max_eq_right hlo]

/-- Errors within the clamp blend as an exponentially weighted average. -/
theorem foldl_blendFreqPpm {freqPpm : ℚ} (hfreq : -500 ≤ freqPpm ∧ freqPpm ≤ 500)
    {errors : List ℤ} (herrors : ∀ e ∈ errors, -500 ≤ (e : ℚ) ∧ (e : ℚ) ≤ 500) :
    errors.foldl blendFreqPpm freqPpm =
      (errors.map (Int.cast : ℤ → ℚ)).foldl (Ewma.blend servoKi) freqPpm := by
  induction errors generalizing freqPpm with
  | nil => rfl
  | cons e errors ih =>
    have he := herrors e List.mem_cons_self
    have hblend := blendFreqPpm_eq_blend hfreq he
    have hnext : -500 ≤ blendFreqPpm freqPpm e ∧ blendFreqPpm freqPpm e ≤ 500 :=
      abs_le.mp (abs_blendFreqPpm_le freqPpm e)
    rw [List.foldl_cons, ih hnext fun e' he' => herrors e' (List.mem_cons_of_mem _ he'),
      List.map_cons, List.foldl_cons, hblend]

/-! ## Acceptance -/

/-- A lock outlasts every call. -/
theorem ppsLocked_step (hl : s.ppsLocked = true) (e : Event) : (s.step e).ppsLocked = true := by
  cases hpulse : s.accepts e with
  | false => exact (sameDiscipline_step hl hpulse).ppsLocked.trans hl
  | true =>
    obtain ⟨interval, edgeUs, rfl⟩ := exists_pulse_of_accepts hpulse
    have haccepts : s.acceptsPulse interval edgeUs = true := hpulse
    change (s.observePpsPulse interval edgeUs).ppsLocked = true
    rw [observePpsPulse_eq]
    rcases accepts_cases haccepts with ⟨u, hout⟩ | ⟨anchor, phaseErrorUs, hout⟩
    · rw [hout]
      rfl
    · rw [hout]
      exact hl

/-- **Under a lock an interval within 500 µs of the second is accepted.** -/
theorem acceptsPulse_of_near (hwf : s.WellFormed) (hl : s.ppsLocked = true) {interval : ℕ}
    (hnear : |(interval : ℤ) - 1000000| ≤ 500) (edgeUs : ℤ) :
    s.acceptsPulse (some interval) edgeUs = true := by
  obtain ⟨anchor, hanchor⟩ := Option.isSome_iff_exists.mp (hwf.anchor_of_locked hl)
  have hfilter : (s.clockAnchor.filter fun _ => s.ppsLocked) = some anchor := by
    rw [hanchor, hl]
    rfl
  have hbounds := abs_le.mp hnear
  have hrange : 800000 ≤ interval ∧ interval ≤ 1200000 := by omega
  have hguard : ¬(s.ppsHasSample = true ∧
      ppsOutlierThresholdUs < ((interval : ℤ) - 1000000).natAbs) := by
    rw [ppsOutlierThresholdUs]
    omega
  simp only [acceptsPulse, pulseOutcome, hfilter, if_neg (not_not.mpr hrange), if_neg hguard]
  rfl

/-! ## Convergence -/

/-- **Convergence without overshoot.**  From any locked state and through any calls: when each of
the `n` intervals taken is off by `e` the estimate is `e + (99/100)ⁿ (f₀ - e)`; when their errors
lie between `a` and `b`, with `f₀` between them as well, the estimate never leaves these bounds.
An interval off by 500 µs at most is always accepted, and a refused pulse touches the glitch count
at most. -/
theorem freqPpm_converges (hs : s.Reachable) (hl : s.ppsLocked = true) (evs : List Event) :
    |s.freqPpm| ≤ 500 ∧
      (∀ (n : ℕ) (e : ℤ), |e| ≤ 500 → takenErrors s evs = List.replicate n e →
        (run step s evs).freqPpm = e + (99 / 100) ^ n * (s.freqPpm - e)) ∧
      (∀ a b : ℚ, -500 ≤ a → a ≤ s.freqPpm → s.freqPpm ≤ b → b ≤ 500 →
        (∀ e ∈ takenErrors s evs, a ≤ (e : ℚ) ∧ (e : ℚ) ≤ b) → ∀ pre, pre <+: evs →
          a ≤ (run step s pre).freqPpm ∧ (run step s pre).freqPpm ≤ b) ∧
      (∀ (interval : ℕ) (edgeUs : ℤ), |(interval : ℤ) - 1000000| ≤ 500 →
        (run step s evs).acceptsPulse (some interval) edgeUs = true ∧
          (run step s evs).takenError (.observePpsPulse (some interval) edgeUs) =
            some ((interval : ℤ) - 1000000)) ∧
      ∀ interval edgeUs, (run step s evs).acceptsPulse interval edgeUs = false →
        (run step s evs).takenError (.observePpsPulse interval edgeUs) = none ∧
          ∃ n, (run step s evs).step (.observePpsPulse interval edgeUs) =
            { run step s evs with ppsGlitchCount := n } := by
  have hwf := hs.wellFormed
  have hfreq := abs_le.mp hwf.freq
  have hlocked : (run step s evs).ppsLocked = true :=
    @run_induction _ _ step (fun s => s.ppsLocked = true) (fun _ e h => ppsLocked_step h e) s hl evs
  refine ⟨hwf.freq, fun n e he herrors => ?_,
    fun a b ha hfa hfb hb herrors pre ⟨post, hsplit⟩ => ?_, fun interval edgeUs hnear => ?_,
    fun interval edgeUs hrefused => ⟨?_, observePpsPulse_of_not_accepts hrefused⟩⟩
  · have herror : -500 ≤ (e : ℚ) ∧ (e : ℚ) ≤ 500 := by
      obtain ⟨hlo, hhi⟩ := abs_le.mp he
      exact ⟨by exact_mod_cast hlo, by exact_mod_cast hhi⟩
    have hall : ∀ e' ∈ List.replicate n e, -500 ≤ (e' : ℚ) ∧ (e' : ℚ) ≤ 500 := fun e' he' =>
      List.eq_of_mem_replicate he' ▸ herror
    have hki : (1 : ℚ) - servoKi = 99 / 100 := by norm_num [servoKi]
    rw [freqPpm_run hwf, herrors, foldl_blendFreqPpm hfreq hall, List.map_replicate,
      Ewma.foldl_blend_replicate, hki]
  · have htaken : ∀ e ∈ takenErrors s pre, a ≤ (e : ℚ) ∧ (e : ℚ) ≤ b := by
      intro e he
      refine herrors e ?_
      rw [← hsplit, takenErrors, collected_append]
      exact List.mem_append_left _ he
    have hall : ∀ e ∈ takenErrors s pre, -500 ≤ (e : ℚ) ∧ (e : ℚ) ≤ 500 := fun e he =>
      ⟨ha.trans (htaken e he).1, (htaken e he).2.trans hb⟩
    rw [freqPpm_run hwf, foldl_blendFreqPpm hfreq hall]
    refine Ewma.foldl_blend_mem (by norm_num [servoKi]) ⟨hfa, hfb⟩ fun sample hsample => ?_
    obtain ⟨e, he, rfl⟩ := List.mem_map.mp hsample
    exact htaken e he
  · have haccepts := acceptsPulse_of_near (hs.run evs).wellFormed hlocked hnear edgeUs
    refine ⟨haccepts, if_pos ?_⟩
    rw [takesInterval, hlocked, haccepts]
    rfl
  · refine takenError_of_not_takesInterval ?_
    cases interval with
    | none => rfl
    | some interval => rw [takesInterval, hrefused, Bool.and_false]

/-- Two pulses 100 µs long and an outlier between them. -/
theorem freqPpm_converges_two_pulses :
    (run step firstLock [.observePpsPulse (some 1000100) 3000100,
        .observePpsPulse (some 1150000) 4150100,
        .observePpsPulse (some 1000100) 5150200]).freqPpm =
      100 + (99 / 100) ^ 2 * (firstLock.freqPpm - 100) :=
  (freqPpm_converges reachable_firstLock (by decide +kernel) _).2.1 2 100 (by decide)
    (by decide +kernel)

end NtpServer

end GpsNtp
