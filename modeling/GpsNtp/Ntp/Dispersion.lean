import GpsNtp.Ntp.Runs

/-!
# Ntp/Dispersion — when advertised uncertainty never shrinks

    fully synced     max(jitter, 100) + 15·age        (age up to 1 s)
    holdover         1000 + 500·⌊(age − 10 s)⁺⌋       (age in seconds, up to 2 s of dispersion)

Between two accepted pulses each formula grows with the age.  At the hand-over from the first to
the second the dispersion drops to the fixed base of 1 ms, which is below the measured jitter as
soon as that exceeds 985 µs; `dispersion_mono_iff` says that nothing else goes wrong.
-/

namespace GpsNtp

open MachineInt Machine

namespace NtpServer

variable {s t : NtpServer}

/-! ## The two formulas -/

theorem roundHalfAway_le {q : ℚ} {n : ℤ} (h₀ : 0 ≤ q) (h : q ≤ n) : roundHalfAway q ≤ n := by
  rw [roundHalfAway, if_pos h₀]
  have hlt : ⌊q + 1 / 2⌋ < n + 1 := Int.floor_lt.mpr (by push_cast; linarith)
  omega

/-- The hardware accuracy of a well-formed server, without saturation. -/
theorem hwAccuracyUs_eq (hwf : s.WellFormed) :
    s.hwAccuracyUs = if s.ppsHasSample = true then max (roundHalfAway s.ppsJitterUs) 100
      else 100 := by
  have hle : roundHalfAway s.ppsJitterUs ≤ 200000 :=
    roundHalfAway_le hwf.jitter_nonneg (by exact_mod_cast hwf.jitter_le)
  have hnonneg := roundHalfAway_nonneg hwf.jitter_nonneg
  have hsat : satI64 (roundHalfAway s.ppsJitterUs) = roundHalfAway s.ppsJitterUs := by
    refine satI64_of_isI64 ?_
    simp only [IsI64, i64Min, i64Max]
    omega
  rw [hwAccuracyUs, hsat]
  rfl

theorem hwAccuracyUs_mem (hwf : s.WellFormed) :
    100 ≤ s.hwAccuracyUs ∧ s.hwAccuracyUs ≤ 200000 := by
  have hle : roundHalfAway s.ppsJitterUs ≤ 200000 :=
    roundHalfAway_le hwf.jitter_nonneg (by exact_mod_cast hwf.jitter_le)
  rw [hwAccuracyUs_eq hwf]
  split_ifs <;> omega

/-- Dispersion while fully synced, at an age the machine can represent. -/
theorem syncedDispUs_eq (hwf : s.WellFormed) {nowUs age : ℤ} (hage : s.ppsAgeUs nowUs = age)
    (h₀ : 0 ≤ age) :
    s.syncedDispUs nowUs = s.hwAccuracyUs + 15 * min age 1000000 / 1000000 := by
  have hhw := hwAccuracyUs_mem hwf
  have hwrap : wrapI64 (phiUsPerS * min age microsPerSec) = 15 * min age 1000000 := by
    refine wrapI64_of_isI64 ?_
    simp only [IsI64, i64Min, i64Max, phiUsPerS, microsPerSec]
    omega
  have hdiv : (15 * min age 1000000).tdiv microsPerSec = 15 * min age 1000000 / 1000000 :=
    Int.tdiv_eq_ediv_of_nonneg (by omega)
  simp only [syncedDispUs, hage, hwrap, hdiv]
  refine wrapI64_of_isI64 ?_
  simp only [IsI64, i64Min, i64Max]
  omega

/-! ## The range of the dispersion -/

/-- The clock stands at or after the last accepted pulse. -/
def SinceLastPulse (s : NtpServer) (nowUs : ℤ) : Prop :=
  ∀ t, s.lastPpsMonotonicUs = some t → t ≤ nowUs

theorem SinceLastPulse.ppsAgeUs_nonneg {nowUs : ℤ} (h : s.SinceLastPulse nowUs) :
    0 ≤ s.ppsAgeUs nowUs := by
  cases ht : s.lastPpsMonotonicUs with
  | none =>
    rw [ppsAgeUs, ht, Option.elim_none]
    decide
  | some t =>
    rw [ppsAgeUs, ht]
    exact satSub_nonneg (h t ht)

theorem isI64_ppsAgeUs (s : NtpServer) (nowUs : ℤ) : IsI64 (s.ppsAgeUs nowUs) := by
  cases ht : s.lastPpsMonotonicUs with
  | none =>
    rw [ppsAgeUs, ht, Option.elim_none]
    decide
  | some t =>
    rw [ppsAgeUs, ht]
    exact isI64_satI64 _

theorem syncedDispUs_mem (hwf : s.WellFormed) {nowUs : ℤ} (h : s.SinceLastPulse nowUs) :
    100 ≤ s.syncedDispUs nowUs ∧ s.syncedDispUs nowUs ≤ 200015 := by
  have hhw := hwAccuracyUs_mem hwf
  have hage := h.ppsAgeUs_nonneg
  rw [syncedDispUs_eq hwf rfl hage]
  omega

theorem holdoverDispUs_mem (s : NtpServer) (nowUs : ℤ) :
    1000 ≤ s.holdoverDispUs nowUs ∧ s.holdoverDispUs nowUs ≤ 2000000 := by
  rw [holdoverDispUs_eq rfl (isI64_ppsAgeUs s nowUs)]
  omega

/-- **The dispersion stays in its range.** -/
theorem dispUs_mem (hwf : s.WellFormed) (gpsFix : Bool) {nowUs : ℤ}
    (h : s.SinceLastPulse nowUs) :
    100 ≤ s.dispUs gpsFix nowUs ∧ s.dispUs gpsFix nowUs ≤ 2000000 := by
  have hsynced := syncedDispUs_mem hwf h
  have hholdover := holdoverDispUs_mem s nowUs
  unfold dispUs maxDispUs
  split_ifs <;> omega

/-- **At stratum 1 it is below a second.** -/
theorem dispUs_lt_of_stratum_eq_one (hwf : s.WellFormed) {gpsFix : Bool} {nowUs : ℤ}
    {reading : ClockReading} (h : s.SinceLastPulse nowUs)
    (hone : (s.disciplineParams gpsFix nowUs reading).stratum = 1) :
    s.dispUs gpsFix nowUs < 1000000 := by
  simp only [disciplineParams, ite_eq_left_iff, show stratumUnsync ≠ 1 by decide, imp_false,
    not_not, Bool.or_eq_true, Bool.and_eq_true, decide_eq_true_iff] at hone
  rcases hone with hsync | ⟨-, hlt⟩
  · have hsynced := syncedDispUs_mem hwf h
    rw [dispUs, if_pos hsync]
    omega
  · exact hlt

/-- **The short format loses nothing**: no product overflows and no bit is cut. -/
theorem rootDispShort_eq (hwf : s.WellFormed) {gpsFix : Bool} {nowUs : ℤ}
    {reading : ClockReading} (h : s.SinceLastPulse nowUs) :
    ((s.disciplineParams gpsFix nowUs reading).rootDispShort : ℤ) =
      s.dispUs gpsFix nowUs * 65536 / 1000000 := by
  obtain ⟨hl, hu⟩ := dispUs_mem hwf gpsFix h
  obtain ⟨n, hn⟩ := Int.eq_ofNat_of_zero_le (show 0 ≤ s.dispUs gpsFix nowUs by omega)
  rw [hn] at hl hu ⊢
  have hcast : wrapU64 (n : ℤ) = n := by
    unfold wrapU64
    omega
  have hmul : n * 65536 % 18446744073709551616 = n * 65536 := Nat.mod_eq_of_lt (by omega)
  have hshort : wrapU32 (n * 65536 / 1000000) = n * 65536 / 1000000 := Nat.mod_eq_of_lt (by omega)
  simp only [disciplineParams, hn, hcast, hmul, hshort]
  omega

/-! ## Growth -/

/-- **Dispersion with no pulse in between**, on a jitter the base of the ramp covers. -/
theorem dispUs_mono (hwf : s.WellFormed) {edgeUs : ℤ} (ht : s.lastPpsMonotonicUs = some edgeUs)
    (hhw : s.hwAccuracyUs ≤ 985) {f₁ f₂ : Bool} {now₁ now₂ : ℤ} (h₀ : edgeUs ≤ now₁)
    (h : now₁ ≤ now₂) (hf : f₂ = true → f₁ = true) : s.dispUs f₁ now₁ ≤ s.dispUs f₂ now₂ := by
  have hanchor : s.clockAnchor.isSome = true :=
    hwf.anchor_of_locked (hwf.locked_iff.mpr (by rw [ht]; rfl))
  have hage : ∀ now, s.ppsAgeUs now = satSub now edgeUs := fun now => by
    rw [ppsAgeUs, ht, Option.elim_some]
  have hmono : satSub now₁ edgeUs ≤ satSub now₂ edgeUs := satSub_mono_left edgeUs h
  have hnonneg : 0 ≤ satSub now₁ edgeUs := satSub_nonneg h₀
  have hsynced := fun now => @syncedDispUs_eq s hwf now _ (hage now)
  have hramp := fun now => @holdoverDispUs_eq s now _ (hage now) (isI64_satI64 _)
  cases h₂ : s.fullySynced f₂ now₂ with
  | true =>
    obtain ⟨hf₂, hlt₂⟩ := (fullySynced_iff hwf ht).mp h₂
    have h₁ : s.fullySynced f₁ now₁ = true := (fullySynced_iff hwf ht).mpr ⟨hf hf₂, by omega⟩
    rw [dispUs, dispUs, if_pos h₁, if_pos h₂, hsynced now₁ hnonneg, hsynced now₂ (by omega)]
    omega
  | false =>
    have hdisp₂ : s.dispUs f₂ now₂ = s.holdoverDispUs now₂ := by
      rw [dispUs, h₂, if_neg Bool.false_ne_true, if_pos hanchor]
    rw [hdisp₂, hramp now₂, dispUs, hanchor, if_pos rfl]
    split_ifs with h₁
    · rw [hsynced now₁ hnonneg]
      omega
    · rw [hramp now₁]
      omega

/-- **At the hand-over** to holdover dispersion falls back to the base of 1 ms. -/
theorem hwAccuracyUs_le_of_mono (hwf : s.WellFormed) {edgeUs : ℤ}
    (ht : s.lastPpsMonotonicUs = some edgeUs)
    (h : s.dispUs true (edgeUs + 1000000) ≤ s.dispUs false (edgeUs + 1000000)) :
    s.hwAccuracyUs ≤ 985 := by
  have hanchor : s.clockAnchor.isSome = true :=
    hwf.anchor_of_locked (hwf.locked_iff.mpr (by rw [ht]; rfl))
  have hage : s.ppsAgeUs (edgeUs + 1000000) = 1000000 := by
    rw [ppsAgeUs, ht, Option.elim_some, satSub, show edgeUs + 1000000 - edgeUs = 1000000 by omega]
    rfl
  have h₁ : s.fullySynced true (edgeUs + 1000000) = true :=
    (fullySynced_iff hwf ht).mpr ⟨rfl, by omega⟩
  have h₂ : ¬s.fullySynced false (edgeUs + 1000000) = true := fun h =>
    absurd ((fullySynced_iff hwf ht).mp h).1 (by decide)
  rw [dispUs, dispUs, if_pos h₁, if_neg h₂, if_pos hanchor, syncedDispUs_eq hwf hage (by decide),
    holdoverDispUs_eq hage (by decide)] at h
  omega

/-! ## Advertised uncertainty -/

theorem rootDispMs_le_iff {f₁ f₂ : Bool} {now₁ now₂ : ℤ} {r₁ r₂ : ClockReading} :
    (s.disciplineParams f₁ now₁ r₁).rootDispMs ≤ (t.disciplineParams f₂ now₂ r₂).rootDispMs ↔
      s.dispUs f₁ now₁ ≤ t.dispUs f₂ now₂ := by
  have h : (0 : ℚ) < 1000 := by norm_num
  simp only [disciplineParams, div_le_div_iff_of_pos_right h, Int.cast_le]

theorem SameDiscipline.dispUs (h : SameDiscipline s t) (gpsFix : Bool) (nowUs : ℤ) :
    t.dispUs gpsFix nowUs = s.dispUs gpsFix nowUs := by
  rw [h]
  rfl

/-- **Exactly when advertised uncertainty never shrinks.**  In a reachable locked state: root
dispersion is monotone up to the next accepted pulse, whatever else happens and with the fix kept or
lost, if and only if there is no jitter sample or the jitter rounds to 985 µs at most. -/
theorem dispersion_mono_iff (hs : s.Reachable) (hl : s.ppsLocked = true) :
    (∀ evs f₁ f₂ now₁ now₂ r₁ r₂, Throughout step (fun s e => s.accepts e = false) s evs →
      (∀ edgeUs, s.lastPpsMonotonicUs = some edgeUs → edgeUs ≤ now₁) → now₁ ≤ now₂ →
      (f₂ = true → f₁ = true) →
      (s.disciplineParams f₁ now₁ r₁).rootDispMs
        ≤ ((run step s evs).disciplineParams f₂ now₂ r₂).rootDispMs) ↔
      s.ppsHasSample = false ∨ roundHalfAway s.ppsJitterUs ≤ 985 := by
  have hwf := hs.wellFormed
  obtain ⟨edgeUs, ht⟩ := Option.isSome_iff_exists.mp (hwf.locked_iff.mp hl)
  have hhw : s.hwAccuracyUs ≤ 985 ↔
      s.ppsHasSample = false ∨ roundHalfAway s.ppsJitterUs ≤ 985 := by
    rw [hwAccuracyUs_eq hwf]
    cases s.ppsHasSample with
    | true => simp
    | false => simp
  rw [← hhw]
  constructor
  · intro h
    have hsame := h [] true false (edgeUs + 1000000) (edgeUs + 1000000) ⟨0, none⟩ ⟨0, none⟩ trivial
      (fun edgeUs' ht' => by rw [ht] at ht'; obtain rfl := Option.some.inj ht'; omega) le_rfl nofun
    exact hwAccuracyUs_le_of_mono hwf ht (rootDispMs_le_iff.mp hsame)
  · intro hhw evs f₁ f₂ now₁ now₂ r₁ r₂ hevs h₀ h hf
    rw [rootDispMs_le_iff, (sameDiscipline_run hl hevs).dispUs]
    exact dispUs_mono hwf ht hhw (h₀ edgeUs ht) h hf

/-- A server that has locked and measured one interval. -/
def afterInterval (interval : ℕ) : NtpServer :=
  run step fromSocket [.updateGpsUtcSeconds 100 1300000, .observePpsPulse none 2000000,
    .observePpsPulse (some interval) (2000000 + interval)]

/-- A first interval 200 µs long: losing the fix later does not lower the dispersion. -/
theorem dispersion_mono_iff_small_jitter :
    ((afterInterval 1000200).disciplineParams true 3500000 ⟨3500000, none⟩).rootDispMs ≤
      ((afterInterval 1000200).disciplineParams false 4000000 ⟨4000000, none⟩).rootDispMs := by
  have hs : (afterInterval 1000200).Reachable := ⟨_, rfl⟩
  have hlast : (afterInterval 1000200).lastPpsMonotonicUs = some 3000200 := rfl
  refine (dispersion_mono_iff hs rfl).mpr (Or.inr (by decide +kernel)) [] true false _ _ _ _ trivial
    (fun edgeUs h => ?_) (by decide) nofun
  rw [hlast] at h
  obtain rfl := Option.some.inj h
  decide

/-- **The hand-over drop**: a first interval 2 ms long, and the fix lost a second later. -/
theorem dispersion_shrinks_on_lost_fix :
    (afterInterval 1002000).ppsLocked = true ∧
      (afterInterval 1002000).lastPpsMonotonicUs = some 3002000 ∧
      ¬((afterInterval 1002000).disciplineParams true 4002000 ⟨4002000, none⟩).rootDispMs ≤
        ((afterInterval 1002000).disciplineParams false 4002000 ⟨4002000, none⟩).rootDispMs := by
  refine ⟨rfl, rfl, ?_⟩
  rw [rootDispMs_le_iff]
  decide +kernel

end NtpServer

end GpsNtp
