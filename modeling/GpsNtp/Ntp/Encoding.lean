import GpsNtp.Machinery.Fraction
import GpsNtp.Ntp.TimestampOrder

/-!
# Ntp/Encoding — a timestamp is its instant, up to the era

    D = anchor second · 10⁶ + corrected elapsed µs

    (⌊D / 10⁶⌋ + 2208988800) mod 2³² │ ⌊(D mod 10⁶) · 2³² / 10⁶⌋
    era, era + 1, …  share one code  │ decodes to D mod 10⁶, or one less

The disciplined instant in microseconds against the 64-bit word that encodes it.  For any anchor
below 2⁴⁰ seconds no saturation is met, whatever the time elapsed.
-/

namespace GpsNtp

open MachineInt

/-- The word that an instant of `d` microseconds since 1970 is encoded as. -/
def encodeInstant (d : ℕ) : ℕ :=
  (d / 1000000 + 2208988800) % 4294967296 * 4294967296 +
    Fraction.scale 1000000 4294967296 (d % 1000000)

/-- The NTP era of an instant. -/
def ntpEra (d : ℕ) : ℕ := (d / 1000000 + 2208988800) / 4294967296

theorem encodeInstant_fraction_lt (d : ℕ) :
    Fraction.scale 1000000 4294967296 (d % 1000000) < 4294967296 :=
  Fraction.scale_lt (Nat.mod_lt _ (by decide)) (by decide)

/-- The two halves of the word. -/
theorem encodeInstant_halves (d : ℕ) :
    encodeInstant d / 4294967296 = (d / 1000000 + 2208988800) % 4294967296 ∧
      encodeInstant d % 4294967296 = Fraction.scale 1000000 4294967296 (d % 1000000) := by
  have hlt := encodeInstant_fraction_lt d
  rw [encodeInstant]
  omega

/-- **Within an era the encoding keeps the order of instants.** -/
theorem encodeInstant_lt {d d' : ℕ} (hera : ntpEra d = ntpEra d') (h : d < d') :
    encodeInstant d < encodeInstant d' := by
  have hlt := encodeInstant_fraction_lt d
  rw [encodeInstant, encodeInstant]
  rw [ntpEra, ntpEra] at hera
  rcases (Nat.div_le_div_right h.le : d / 1000000 ≤ d' / 1000000).lt_or_eq with hsec | hsec
  · omega
  · have hfrac : Fraction.scale 1000000 4294967296 (d % 1000000) <
        Fraction.scale 1000000 4294967296 (d' % 1000000) :=
      Fraction.scale_strictMono (by decide) (by decide) (by omega)
    rw [hsec]
    omega

namespace NtpServer

variable {s : NtpServer} {anchor : ClockAnchor}

/-- The disciplined instant in microseconds. -/
def instantUs (s : NtpServer) (anchor : ClockAnchor) (nowUs : ℤ) : ℤ :=
  anchor.unixSeconds * 1000000 + s.correctedElapsedUs (satSub nowUs anchor.monotonicUs)

theorem correctedElapsedUs_le {raw : ℤ} (h : raw ≤ i64Max) : s.correctedElapsedUs raw ≤ i64Max := by
  rw [correctedElapsedUs]
  refine max_le ?_ (by decide)
  split_ifs
  · exact h
  · exact (isI64_satI64 _).2

/-- **No saturation is met**: the second of the instant is the anchored one and the whole seconds
elapsed. -/
theorem satAdd_elapsedSeconds (h₀ : 0 ≤ anchor.unixSeconds)
    (h₁ : anchor.unixSeconds < 1099511627776) (nowUs : ℤ) :
    satAdd anchor.unixSeconds
        (s.correctedElapsedUs (satSub nowUs anchor.monotonicUs) / microsPerSec) =
      s.instantUs anchor nowUs / 1000000 ∧
    0 ≤ s.instantUs anchor nowUs ∧ s.instantUs anchor nowUs / 1000000 < 9223372036854775808 := by
  have hnonneg := @correctedElapsedUs_nonneg s (satSub nowUs anchor.monotonicUs)
  have hle := @correctedElapsedUs_le s _ (isI64_satI64 (nowUs - anchor.monotonicUs)).2
  change s.correctedElapsedUs (satSub nowUs anchor.monotonicUs) ≤ i64Max at hle
  simp only [i64Max] at hle
  rw [instantUs, satAdd_of_isI64]
  · simp only [microsPerSec]
    omega
  · simp only [IsI64, i64Min, i64Max, microsPerSec]
    omega

/-- **The disciplined timestamp encodes the instant.** -/
theorem currentNtpTimestamp_eq_encodeInstant (ha : s.clockAnchor = some anchor)
    (h₀ : 0 ≤ anchor.unixSeconds) (h₁ : anchor.unixSeconds < 1099511627776) (now : ClockReading) :
    s.currentNtpTimestamp now = encodeInstant (s.instantUs anchor now.monotonicUs).toNat := by
  obtain ⟨hsecond, hnonneg, hlt⟩ := @satAdd_elapsedSeconds s anchor h₀ h₁ now.monotonicUs
  have hrem : s.correctedElapsedUs (satSub now.monotonicUs anchor.monotonicUs) % microsPerSec =
      s.instantUs anchor now.monotonicUs % 1000000 := by
    rw [instantUs, microsPerSec, Int.add_emod, Int.mul_emod_left, zero_add, Int.emod_emod]
  have hsecs : (s.instantUs anchor now.monotonicUs / 1000000).toNat =
      (s.instantUs anchor now.monotonicUs).toNat / 1000000 := by omega
  have hmicros : (s.instantUs anchor now.monotonicUs % 1000000).toNat =
      (s.instantUs anchor now.monotonicUs).toNat % 1000000 := by omega
  rw [currentNtpTimestamp, ha]
  dsimp only
  rw [hsecond, hrem, ntpTimestampFromUnix_eq_mod (by omega) hlt (by omega), hsecs, hmicros,
    encodeInstant, Fraction.scale]

/-- **Timestamps are exact and invertible.**  For an anchor in `[0, 2⁴⁰)` seconds and any time
elapsed, with `D` the instant in microseconds: the upper half of the timestamp is the NTP second of
`D` modulo 2³², the lower half its remainder in parts of 2³², which decodes to the remainder or one
less; of two instants in one era the later has the greater timestamp; and the accessor of the
seconds agrees. -/
theorem timestamp_exact (ha : s.clockAnchor = some anchor) (h₀ : 0 ≤ anchor.unixSeconds)
    (h₁ : anchor.unixSeconds < 1099511627776) (now : ClockReading) :
    let d := (s.instantUs anchor now.monotonicUs).toNat
    let ts := s.currentNtpTimestamp now
    (d : ℤ) = s.instantUs anchor now.monotonicUs ∧
      ts / 4294967296 = (d / 1000000 + 2208988800) % 4294967296 ∧
      ts % 4294967296 = d % 1000000 * 4294967296 / 1000000 ∧
      d % 1000000 * 4294967296 / 1000000 < 4294967296 ∧
      (ts % 4294967296 * 1000000 / 4294967296 = d % 1000000 ∨
        ts % 4294967296 * 1000000 / 4294967296 + 1 = d % 1000000) ∧
      (∀ (s' : NtpServer) (anchor' : ClockAnchor) (now' : ClockReading),
        s'.clockAnchor = some anchor' → 0 ≤ anchor'.unixSeconds →
        anchor'.unixSeconds < 1099511627776 →
        ntpEra d = ntpEra (s'.instantUs anchor' now'.monotonicUs).toNat →
        s.instantUs anchor now.monotonicUs < s'.instantUs anchor' now'.monotonicUs →
        ts < s'.currentNtpTimestamp now') ∧
      s.currentUtcUnixSeconds now.monotonicUs =
        some (s.instantUs anchor now.monotonicUs / 1000000) := by
  intro d ts
  obtain ⟨hsecond, hnonneg, -⟩ := @satAdd_elapsedSeconds s anchor h₀ h₁ now.monotonicUs
  have hts : ts = encodeInstant d := currentNtpTimestamp_eq_encodeInstant ha h₀ h₁ now
  obtain ⟨hupper, hlower⟩ := encodeInstant_halves d
  rw [← hts] at hupper hlower
  refine ⟨Int.toNat_of_nonneg hnonneg, hupper, hlower, encodeInstant_fraction_lt d, ?_, ?_, ?_⟩
  · rw [hlower]
    exact Fraction.unscale_scale (by decide) (by decide)
  · intro s' anchor' now' ha' h₀' h₁' hera hlt
    rw [hts, currentNtpTimestamp_eq_encodeInstant ha' h₀' h₁' now']
    exact encodeInstant_lt hera (by omega)
  · rw [currentUtcUnixSeconds, ha]
    exact congrArg some hsecond

/-- A server anchored at the last second of NTP era 0. -/
def lastOfEra0 : NtpServer := { fromSocket with clockAnchor := some ⟨2085978495, 0⟩ }

/-- A second and a half later the seconds have wrapped to 0, and the half is still one. -/
theorem timestamp_exact_era1 :
    lastOfEra0.currentNtpTimestamp ⟨1500000, none⟩ / 4294967296 = 0 ∧
      lastOfEra0.currentNtpTimestamp ⟨1500000, none⟩ % 4294967296 = 2147483648 ∧
      lastOfEra0.currentUtcUnixSeconds 1500000 = some 2085978496 := by
  have hd : lastOfEra0.instantUs ⟨2085978495, 0⟩ 1500000 = 2085978496500000 := by decide +kernel
  obtain ⟨-, hupper, hlower, -, -, -, hutc⟩ :=
    @timestamp_exact lastOfEra0 ⟨2085978495, 0⟩ rfl (by decide) (by decide) ⟨1500000, none⟩
  rw [hd] at hupper hlower hutc
  exact ⟨hupper, hlower, hutc⟩

end NtpServer

end GpsNtp
