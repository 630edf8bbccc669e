import GpsNtp.Ntp.Discard
import GpsNtp.Ntp.Runs

/-!
# Ntp/TimestampOrder — time never runs backwards

    anchor second ≤ receive ≤ transmit          (seconds ‖ fraction, as unsigned 64-bit words)

Within NTP era 0 packing keeps the order of instants (`ntpTimestampFromUnix_le`), corrected elapsed
time is monotone and never negative, and the stored reference timestamp is the top of the anchored
second.  So the disciplined clock is monotone from one anchor to the next, and a reply's three
timestamps are in order.
-/

namespace GpsNtp

open MachineInt Machine Bytes

/-! ## Packing keeps order -/

/-- **What packing keeps**: of the seconds the lowest 32 bits, of the fraction everything. -/
theorem ntpTimestampFromUnix_eq_mod {u : ℤ} {r : ℕ} (h₀ : 0 ≤ u) (hu : u < 9223372036854775808)
    (hr : r < 1000000) :
    ntpTimestampFromUnix u r =
      (u.toNat + 2208988800) % 4294967296 * 4294967296 + r * 4294967296 / 1000000 := by
  have hfrac : r * 4294967296 / 1000000 < 4294967296 := by omega
  have hsec : min u64Max (u.toNat + ntpUnixEpochOffsetSecs) = u.toNat + 2208988800 := by
    simp only [u64Max, ntpUnixEpochOffsetSecs]
    omega
  have hshift : ((u.toNat + 2208988800) <<< 32) % 18446744073709551616 =
      ((u.toNat + 2208988800) % 4294967296) <<< 32 := by
    rw [Nat.shiftLeft_eq, Nat.shiftLeft_eq]
    omega
  have hmod : r * 4294967296 / 1000000 % 18446744073709551616 = r * 4294967296 / 1000000 := by
    omega
  simp only [ntpTimestampFromUnix, if_pos h₀, hsec, hshift, ntpFracScale, hmod]
  rw [← Nat.shiftLeft_add_eq_or_of_lt hfrac, Nat.shiftLeft_eq]

theorem ntpTimestampFromUnix_eq {u : ℤ} {r : ℕ} (h₀ : 0 ≤ u) (hu : u < 2085978496)
    (hr : r < 1000000) :
    ntpTimestampFromUnix u r =
      (u.toNat + 2208988800) * 4294967296 + r * 4294967296 / 1000000 := by
  rw [ntpTimestampFromUnix_eq_mod h₀ (by omega) hr, Nat.mod_eq_of_lt (by omega)]

/-- **Packing keeps the order of instants** within NTP era 0. -/
theorem ntpTimestampFromUnix_le {u u' : ℤ} {r r' : ℕ} (h₀ : 0 ≤ u) (hu' : u' < 2085978496)
    (hr : r < 1000000) (hr' : r' < 1000000) (h : u * 1000000 + r ≤ u' * 1000000 + r') :
    ntpTimestampFromUnix u r ≤ ntpTimestampFromUnix u' r' := by
  have hle : u ≤ u' := by omega
  rw [ntpTimestampFromUnix_eq h₀ (by omega) hr, ntpTimestampFromUnix_eq (by omega) hu' hr']
  rcases hle.lt_or_eq with hlt | rfl
  · have : u.toNat + 1 ≤ u'.toNat := by omega
    omega
  · have : r ≤ r' := by omega
    have hdiv : r * 4294967296 / 1000000 ≤ r' * 4294967296 / 1000000 :=
      Nat.div_le_div_right (Nat.mul_le_mul_right _ this)
    omega

/-- An instant before 1970 packs as the Unix epoch. -/
theorem ntpTimestampFromUnix_max (u : ℤ) :
    ntpTimestampFromUnix u 0 = ntpTimestampFromUnix (max u 0) 0 := by
  rcases le_total 0 u with h | h
  · rw [max_eq_left h]
  · rcases h.lt_or_eq with h | rfl
    · rw [max_eq_right h.le, ntpTimestampFromUnix, ntpTimestampFromUnix, if_neg (by omega),
        if_pos le_rfl]
      rfl
    · rfl

theorem ntpTimestampFromUnix_lt {u : ℤ} {r : ℕ} (h₀ : 0 ≤ u) (hu : u < 2085978496)
    (hr : r < 1000000) : ntpTimestampFromUnix u r < 256 ^ 8 := by
  rw [ntpTimestampFromUnix_eq h₀ hu hr]
  omega

/-- The requests that are answered with timestamps. -/
def Datagram.isTimeRequest (d : Datagram) : Prop :=
  requestMode d.bytes = modeClient ∨ requestMode d.bytes = modeSymmetricActive

namespace NtpServer

variable {s t : NtpServer}

/-- The disciplined second is in NTP era 0. -/
def InEra0 (s : NtpServer) (nowUs : ℤ) : Prop :=
  ∃ u, s.currentUtcUnixSeconds nowUs = some u ∧ 0 ≤ u ∧ u < 2085978496

/-! ## The disciplined clock -/

/-- A disciplined timestamp in era 0: anchored second plus corrected elapsed time, exactly. -/
theorem currentNtpTimestamp_eq {now : ClockReading} (h : s.InEra0 now.monotonicUs) :
    ∃ anchor, s.clockAnchor = some anchor ∧
      let elapsed := s.correctedElapsedUs (satSub now.monotonicUs anchor.monotonicUs)
      let u := anchor.unixSeconds + elapsed / 1000000
      0 ≤ u ∧ u < 2085978496 ∧
        s.currentNtpTimestamp now = ntpTimestampFromUnix u (elapsed % 1000000).toNat := by
  obtain ⟨u, hu, h₀, h₁⟩ := h
  cases hanchor : s.clockAnchor with
  | none => simp [currentUtcUnixSeconds, hanchor] at hu
  | some anchor =>
    refine ⟨anchor, rfl, ?_⟩
    have hu : satAdd anchor.unixSeconds
        (s.correctedElapsedUs (satSub now.monotonicUs anchor.monotonicUs) / microsPerSec) = u := by
      simpa [currentUtcUnixSeconds, hanchor] using hu
    have hexact : satAdd anchor.unixSeconds
          (s.correctedElapsedUs (satSub now.monotonicUs anchor.monotonicUs) / microsPerSec) =
        anchor.unixSeconds +
          s.correctedElapsedUs (satSub now.monotonicUs anchor.monotonicUs) / microsPerSec := by
      simp only [satAdd, satI64, i64Min, i64Max] at hu ⊢
      omega
    rw [hexact] at hu
    simp only [microsPerSec] at hu hexact
    refine ⟨by omega, by omega, ?_⟩
    simp only [currentNtpTimestamp, hanchor, microsPerSec, hexact]

/-- **The disciplined clock is monotone** under one anchor and one frequency estimate. -/
theorem currentNtpTimestamp_mono (hf : s.freqPpm < 1000000)
    (hanchor : t.clockAnchor = s.clockAnchor) (hfreq : t.freqPpm = s.freqPpm)
    {now now' : ClockReading} (h : now.monotonicUs ≤ now'.monotonicUs)
    (hera : s.InEra0 now.monotonicUs) (hera' : t.InEra0 now'.monotonicUs) :
    s.currentNtpTimestamp now ≤ t.currentNtpTimestamp now' := by
  obtain ⟨anchor, ha, h₀, h₁, hs⟩ := currentNtpTimestamp_eq hera
  obtain ⟨anchor', ha', h₀', h₁', ht⟩ := currentNtpTimestamp_eq hera'
  obtain rfl : anchor = anchor' := Option.some.inj (ha.symm.trans (hanchor.symm.trans ha'))
  rw [correctedElapsedUs_congr hfreq] at h₀' h₁' ht
  rw [hs, ht]
  have hmono := correctedElapsedUs_mono hf (satSub_mono_left anchor.monotonicUs h)
  have hnonneg := @correctedElapsedUs_nonneg s (satSub now.monotonicUs anchor.monotonicUs)
  exact ntpTimestampFromUnix_le h₀ h₁' (by omega) (by omega) (by omega)

/-- **The reference timestamp does not exceed the time of day**, wherever the phase nudge has put
the anchor. -/
theorem lastSyncNtpTs_le (hwf : s.WellFormed) (hl : s.ppsLocked = true) {now : ClockReading}
    (hera : s.InEra0 now.monotonicUs) : s.lastSyncNtpTs ≤ s.currentNtpTimestamp now := by
  obtain ⟨anchor, ha, h₀, h₁, hs⟩ := currentNtpTimestamp_eq hera
  have hnonneg := @correctedElapsedUs_nonneg s (satSub now.monotonicUs anchor.monotonicUs)
  rw [hwf.sync_ts hl anchor ha, hs, ntpTimestampFromUnix_max]
  refine ntpTimestampFromUnix_le (le_max_right _ _) h₁ (by decide) (by omega) ?_
  rcases le_total 0 anchor.unixSeconds with h | h
  · rw [max_eq_left h]
    omega
  · rw [max_eq_right h]
    omega

/-! ## Between two anchors -/

/-- An event that does not write the anchor leaves the frequency estimate alone too. -/
theorem step_of_not_reanchors {e : Event} (h : s.reanchors e = false) :
    (s.step e).clockAnchor = s.clockAnchor ∧ (s.step e).freqPpm = s.freqPpm := by
  have hsame := sameDiscipline_upto_anchor (not_accepts_of_not_reanchors h)
  exact ⟨clockAnchor_of_not_reanchors h, (congrArg freqPpm hsame).trans rfl⟩

/-- **The clock is monotone from one anchor to the next.** -/
theorem currentNtpTimestamp_run_mono (hwf : s.WellFormed) {evs : List Event}
    (hevs : Throughout step (fun s e => s.reanchors e = false) s evs) {now now' : ClockReading}
    (h : now.monotonicUs ≤ now'.monotonicUs) (hera : s.InEra0 now.monotonicUs)
    (hera' : (run step s evs).InEra0 now'.monotonicUs) :
    s.currentNtpTimestamp now ≤ (run step s evs).currentNtpTimestamp now' := by
  let Inv (t : NtpServer) := t.clockAnchor = s.clockAnchor ∧ t.freqPpm = s.freqPpm
  have hstep : ∀ t e, t.reanchors e = false → Inv t → Inv (t.step e) := by
    rintro t e ht ⟨h₁, h₂⟩
    obtain ⟨h₁', h₂'⟩ := step_of_not_reanchors ht
    exact ⟨h₁'.trans h₁, h₂'.trans h₂⟩
  have hinit : Inv s := ⟨rfl, rfl⟩
  have hrun : Inv (run step s evs) := run_throughout hstep hinit hevs
  exact currentNtpTimestamp_mono hwf.freq_lt hrun.1 hrun.2 h hera hera'

/-! ## Replies -/

/-- **A served time request** is answered with a time reply from one server, the limiter asked. -/
theorem reply_of_served {gpsFix : Bool} {d : Datagram} (hd : d.isTimeRequest)
    {reply : List UInt8}
    (h : (s.handleDatagram gpsFix d.bytes (min d.bytes.length ntpMaxPacketLen) d).2
      = .served reply) :
    ∃ t replyMode, SameClock s t ∧ ntpPacketLen ≤ (d.bytes.take ntpPacketLen).length ∧
      reply = writeTransmitTs
        (buildResponse (d.bytes.take ntpPacketLen)
          (t.disciplineParams gpsFix d.clock.params d.clock.current)
          (s.currentNtpTimestamp d.clock.receive) replyMode)
        (t.currentNtpTimestamp d.clock.transmit) := by
  have hcontrol : ¬requestMode d.bytes = modeControl := by
    rcases hd with h | h <;> rw [h] <;> decide
  have hd : requestMode d.bytes = modeClient ∨ requestMode d.bytes = modeSymmetricActive := hd
  simp only [handleDatagram, if_neg hcontrol, if_pos hd, handleTimeRequest, serveLimited,
    sendReply] at h
  split_ifs at h with h₀ h₁ hshort hlimit hsend
  refine ⟨_, _, sameClock_tryRateLimit d.peer.srcIpV4 d.clock.rateLimit, ?_,
    (Disposition.served.inj h).symm⟩
  rw [List.length_take, le_min_iff]
  simp only [ntpMaxPacketLen, ntpPacketLen] at hshort ⊢
  omega

theorem currentNtpTimestamp_lt {now : ClockReading} (hera : s.InEra0 now.monotonicUs) :
    s.currentNtpTimestamp now < 256 ^ 8 := by
  obtain ⟨anchor, -, h₀, h₁, hs⟩ := currentNtpTimestamp_eq hera
  rw [hs]
  exact ntpTimestampFromUnix_lt h₀ h₁ (by omega)

/-- **A reply at stratum 1 is in order**: reference, receive, transmit. -/
theorem reply_ordered (hwf : s.WellFormed) {gpsFix : Bool} {d : Datagram} (hd : d.isTimeRequest)
    {reply : List UInt8}
    (h : (s.handleDatagram gpsFix d.bytes (min d.bytes.length ntpMaxPacketLen) d).2
      = .served reply) (hone : replyStratum reply = 1)
    (hclock : d.clock.receive.monotonicUs ≤ d.clock.transmit.monotonicUs)
    (hera : s.InEra0 d.clock.receive.monotonicUs) (hera' : s.InEra0 d.clock.transmit.monotonicUs) :
    replyReferenceTs reply ≤ replyReceiveTs reply ∧
      replyReceiveTs reply ≤ replyTransmitTs reply := by
  obtain ⟨t, replyMode, ht, hlen, rfl⟩ := reply_of_served hd h
  obtain ⟨hstratum, href, hrecv, hxmit⟩ := timeReply_fields hlen
    (t.disciplineParams gpsFix d.clock.params d.clock.current)
    (s.currentNtpTimestamp d.clock.receive) (t.currentNtpTimestamp d.clock.transmit) replyMode
  rw [hone] at hstratum
  have hdp : (t.disciplineParams gpsFix d.clock.params d.clock.current).stratum = 1 := by
    split_ifs at hstratum with hunsync
    · exact absurd hstratum (by decide)
    · exact hstratum.symm
  have hl : s.ppsLocked = true := by
    rw [ht.disciplineParams, stratum_eq_one_iff hwf] at hdp
    obtain ⟨edgeUs, hlast, -⟩ := hdp
    exact hwf.locked_iff.mpr (by rw [hlast]; rfl)
  have hrefTs : (t.disciplineParams gpsFix d.clock.params d.clock.current).refTs
      = s.lastSyncNtpTs := (congrArg lastSyncNtpTs ht).trans rfl
  have hle := lastSyncNtpTs_le hwf hl hera
  have hlt := currentNtpTimestamp_lt hera
  have hmono := currentNtpTimestamp_mono hwf.freq_lt rfl rfl hclock hera hera'
  rw [href, hrecv, hxmit, if_pos hdp, hrefTs, ht.currentNtpTimestamp, Nat.mod_eq_of_lt hlt,
    Nat.mod_eq_of_lt (hle.trans_lt hlt), Nat.mod_eq_of_lt (currentNtpTimestamp_lt hera')]
  exact ⟨hle, hmono⟩

theorem SameClock.inEra0 (h : SameClock s t) {nowUs : ℤ} (hera : s.InEra0 nowUs) :
    t.InEra0 nowUs := by
  rw [h]
  exact hera

/-- **Timestamps are ordered.**  In every reachable state, while the disciplined second stays in
NTP era 0: the disciplined clock is monotone from one anchor to the next, and every time reply that
`poll` sends at stratum 1 has its reference, receive and transmit timestamps in order. -/
theorem timestamps_ordered (hs : s.Reachable) :
    (∀ evs now now', Throughout step (fun s e => s.reanchors e = false) s evs →
      now.monotonicUs ≤ now'.monotonicUs →
      s.InEra0 now.monotonicUs → (run step s evs).InEra0 now'.monotonicUs →
      s.currentNtpTimestamp now ≤ (run step s evs).currentNtpTimestamp now') ∧
    (∀ gpsFix (ds : List Datagram), ∀ p ∈ ds.zip (s.poll gpsFix ds).2, ∀ reply,
      p.2 = .served reply → p.1.isTimeRequest → replyStratum reply = 1 →
      p.1.clock.receive.monotonicUs ≤ p.1.clock.transmit.monotonicUs →
      s.InEra0 p.1.clock.receive.monotonicUs → s.InEra0 p.1.clock.transmit.monotonicUs →
      replyReferenceTs reply ≤ replyReceiveTs reply ∧
        replyReceiveTs reply ≤ replyTransmitTs reply) := by
  have hwf := hs.wellFormed
  refine ⟨fun evs now now' hevs => currentNtpTimestamp_run_mono hwf hevs, ?_⟩
  intro gpsFix ds p hp reply hserved hd hone hclock hera hera'
  obtain ⟨t, ht, hdisposition⟩ := mem_zip_pollLoop hp
  exact reply_ordered (ht.wellFormed hwf) hd (hdisposition.symm.trans hserved) hone hclock
    (ht.inEra0 hera) (ht.inEra0 hera')

/-- The request is served at stratum 1, its timestamps in order. -/
theorem timestamps_ordered_clientRequest :
    firstLock.currentNtpTimestamp ⟨2000000, none⟩ ≤ firstLock.currentNtpTimestamp ⟨2500000, none⟩ ∧
      ∃ reply, (firstLock.poll true [clientRequest]).2 = [.served reply] ∧
        replyStratum reply = 1 ∧ replyReferenceTs reply ≤ replyReceiveTs reply ∧
        replyReceiveTs reply ≤ replyTransmitTs reply := by
  have hs := reachable_firstLock
  have h₀ : firstLock.InEra0 2000000 := ⟨101, rfl, by decide, by decide⟩
  have h₁ : firstLock.InEra0 2500000 := ⟨101, rfl, by decide, by decide⟩
  have h₂ : firstLock.InEra0 2500001 := ⟨101, rfl, by decide, by decide⟩
  have hserved : ∃ reply, (firstLock.poll true [clientRequest]).2 = [.served reply] ∧
      replyStratum reply = 1 := ⟨_, rfl, rfl⟩
  obtain ⟨reply, hpoll, hone⟩ := hserved
  have hrequest : clientRequest.isTimeRequest := Or.inl rfl
  have hclock : clientRequest.clock.receive.monotonicUs ≤
      clientRequest.clock.transmit.monotonicUs := by decide
  have hmem : (clientRequest, .served reply) ∈
      [clientRequest].zip (firstLock.poll true [clientRequest]).2 := by
    rw [hpoll]
    exact List.mem_cons_self
  exact ⟨(timestamps_ordered hs).1 [] _ _ trivial (by decide) h₀ h₁, reply, hpoll, hone,
    (timestamps_ordered hs).2 true [clientRequest] _ hmem reply rfl hrequest hone hclock h₁ h₂⟩

end NtpServer

end GpsNtp
