import GpsNtp.Ntp.Dispersion
import GpsNtp.Ntp.Reflection
import GpsNtp.Ntp.TimestampOrder

/-!
# Ntp/Shapes — the three shapes of a time reply

                   LI        stratum   refid   root dispersion   reference timestamp
    synchronised   pending   1         GPS     below 1 s         last sync
    unsynchronised 3         0         INIT                      0
    Kiss-o'-Death  3         0         RATE    0                 0

Two builders and a dispatcher assemble these fields from conditions tested in different places.  On
a well-formed server the conditions are one: stratum, leap, reference id and reference timestamp all
follow the lock and the age of the last pulse (`Ntp/Discipline`), and the dispersion is below a
second wherever the stratum is 1 (`Ntp/Dispersion`).
-/

namespace GpsNtp

open MachineInt Machine Bytes

/-! ## Reading a reply -/

/-- The root dispersion field, in units of 2⁻¹⁶ s. -/
def replyRootDisp (reply : List UInt8) : ℕ := ofBe (field 8 4 reply)

/-- The reference id field. -/
def replyRefId (reply : List UInt8) : List UInt8 := field 12 4 reply

/-- The Originate Timestamp field. -/
def replyOriginate (reply : List UInt8) : List UInt8 := field 24 8 reply

section Layout

variable {req : List UInt8} (h : ntpPacketLen ≤ req.length)

include h

/-- **The fields of a time reply** that are not timestamps of the server. -/
theorem timeReply_layout (dp : DisciplineParams) (receiveTs transmitTs : ℕ) (replyMode : UInt8) :
    let r := writeTransmitTs (buildResponse req dp receiveTs replyMode) transmitTs
    r.length = 48 ∧ replyRootDisp r = dp.rootDispShort % 256 ^ 4 ∧
      replyRefId r = (if dp.stratum = 1 then refIdGps else refIdInit) ∧
      replyOriginate r = field 40 8 req := by
  intro r
  obtain ⟨head, refId, hhead, hrefId, -, hr⟩ :=
    writeTransmitTs_buildResponse h dp receiveTs transmitTs replyMode
  have horigin : (field 40 8 req).length = 8 := length_field h
  have hr : r = _ := hr
  have hdisp : replyRootDisp r = ofBe (toBe 4 dp.rootDispShort) := rfl
  refine ⟨?_, by rw [hdisp, ofBe_toBe], ?_, ?_⟩
  · rw [hr]
    simp [hhead, hrefId, horigin]
  · by_cases hone : dp.stratum = 1 <;> simp only [r, replyRefId, buildResponse, hone] <;> rfl
  · rw [replyOriginate, hr, field_append_of_le (by omega), field_append_of_le (by omega),
      field_append_of_le (by simp [hhead, hrefId]), hhead, hrefId, length_toBe]
    exact field_append_self horigin

/-- **The fields of a Kiss-o'-Death**: the kiss code and the originate timestamp, else zeros. -/
theorem kodReply_layout (version replyMode : UInt8) :
    let r := buildKodResponse req version replyMode
    r.length = 48 ∧ replyRefId r = kodKissRate ∧ replyOriginate r = field 40 8 req ∧
      field 2 10 r = List.replicate 10 0 ∧ field 16 8 r = List.replicate 8 0 ∧
      field 32 16 r = List.replicate 16 0 := by
  intro r
  have horigin : (field 40 8 req).length = 8 := length_field h
  obtain ⟨head, hhead, hr⟩ : ∃ head : List UInt8, head.length = 24 ∧
      r = head ++ (field 40 8 req ++ List.replicate 16 0) := ⟨_, rfl, List.append_assoc _ _ _⟩
  refine ⟨?_, rfl, ?_, rfl, rfl, ?_⟩
  · rw [hr, List.length_append, List.length_append, hhead, horigin]
    rfl
  · rw [replyOriginate, hr, field_append_of_le (by omega), hhead]
    exact field_append_self horigin
  · rw [hr, field_append_of_le (by omega), field_append_of_le (by omega), hhead, horigin]
    rfl

end Layout

/-! ## The shapes -/

/-- What a time reply can say. -/
inductive ReplyShape where
  | synchronised
  | unsynchronised
  | kissOfDeath
deriving DecidableEq

/-- A reply says it, of the server that sent it. -/
def HasShape (s : NtpServer) (reply : List UInt8) : ReplyShape → Prop
  | .synchronised =>
    packetLeap reply = s.pendingLeap ∧ s.pendingLeap ≤ 2 ∧ replyStratum reply = 1 ∧
      replyRefId reply = refIdGps ∧ replyRootDisp reply < 65536 ∧
      replyReferenceTs reply = s.lastSyncNtpTs
  | .unsynchronised =>
    packetLeap reply = 3 ∧ replyStratum reply = 0 ∧ replyRefId reply = refIdInit ∧
      replyReferenceTs reply = 0
  | .kissOfDeath =>
    packetLeap reply = 3 ∧ replyStratum reply = 0 ∧ replyRefId reply = kodKissRate ∧
      field 2 10 reply = List.replicate 10 0 ∧ field 16 8 reply = List.replicate 8 0 ∧
      field 32 16 reply = List.replicate 16 0

/-- The reference id tells the shapes apart. -/
def ReplyShape.refId : ReplyShape → List UInt8
  | .synchronised => refIdGps
  | .unsynchronised => refIdInit
  | .kissOfDeath => kodKissRate

theorem HasShape.refId {s : NtpServer} {reply : List UInt8} {shape : ReplyShape}
    (h : HasShape s reply shape) : replyRefId reply = shape.refId := by
  cases shape with
  | synchronised => exact h.2.2.2.1
  | unsynchronised => exact h.2.2.1
  | kissOfDeath => exact h.2.2.1

theorem ReplyShape.refId_injective : ∀ {a b : ReplyShape}, a.refId = b.refId → a = b := by
  intro a b h
  cases a <;> cases b <;> first | rfl | exact absurd h (by decide)

/-- **A reply has one shape at most.** -/
theorem HasShape.unique {s : NtpServer} {reply : List UInt8} {shape shape' : ReplyShape}
    (h : HasShape s reply shape) (h' : HasShape s reply shape') : shape' = shape :=
  ReplyShape.refId_injective (h'.refId.symm.trans h.refId)

namespace NtpServer

variable {s : NtpServer}

/-! ## What the reply is built from -/

theorem ntpTimestampFromUnix_zero_lt (u : ℤ) : ntpTimestampFromUnix u 0 < 256 ^ 8 := by
  have hfrac : 0 * ntpFracScale / 1000000 % 18446744073709551616 = 0 := by norm_num
  rw [ntpTimestampFromUnix, hfrac, Nat.or_zero]
  exact Nat.mod_lt _ (by decide)

/-- The limiter's verdict does not change what the server advertises. -/
theorem tryRateLimit_disciplineParams (srcIpV4 : Option UInt32) (nowUs : ℤ) (gpsFix : Bool)
    (paramsUs : ℤ) (reading : ClockReading) :
    (s.tryRateLimit srcIpV4 nowUs).1.disciplineParams gpsFix paramsUs reading =
      s.disciplineParams gpsFix paramsUs reading := by
  rcases @tryRateLimit_cases s srcIpV4 nowUs with ⟨l, h⟩ | ⟨l, h⟩ <;> rw [h] <;> rfl

theorem leap_le (hwf : s.WellFormed) (gpsFix : Bool) (nowUs : ℤ) (reading : ClockReading) :
    (s.disciplineParams gpsFix nowUs reading).leap ≤ 3 := by
  have hleap : (s.disciplineParams gpsFix nowUs reading).leap =
      if (s.disciplineParams gpsFix nowUs reading).stratum = 1 then s.pendingLeap else 3 := rfl
  rw [hleap]
  split_ifs
  · exact UInt8.le_trans hwf.leap (by decide)
  · decide

/-- **A built time reply has the shape of its stratum.** -/
theorem hasShape_timeReply (hwf : s.WellFormed) {req : List UInt8}
    (hreq : ntpPacketLen ≤ req.length) (gpsFix : Bool) {nowUs : ℤ} (reading : ClockReading)
    (hclock : s.SinceLastPulse nowUs) (receiveTs transmitTs : ℕ) (replyMode : UInt8) :
    let dp := s.disciplineParams gpsFix nowUs reading
    HasShape s (writeTransmitTs (buildResponse req dp receiveTs replyMode) transmitTs)
      (if dp.stratum = 1 then .synchronised else .unsynchronised) := by
  intro dp
  obtain ⟨-, hdisp, hrefId, -⟩ := timeReply_layout hreq dp receiveTs transmitTs replyMode
  obtain ⟨hstratum, href, -, -⟩ := timeReply_fields hreq dp receiveTs transmitTs replyMode
  have hleap : packetLeap (writeTransmitTs (buildResponse req dp receiveTs replyMode) transmitTs) =
      dp.leap :=
    header_leap replyMode (leap_le hwf gpsFix nowUs reading) (replyVersion_le _)
  by_cases hone : dp.stratum = 1
  · have hdpleap : dp.leap = s.pendingLeap := if_pos hone
    have hshort := @rootDispShort_eq s hwf gpsFix nowUs reading hclock
    have hlt := dispUs_lt_of_stratum_eq_one hwf hclock hone
    have hlow := (dispUs_mem hwf gpsFix hclock).1
    obtain ⟨t, ht, -⟩ := (stratum_eq_one_iff hwf gpsFix nowUs reading).mp hone
    have hl : s.ppsLocked = true := hwf.locked_iff.mpr (by rw [ht]; rfl)
    obtain ⟨anchor, hanchor⟩ := Option.isSome_iff_exists.mp (hwf.anchor_of_locked hl)
    have hsync : s.lastSyncNtpTs < 256 ^ 8 := by
      rw [hwf.sync_ts hl anchor hanchor]
      exact ntpTimestampFromUnix_zero_lt _
    rw [if_pos hone] at hrefId href ⊢
    refine ⟨hleap.trans hdpleap, hwf.leap, ?_, hrefId, ?_, ?_⟩
    · rw [hstratum, hone]
      rfl
    · have hshort : (dp.rootDispShort : ℤ) = _ := hshort
      have hsecond : dp.rootDispShort < 65536 := by omega
      rw [hdisp]
      exact (Nat.mod_le _ _).trans_lt hsecond
    · rw [href]
      exact Nat.mod_eq_of_lt hsync
  · have hsixteen : dp.stratum = 16 := (stratum_eq gpsFix nowUs reading).resolve_left hone
    have hdpleap : dp.leap = 3 := if_neg hone
    rw [if_neg hone] at hrefId href ⊢
    refine ⟨hleap.trans hdpleap, ?_, hrefId, href.trans rfl⟩
    rw [hstratum, hsixteen]
    rfl

/-- A built Kiss-o'-Death has its shape. -/
theorem hasShape_kodReply {req : List UInt8} (hreq : ntpPacketLen ≤ req.length)
    (version replyMode : UInt8) :
    HasShape s (buildKodResponse req version replyMode) .kissOfDeath := by
  obtain ⟨-, hrefId, -, hzeros⟩ := kodReply_layout hreq version replyMode
  exact ⟨header_leap replyMode (by decide) (replyVersion_le _), rfl, hrefId, hzeros⟩

/-! ## One request, one reply -/

/-- The sender's view of a whole datagram: cutting it to the packet length loses no header field. -/
theorem take_packet {bytes : List UInt8} (h : ntpPacketLen ≤ bytes.length) :
    ntpPacketLen ≤ (bytes.take ntpPacketLen).length ∧
      field 40 8 (bytes.take ntpPacketLen) = field 40 8 bytes ∧
      requestVersion (bytes.take ntpPacketLen) = requestVersion bytes := by
  refine ⟨?_, ?_, ?_⟩
  · rw [List.length_take, min_eq_left h]
  · rw [field, field, List.drop_take, List.take_take]
    rfl
  · cases bytes with
    | nil => rfl
    | cons b bs => rfl

/-- **A kept time request is answered once**: with a Kiss-o'-Death if the limiter refuses the
source, else with a time reply. -/
theorem handleDatagram_timeRequest {d : Datagram} (hkept : d.discarded s.acl = false)
    (hmode : d.isTimeRequest) (hsend : d.sendOk = true) (gpsFix : Bool) :
    (s.handleDatagram gpsFix d.bytes (min d.bytes.length ntpMaxPacketLen) d).2 =
      if (s.tryRateLimit d.peer.srcIpV4 d.clock.rateLimit).2 = true then
        .served (d.timeReply gpsFix (s.currentNtpTimestamp d.clock.receive)
          (s.tryRateLimit d.peer.srcIpV4 d.clock.rateLimit).1)
      else .limited d.kodReply := by
  rw [handleDatagram_of_time gpsFix hkept hmode]
  simp only [serveLimited, sendReply, hsend]
  cases (s.tryRateLimit d.peer.srcIpV4 d.clock.rateLimit).2 <;> rfl

/-- A poll of one datagram. -/
theorem poll_singleton (gpsFix : Bool) (d : Datagram) :
    (s.poll gpsFix [d]).2 =
      [(s.handleDatagram gpsFix d.bytes (min d.bytes.length ntpMaxPacketLen) d).2] := by
  rw [poll, pollLoop_cons_snd, (pollStep_eq gpsFix _ d).2]
  simp only [pollLoop, ite_self]

/-- A time request long enough and not denied is kept. -/
theorem discarded_timeRequest {acl : Acl} {d : Datagram} (hmode : d.isTimeRequest)
    (hlen : ntpPacketLen ≤ d.bytes.length) (hacl : d.denied acl = false) :
    d.discarded acl = false := by
  have hcontrol : ¬requestMode d.bytes = modeControl := by
    rcases hmode with h | h <;> rw [h] <;> decide
  have hmode : requestMode d.bytes = modeClient ∨ requestMode d.bytes = modeSymmetricActive := hmode
  have hempty : d.bytes.isEmpty = false := by
    cases hb : d.bytes with
    | nil => exact absurd hlen (by rw [hb]; decide)
    | cons b bs => rfl
  have hlong : ¬min d.bytes.length ntpMaxPacketLen < ntpPacketLen := by
    simp only [ntpPacketLen, ntpMaxPacketLen] at hlen ⊢
    omega
  rw [Datagram.discarded, hempty, hacl, Datagram.malformed, if_neg hcontrol, if_pos hmode,
    decide_eq_false hlong]
  rfl

/-- **One request, one reply, one shape.**  In every reachable state, a time request of 48 bytes or
more from an admitted source is answered by one packet of 48 bytes that returns its originate
timestamp, its version where that is defined and the mode that answers its own, and that has exactly
one of the three shapes, Kiss-o'-Death precisely when the limiter refuses the source. -/
theorem timeRequest_reply (hs : s.Reachable) (gpsFix : Bool) {d : Datagram}
    (hmode : d.isTimeRequest) (hlen : ntpPacketLen ≤ d.bytes.length)
    (hacl : d.denied s.acl = false) (hsend : d.sendOk = true)
    (hclock : s.SinceLastPulse d.clock.params) :
    ∃ reply shape, (s.poll gpsFix [d]).2.map Disposition.reply = [some reply] ∧
      reply.length = 48 ∧ replyOriginate reply = field 40 8 d.bytes ∧
      requestVersion reply = (if 1 ≤ requestVersion d.bytes ∧ requestVersion d.bytes ≤ 4 then
        requestVersion d.bytes else 4) ∧
      requestMode reply = (if requestMode d.bytes = 3 then 4 else 2) ∧
      HasShape s reply shape ∧ (∀ shape', HasShape s reply shape' → shape' = shape) ∧
      (shape = .kissOfDeath ↔
        (s.tryRateLimit d.peer.srcIpV4 d.clock.rateLimit).2 = false) := by
  obtain ⟨hreq, horigin, hversion⟩ := take_packet hlen
  have hreplyMode : replyModeFor (requestMode d.bytes) &&& 7 =
      if requestMode d.bytes = 3 then 4 else 2 := by
    unfold replyModeFor modeClient
    split_ifs <;> rfl
  rw [poll_singleton,
    handleDatagram_timeRequest (discarded_timeRequest hmode hlen hacl) hmode hsend]
  cases hlimit : (s.tryRateLimit d.peer.srcIpV4 d.clock.rateLimit).2 with
  | true =>
    obtain ⟨hlength, -, -, hfield⟩ := timeReply_layout hreq
      (s.disciplineParams gpsFix d.clock.params d.clock.current)
      (s.currentNtpTimestamp d.clock.receive)
      ((s.tryRateLimit d.peer.srcIpV4 d.clock.rateLimit).1.currentNtpTimestamp d.clock.transmit)
      (replyModeFor (requestMode d.bytes))
    have hshape := hasShape_timeReply hs.wellFormed hreq gpsFix d.clock.current hclock
      (s.currentNtpTimestamp d.clock.receive)
      ((s.tryRateLimit d.peer.srcIpV4 d.clock.rateLimit).1.currentNtpTimestamp d.clock.transmit)
      (replyModeFor (requestMode d.bytes))
    simp only [if_pos, Datagram.timeReply, tryRateLimit_disciplineParams]
    refine ⟨_, _, rfl, hlength, hfield.trans horigin, ?_, ?_, hshape, fun _ => hshape.unique, ?_⟩
    · rw [← hversion]
      exact header_version _ _ (replyVersion_le _)
    · rw [← hreplyMode]
      exact requestMode_timeReply ..
    · split_ifs <;> simp
  | false =>
    obtain ⟨hlength, -, hfield, -⟩ := kodReply_layout hreq (requestVersion d.bytes)
      (replyModeFor (requestMode d.bytes))
    have hshape := @hasShape_kodReply s _ hreq (requestVersion d.bytes)
      (replyModeFor (requestMode d.bytes))
    refine ⟨_, .kissOfDeath, rfl, hlength, hfield.trans horigin, ?_, ?_, hshape,
      fun _ => hshape.unique, by simp⟩
    · exact header_version _ _ (replyVersion_le _)
    · rw [← hreplyMode]
      exact requestMode_buildKodResponse ..

/-- The request of a client, half a second after the lock, is answered by a synchronised reply. -/
theorem timeRequest_reply_clientRequest :
    ∃ reply, (firstLock.poll true [clientRequest]).2.map Disposition.reply = [some reply] ∧
      reply.length = 48 ∧ HasShape firstLock reply .synchronised := by
  have hclock : firstLock.SinceLastPulse clientRequest.clock.params := fun t ht => by
    rw [← Option.some.inj ht]
    decide
  have hone : (firstLock.poll true [clientRequest]).2.map
      (fun disposition => disposition.reply.map replyStratum) = [some 1] := by decide +kernel
  obtain ⟨reply, shape, hpoll, hlength, -, -, -, hshape, -, -⟩ :=
    timeRequest_reply reachable_firstLock true (Or.inl rfl) (by decide) (by decide) rfl hclock
  have hstratum : replyStratum reply = 1 := by
    have hmap := congrArg (List.map (Option.map replyStratum)) hpoll
    rw [List.map_map] at hmap
    exact (Option.some.inj (List.cons.inj (hmap.symm.trans hone)).1)
  refine ⟨reply, hpoll, hlength, ?_⟩
  cases shape with
  | synchronised => exact hshape
  | unsynchronised => exact absurd (hshape.2.1.symm.trans hstratum) (by decide)
  | kissOfDeath => exact absurd (hshape.2.1.symm.trans hstratum) (by decide)

end NtpServer

end GpsNtp
