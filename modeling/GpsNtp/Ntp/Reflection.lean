import GpsNtp.Ntp.Discard

/-!
# Ntp/Reflection — a reply is never answered

    request   mode 3, 1, 6 ────────▸  reply   mode 4, 2, 6 with the response bit
    reply  ──────────────▸ ✗

The three packet builders write modes that the dispatcher of `poll` discards, before it asks the
rate limiter.  So replies fed back into any server are malformed datagrams in the sense of
`Ntp/Discard`, and no exchange of packets between two servers goes on by itself.
-/

namespace GpsNtp

open MachineInt Bytes

/-! ## The modes of the replies -/

/-- A time request is never answered in a mode that is answered. -/
theorem replyModeFor_eq (mode : UInt8) :
    replyModeFor mode &&& 7 = modeServer ∨ replyModeFor mode &&& 7 = modeSymmetricPassive := by
  unfold replyModeFor
  split_ifs
  · exact Or.inl rfl
  · exact Or.inr rfl

theorem requestMode_buildKodResponse (req : List UInt8) (version replyMode : UInt8) :
    requestMode (buildKodResponse req version replyMode) = replyMode &&& 7 :=
  header_mode 3 (replyVersion version) replyMode

theorem requestMode_timeReply (req : List UInt8) (dp : DisciplineParams)
    (receiveTs transmitTs : ℕ) (replyMode : UInt8) :
    requestMode (writeTransmitTs (buildResponse req dp receiveTs replyMode) transmitTs) =
      replyMode &&& 7 :=
  header_mode dp.leap (replyVersion (requestVersion req)) replyMode

/-- The first bytes of a mode-6 reply, whatever its payload. -/
theorem buildMode6Response_eq_cons (req : List UInt8) (version : UInt8) (dp : DisciplineParams)
    (stats : NtpServer.ServoStats) :
    ∃ errorBit rest, buildMode6Response req version dp stats =
      ((replyVersion version <<< 3) ||| modeControl) ::
        (mode6ResponseBit ||| errorBit ||| (req.getD 1 0 &&& 0x1f)) :: rest := by
  simp only [buildMode6Response, buildMode6ResponseWith]
  split_ifs <;> exact ⟨_, _, rfl⟩

theorem requestMode_control (version : UInt8) (rest : List UInt8) :
    requestMode (((replyVersion version <<< 3) ||| modeControl) :: rest) = modeControl := by
  have hmode := header_mode 0 (replyVersion version) modeControl
  rwa [show (0 : UInt8) <<< 6 = 0 from rfl, UInt8.zero_or] at hmode

/-- The response bit stands, whatever is written beside it. -/
theorem responseBit_ne_zero (errorBit opcode : UInt8) :
    (mode6ResponseBit ||| errorBit ||| opcode) &&& mode6ResponseBit ≠ 0 := by
  intro h
  have hbit := congrArg (fun x : UInt8 => x.toBitVec.getLsbD 7) h
  simp [mode6ResponseBit] at hbit

/-- **A packet in a reply's mode is discarded**, from whatever source. -/
theorem malformed_of_mode {d : Datagram} (hmode : requestMode d.bytes = modeServer ∨
    requestMode d.bytes = modeSymmetricPassive) : d.malformed = true := by
  unfold Datagram.malformed
  rcases hmode with h | h <;> rw [h] <;> rfl

theorem malformed_of_kod {d d₀ : Datagram} (h : d.bytes = d₀.kodReply) : d.malformed = true := by
  refine malformed_of_mode ?_
  rw [h, Datagram.kodReply, requestMode_buildKodResponse]
  exact replyModeFor_eq _

theorem malformed_of_timeReply {d d₀ : Datagram} {gpsFix : Bool} {receiveNtpTs : ℕ}
    {s : NtpServer} (h : d.bytes = d₀.timeReply gpsFix receiveNtpTs s) : d.malformed = true := by
  refine malformed_of_mode ?_
  rw [h, Datagram.timeReply, requestMode_timeReply]
  exact replyModeFor_eq _

theorem malformed_of_controlReply {d d₀ : Datagram} {gpsFix : Bool} {s : NtpServer}
    (h : d.bytes = d₀.controlReply gpsFix s) : d.malformed = true := by
  obtain ⟨errorBit, rest, hr⟩ := buildMode6Response_eq_cons
    (d₀.bytes.take (min d₀.bytes.length ntpMaxPacketLen)) (requestVersion d₀.bytes)
    (s.disciplineParams gpsFix d₀.clock.params d₀.clock.current) s.servoStats
  have hbytes : d.bytes = _ := h.trans hr
  have hmode : requestMode d.bytes = modeControl := by rw [hbytes, requestMode_control]
  unfold Datagram.malformed
  rw [if_pos hmode, hbytes, Bool.or_eq_true, bne_iff_ne]
  exact Or.inr (responseBit_ne_zero _ _)

namespace NtpServer

variable {s : NtpServer}

/-! ## The replies of a poll -/

/-- What goes to the socket is the refusal's packet or the answer of some server. -/
theorem reply_serveLimited {srcIpV4 : Option UInt32} {clock : PollClock} {sendOk : Bool}
    {refusal : Disposition} {resp : NtpServer → List UInt8} {r : List UInt8}
    (h : (s.serveLimited srcIpV4 clock sendOk refusal resp).2.reply = some r) :
    refusal.reply = some r ∨ ∃ t, r = resp t := by
  simp only [serveLimited, sendReply] at h
  split_ifs at h
  · exact Or.inl h
  · exact Or.inr ⟨_, (Option.some.inj h).symm⟩
  · exact Or.inr ⟨_, (Option.some.inj h).symm⟩

/-- **The replies to one datagram** are of three kinds. -/
theorem reply_handleDatagram {gpsFix : Bool} {d : Datagram} {r : List UInt8}
    (h : (s.handleDatagram gpsFix d.bytes (min d.bytes.length ntpMaxPacketLen) d).2.reply =
      some r) :
    r = d.kodReply ∨ (∃ t, r = d.controlReply gpsFix t) ∨
      ∃ receiveNtpTs t, r = d.timeReply gpsFix receiveNtpTs t := by
  have hkept : d.discarded s.acl = false := by
    cases hd : d.discarded s.acl with
    | false => rfl
    | true =>
      have hnone := (@serveStep_of_discarded ⟨s, []⟩ (gpsFix, d) hd).2
      rw [serveStep, (pollStep_eq gpsFix ⟨s, []⟩ d).2, h] at hnone
      cases hnone
  rcases mode_of_kept hkept with hmode | hmode
  · rw [handleDatagram_of_control gpsFix hkept hmode] at h
    rcases reply_serveLimited h with h | ⟨t, h⟩
    · cases h
    · exact Or.inr (Or.inl ⟨t, h⟩)
  · rw [handleDatagram_of_time gpsFix hkept hmode] at h
    rcases reply_serveLimited h with h | ⟨t, h⟩
    · exact Or.inl (Option.some.inj h).symm
    · exact Or.inr (Or.inr ⟨_, t, h⟩)

/-- What `poll` made of a datagram it made at some server. -/
theorem mem_pollLoop {gpsFix : Bool} {st : PollState} {ds : List Datagram} {x : Disposition}
    (hx : x ∈ (pollLoop gpsFix st ds).2) :
    ∃ d ∈ ds, ∃ t : NtpServer,
      x = (t.handleDatagram gpsFix d.bytes (min d.bytes.length ntpMaxPacketLen) d).2 := by
  induction ds generalizing st with
  | nil => exact absurd hx List.not_mem_nil
  | cons d rest ih =>
    rw [pollLoop_cons_snd] at hx
    rcases List.mem_cons.mp hx with rfl | hx
    · exact ⟨d, List.mem_cons_self, st.server, (pollStep_eq gpsFix st d).2⟩
    · split_ifs at hx
      · exact absurd hx List.not_mem_nil
      · obtain ⟨d', hd', t, ht⟩ := ih hx
        exact ⟨d', List.mem_cons_of_mem _ hd', t, ht⟩

/-- A packet that some server sends in answer to some datagram. -/
def IsReply (r : List UInt8) : Prop :=
  ∃ (s : NtpServer) (gpsFix : Bool) (ds : List Datagram), ∃ x ∈ (s.poll gpsFix ds).2,
    x.reply = some r

/-- **Every reply is a packet the dispatcher discards.** -/
theorem IsReply.malformed {d : Datagram} (h : IsReply d.bytes) : d.malformed = true := by
  obtain ⟨s, gpsFix, ds, x, hx, hr⟩ := h
  obtain ⟨d₀, -, t, rfl⟩ := mem_pollLoop hx
  rcases reply_handleDatagram hr with h | ⟨t, h⟩ | ⟨receiveNtpTs, t, h⟩
  · exact malformed_of_kod h
  · exact malformed_of_controlReply h
  · exact malformed_of_timeReply h

/-! ## Discarded batches -/

/-- A batch of discarded datagrams is not answered and moves the ACL count at most. -/
theorem pollLoop_of_discarded (gpsFix : Bool) (st : PollState) {ds : List Datagram}
    (h : ∀ d ∈ ds, ∀ acl, d.discarded acl = true) :
    (∀ x ∈ (pollLoop gpsFix st ds).2, x.reply = none) ∧
      ∃ n, (pollLoop gpsFix st ds).1 = st.server.withAclBlocked n := by
  induction ds generalizing st with
  | nil => exact ⟨fun x hx => absurd hx List.not_mem_nil, st.server.aclBlockedTotal, rfl⟩
  | cons d rest ih =>
    obtain ⟨⟨n, hn⟩, hnone⟩ :=
      @serveStep_of_discarded st (gpsFix, d) (h d List.mem_cons_self _)
    have hn : (pollStep gpsFix st d).1.server = st.server.withAclBlocked n := hn
    have hnone : (pollStep gpsFix st d).2.reply = none := hnone
    obtain ⟨hrest, m, hm⟩ :=
      ih (pollStep gpsFix st d).1 fun d' hd' => h d' (List.mem_cons_of_mem _ hd')
    rw [pollLoop_cons_snd, pollLoop_cons_fst]
    refine ⟨fun x hx => ?_, ?_⟩
    · rcases List.mem_cons.mp hx with rfl | hx
      · exact hnone
      · split_ifs at hx
        · exact absurd hx List.not_mem_nil
        · exact hrest x hx
    · split_ifs
      · exact ⟨n, hn⟩
      · exact ⟨m, by rw [hm, hn]; rfl⟩

/-- **No reflection.**  Whatever replies some servers sent for some datagrams, time replies,
Kiss-o'-Deaths and mode-6 responses alike: fed back to any server, from any source, none of them is
answered, and the server is as it was but for the ACL count. -/
theorem replies_not_answered (s : NtpServer) (gpsFix : Bool) {ds : List Datagram}
    (h : ∀ d ∈ ds, IsReply d.bytes) :
    let after := s.poll gpsFix ds
    (∀ x ∈ after.2, x.reply = none) ∧
      after.1 = { s with aclBlockedTotal := after.1.aclBlockedTotal } := by
  intro after
  have hdiscarded : ∀ d ∈ ds, ∀ acl, d.discarded acl = true := fun d hd acl => by
    rw [Datagram.discarded, (h d hd).malformed, Bool.or_true]
  obtain ⟨hnone, n, hn⟩ :=
    pollLoop_of_discarded gpsFix ⟨s, List.replicate ntpMaxPacketLen 0⟩ hdiscarded
  have hn : after.1 = s.withAclBlocked n := hn
  exact ⟨hnone, by rw [hn]; rfl⟩

/-- The reply to a client request, sent back to the server from another address. -/
theorem replies_not_answered_clientRequest :
    ∃ reply, (fromSocket.poll false [clientRequest]).2 = [.served reply] ∧
      ((fromSocket.poll false [{ clientRequest with bytes := reply, peer := .v4 2 123 }]).2.map
        Disposition.reply).all Option.isNone := by
  refine ⟨_, rfl, ?_⟩
  rw [List.all_map, List.all_eq_true]
  intro x hx
  refine Option.isNone_iff_eq_none.mpr
    ((replies_not_answered fromSocket false fun d hd => ?_).1 x hx)
  rw [List.mem_singleton.mp hd]
  exact ⟨fromSocket, false, [clientRequest], _, List.mem_singleton_self _, rfl⟩

end NtpServer

end GpsNtp
