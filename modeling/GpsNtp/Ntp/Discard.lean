import GpsNtp.Ntp.Poll
import Mathlib.Data.Nat.ModEq

/-!
# Ntp/Discard — dropped datagrams leave no trace

    all datagrams       d₁ ✗ d₂ ✗ ✗ d₃      same replies to d₁, d₂, d₃,
    without the dropped d₁   d₂     d₃      same state but for acl_blocked_total

The receive buffer is reused and never cleared, but the first `len` bytes are the datagram's own
and nothing past them is read (`handleDatagram_recvInto`).  A dropped datagram then changes one
counter at most, so dropping it from the input is a deletion in the sense of `Machinery/Run`, and
the counters are read off the transcript.
-/

namespace GpsNtp

open MachineInt Machine

/-! ## What is dropped -/

/-- The ACL refuses the source. -/
def Datagram.denied (acl : Acl) (d : Datagram) : Bool :=
  d.peer.srcIpV4.any fun ip => !acl.allows ip

/-- Too short for its mode, a mode-6 response, or of a mode that is never answered. -/
def Datagram.malformed (d : Datagram) : Bool :=
  let len := min d.bytes.length ntpMaxPacketLen
  let mode := requestMode d.bytes
  if mode = modeControl then
    decide (len < ntpControlHeaderLen) || d.bytes.getD 1 0 &&& mode6ResponseBit != 0
  else if mode = modeClient ∨ mode = modeSymmetricActive then decide (len < ntpPacketLen)
  else true

/-- The datagrams without influence: empty, denied or malformed. -/
def Datagram.discarded (acl : Acl) (d : Datagram) : Bool :=
  d.bytes.isEmpty || d.denied acl || d.malformed

/-! ## The replies to a datagram -/

/-- The answer of a server to a control request. -/
def Datagram.controlReply (d : Datagram) (gpsFix : Bool) (s : NtpServer) : List UInt8 :=
  buildMode6Response (d.bytes.take (min d.bytes.length ntpMaxPacketLen)) (requestVersion d.bytes)
    (s.disciplineParams gpsFix d.clock.params d.clock.current) s.servoStats

/-- The answer of a server to a time request received at `receiveNtpTs`. -/
def Datagram.timeReply (d : Datagram) (gpsFix : Bool) (receiveNtpTs : ℕ) (s : NtpServer) :
    List UInt8 :=
  writeTransmitTs
    (buildResponse (d.bytes.take ntpPacketLen)
      (s.disciplineParams gpsFix d.clock.params d.clock.current) receiveNtpTs
      (replyModeFor (requestMode d.bytes)))
    (s.currentNtpTimestamp d.clock.transmit)

/-- The answer to a time request that the limiter refuses. -/
def Datagram.kodReply (d : Datagram) : List UInt8 :=
  buildKodResponse (d.bytes.take ntpPacketLen) (requestVersion d.bytes)
    (replyModeFor (requestMode d.bytes))

namespace NtpServer

variable {s : NtpServer}

/-! ## The buffer -/

theorem getD_recvInto {req bytes : List UInt8} {i : ℕ}
    (h : i < min bytes.length ntpMaxPacketLen) :
    (recvInto req bytes).getD i 0 = bytes.getD i 0 := by
  obtain ⟨hi, hi'⟩ := lt_min_iff.mp h
  have htake : i < (bytes.take ntpMaxPacketLen).length := by
    rw [List.length_take]
    omega
  rw [recvInto, List.getD_eq_getElem?_getD, List.getD_eq_getElem?_getD,
    List.getElem?_append_left htake, List.getElem?_take_of_lt hi']

theorem take_recvInto {req bytes : List UInt8} {n : ℕ}
    (h : n ≤ min bytes.length ntpMaxPacketLen) :
    (recvInto req bytes).take n = bytes.take n := by
  obtain ⟨hn, hn'⟩ := le_min_iff.mp h
  have htake : n ≤ (bytes.take ntpMaxPacketLen).length := by
    rw [List.length_take]
    omega
  rw [recvInto, List.take_append_of_le_length htake, List.take_take, min_eq_left hn']

/-- **Nothing past the datagram is read**: the buffer may as well hold the datagram alone. -/
theorem handleDatagram_recvInto (gpsFix : Bool) (req : List UInt8) (d : Datagram) :
    s.handleDatagram gpsFix (recvInto req d.bytes) (min d.bytes.length ntpMaxPacketLen) d =
      s.handleDatagram gpsFix d.bytes (min d.bytes.length ntpMaxPacketLen) d := by
  rcases Nat.eq_zero_or_pos (min d.bytes.length ntpMaxPacketLen) with hlen | hlen
  · simp only [handleDatagram, hlen, if_true]
  have hmode : requestMode (recvInto req d.bytes) = requestMode d.bytes := by
    rw [requestMode, requestMode, getD_recvInto hlen]
  have hversion : requestVersion (recvInto req d.bytes) = requestVersion d.bytes := by
    rw [requestVersion, requestVersion, getD_recvInto hlen]
  have hcontrol : ∀ src clock sendOk,
      s.handleControl gpsFix (recvInto req d.bytes) (min d.bytes.length ntpMaxPacketLen) src clock
        sendOk =
      s.handleControl gpsFix d.bytes (min d.bytes.length ntpMaxPacketLen) src clock sendOk := by
    intro src clock sendOk
    unfold handleControl
    by_cases hshort : min d.bytes.length ntpMaxPacketLen < ntpControlHeaderLen
    · rw [if_pos hshort, if_pos hshort]
    · have hone : 1 < min d.bytes.length ntpMaxPacketLen :=
        lt_of_lt_of_le (by decide) (not_lt.mp hshort)
      rw [getD_recvInto hone, hversion, take_recvInto le_rfl]
  have htime : ∀ src clock sendOk receiveNtpTs,
      s.handleTimeRequest gpsFix (recvInto req d.bytes) (min d.bytes.length ntpMaxPacketLen) src
        clock sendOk receiveNtpTs =
      s.handleTimeRequest gpsFix d.bytes (min d.bytes.length ntpMaxPacketLen) src clock sendOk
        receiveNtpTs := by
    intro src clock sendOk receiveNtpTs
    unfold handleTimeRequest
    by_cases hshort : min d.bytes.length ntpMaxPacketLen < ntpPacketLen
    · rw [if_pos hshort, if_pos hshort]
    · rw [hmode, hversion, take_recvInto (not_lt.mp hshort)]
  simp only [handleDatagram, hmode, hcontrol, htime]

/-- One iteration on the server alone. -/
theorem pollStep_eq (gpsFix : Bool) (st : PollState) (d : Datagram) :
    (pollStep gpsFix st d).1.server =
        (st.server.handleDatagram gpsFix d.bytes (min d.bytes.length ntpMaxPacketLen) d).1 ∧
      (pollStep gpsFix st d).2 =
        (st.server.handleDatagram gpsFix d.bytes (min d.bytes.length ntpMaxPacketLen) d).2 := by
  have h := @handleDatagram_recvInto st.server gpsFix st.req d
  exact ⟨congrArg Prod.fst h, congrArg Prod.snd h⟩

/-! ## One datagram, by kind -/

section Kinds

variable {d : Datagram} (gpsFix : Bool)

theorem handleDatagram_of_empty (h : d.bytes.isEmpty = true) :
    s.handleDatagram gpsFix d.bytes (min d.bytes.length ntpMaxPacketLen) d = (s, .empty) := by
  rw [List.isEmpty_iff] at h
  rw [handleDatagram, h]
  rfl

theorem length_ne_zero_of_not_isEmpty (h : d.bytes.isEmpty = false) :
    ¬min d.bytes.length ntpMaxPacketLen = 0 := by
  cases hb : d.bytes with
  | nil => exact absurd h (by rw [hb]; decide)
  | cons b bs =>
    rw [List.length_cons]
    exact fun h => by simp [ntpMaxPacketLen] at h

theorem handleDatagram_of_denied (h₀ : d.bytes.isEmpty = false) (h : d.denied s.acl = true) :
    s.handleDatagram gpsFix d.bytes (min d.bytes.length ntpMaxPacketLen) d =
      ({ s with aclBlockedTotal := wrapSuccU64 s.aclBlockedTotal }, .aclBlocked) := by
  rw [handleDatagram, if_neg (length_ne_zero_of_not_isEmpty h₀)]
  exact if_pos h

theorem handleDatagram_of_malformed (h₀ : d.bytes.isEmpty = false)
    (h₁ : d.denied s.acl = false) (h : d.malformed = true) :
    s.handleDatagram gpsFix d.bytes (min d.bytes.length ntpMaxPacketLen) d = (s, .ignored) := by
  have h₁ : ¬(d.peer.srcIpV4.any fun ip => !s.acl.allows ip) = true := Bool.eq_false_iff.mp h₁
  rw [handleDatagram, if_neg (length_ne_zero_of_not_isEmpty h₀)]
  simp only [if_neg h₁]
  simp only [Datagram.malformed] at h
  split_ifs at h ⊢ with hcontrol htime
  · rw [Bool.or_eq_true, decide_eq_true_iff, bne_iff_ne] at h
    unfold handleControl
    split_ifs with hshort hresponse
    · rfl
    · rfl
    · exact absurd (h.resolve_left hshort) hresponse
  · rw [decide_eq_true_iff] at h
    rw [handleTimeRequest, if_pos h]
  · rfl

/-- **A kept control request** gets its answer through the limiter, or silence. -/
theorem handleDatagram_of_control (h : d.discarded s.acl = false)
    (hmode : requestMode d.bytes = modeControl) :
    s.handleDatagram gpsFix d.bytes (min d.bytes.length ntpMaxPacketLen) d =
      s.serveLimited d.peer.srcIpV4 d.clock d.sendOk .limitedSilently (d.controlReply gpsFix) := by
  simp only [Datagram.discarded, Bool.or_eq_false_iff] at h
  obtain ⟨⟨h₀, h₁⟩, h₂⟩ := h
  have h₁ : ¬(d.peer.srcIpV4.any fun ip => !s.acl.allows ip) = true := Bool.eq_false_iff.mp h₁
  simp only [Datagram.malformed, if_pos hmode, Bool.or_eq_false_iff, decide_eq_false_iff_not,
    bne_eq_false_iff_eq] at h₂
  simp only [handleDatagram, if_neg (length_ne_zero_of_not_isEmpty h₀), if_neg h₁, if_pos hmode]
  rw [handleControl, if_neg h₂.1, if_neg (not_not.mpr h₂.2)]
  rfl

/-- **A kept time request** gets its answer through the limiter, or a Kiss-o'-Death. -/
theorem handleDatagram_of_time (h : d.discarded s.acl = false)
    (hmode : requestMode d.bytes = modeClient ∨ requestMode d.bytes = modeSymmetricActive) :
    s.handleDatagram gpsFix d.bytes (min d.bytes.length ntpMaxPacketLen) d =
      s.serveLimited d.peer.srcIpV4 d.clock d.sendOk (.limited d.kodReply)
        (d.timeReply gpsFix (s.currentNtpTimestamp d.clock.receive)) := by
  simp only [Datagram.discarded, Bool.or_eq_false_iff] at h
  obtain ⟨⟨h₀, h₁⟩, h₂⟩ := h
  have h₁ : ¬(d.peer.srcIpV4.any fun ip => !s.acl.allows ip) = true := Bool.eq_false_iff.mp h₁
  have hcontrol : ¬requestMode d.bytes = modeControl := by
    rcases hmode with h | h <;> rw [h] <;> decide
  simp only [Datagram.malformed, if_neg hcontrol, if_pos hmode, decide_eq_false_iff_not] at h₂
  simp only [handleDatagram, if_neg (length_ne_zero_of_not_isEmpty h₀), if_neg h₁,
    if_neg hcontrol, if_pos hmode]
  rw [handleTimeRequest, if_neg h₂]
  rfl

/-- A kept datagram is a control request or a time request. -/
theorem mode_of_kept {acl : Acl} (h : d.discarded acl = false) :
    requestMode d.bytes = modeControl ∨
      requestMode d.bytes = modeClient ∨ requestMode d.bytes = modeSymmetricActive := by
  simp only [Datagram.discarded, Datagram.malformed, Bool.or_eq_false_iff] at h
  split_ifs at h with hcontrol htime
  · exact Or.inl hcontrol
  · exact Or.inr htime
  · exact absurd h.2 nofun

/-- **A kept datagram** gets its answer through the limiter. -/
theorem handleDatagram_of_kept (h : d.discarded s.acl = false) :
    ∃ refusal resp, (refusal = .limitedSilently ∨ refusal.isKod = true) ∧
      s.handleDatagram gpsFix d.bytes (min d.bytes.length ntpMaxPacketLen) d =
        s.serveLimited d.peer.srcIpV4 d.clock d.sendOk refusal resp := by
  rcases mode_of_kept h with hmode | hmode
  · exact ⟨_, _, Or.inl rfl, handleDatagram_of_control gpsFix h hmode⟩
  · exact ⟨_, _, Or.inr rfl, handleDatagram_of_time gpsFix h hmode⟩

end Kinds

/-! ## The ACL count is never read -/

/-- An update of the server that the answering arms neither read nor overwrite. -/
structure Unserved (f : NtpServer → NtpServer) : Prop where
  limit : ∀ s srcIpV4 nowUs, (f s).tryRateLimit srcIpV4 nowUs =
    (f (s.tryRateLimit srcIpV4 nowUs).1, (s.tryRateLimit srcIpV4 nowUs).2)
  send : ∀ s clock sendOk resp, (f s).sendReply clock sendOk resp =
    (f (s.sendReply clock sendOk resp).1, (s.sendReply clock sendOk resp).2)
  params : ∀ s gpsFix nowUs reading,
    (f s).disciplineParams gpsFix nowUs reading = s.disciplineParams gpsFix nowUs reading
  stats : ∀ s, (f s).servoStats = s.servoStats
  timestamp : ∀ s reading, (f s).currentNtpTimestamp reading = s.currentNtpTimestamp reading

section Unserved

variable {f : NtpServer → NtpServer}

theorem Unserved.serveLimited (hf : Unserved f) (srcIpV4 : Option UInt32) (clock : PollClock)
    (sendOk : Bool) (refusal : Disposition) {resp : NtpServer → List UInt8}
    (hresp : ∀ s : NtpServer, resp (f s) = resp s) :
    (f s).serveLimited srcIpV4 clock sendOk refusal resp =
      (f (s.serveLimited srcIpV4 clock sendOk refusal resp).1,
        (s.serveLimited srcIpV4 clock sendOk refusal resp).2) := by
  simp only [NtpServer.serveLimited, hf.limit, hf.send, hresp]
  split_ifs <;> rfl

/-- **An unserved update commutes with a datagram** that is not denied. -/
theorem Unserved.handleDatagram (hf : Unserved f) (hacl : (f s).acl = s.acl) (gpsFix : Bool)
    (req : List UInt8) (len : ℕ) {d : Datagram} (h : d.denied s.acl = false) :
    (f s).handleDatagram gpsFix req len d =
      (f (s.handleDatagram gpsFix req len d).1, (s.handleDatagram gpsFix req len d).2) := by
  have hdenied : ¬(d.peer.srcIpV4.any fun ip => !s.acl.allows ip) = true := Bool.eq_false_iff.mp h
  simp only [NtpServer.handleDatagram, handleControl, handleTimeRequest, hacl, if_neg hdenied,
    hf.timestamp]
  split_ifs <;> first
    | rfl
    | exact hf.serveLimited _ _ _ _ fun t => by simp only [hf.params, hf.stats, hf.timestamp]

end Unserved

/-- The server with another ACL count. -/
def withAclBlocked (s : NtpServer) (n : ℕ) : NtpServer := { s with aclBlockedTotal := n }

theorem unserved_withAclBlocked (n : ℕ) : Unserved fun s => s.withAclBlocked n where
  limit := tryRateLimit_commute (fun _ => rfl) (fun _ _ => rfl) fun _ _ => rfl
  send := fun _ _ sendOk _ => by cases sendOk <;> rfl
  params := fun _ _ _ _ => rfl
  stats := fun _ => rfl
  timestamp := fun _ _ => rfl

/-- **Under another ACL count** a datagram that is not denied is handled alike. -/
theorem handleDatagram_withAclBlocked (n : ℕ) (gpsFix : Bool) (req : List UInt8) (len : ℕ)
    {d : Datagram} (h : d.denied s.acl = false) :
    (s.withAclBlocked n).handleDatagram gpsFix req len d =
      ((s.handleDatagram gpsFix req len d).1.withAclBlocked n,
        (s.handleDatagram gpsFix req len d).2) :=
  (unserved_withAclBlocked n).handleDatagram rfl gpsFix req len h

/-! ## Every datagram is counted once -/

/-- The limiter's verdict is counted. -/
theorem serveLimited_counters (srcIpV4 : Option UInt32) (clock : PollClock)
    (refusal : Disposition) (resp : NtpServer → List UInt8) :
    let r := s.serveLimited srcIpV4 clock true refusal resp
    r.1.aclBlockedTotal = s.aclBlockedTotal ∧
      ((∃ reply, r.2 = .served reply ∧ r.1.served = wrapSuccU64 s.served ∧
          r.1.rateLimitedTotal = s.rateLimitedTotal) ∨
        (r.2 = refusal ∧ r.1.served = s.served ∧
          r.1.rateLimitedTotal = wrapSuccU64 s.rateLimitedTotal)) := by
  rcases @tryRateLimit_cases s srcIpV4 clock.rateLimit with ⟨l, h⟩ | ⟨l, h⟩
  · simp only [serveLimited, h]
    exact ⟨rfl, Or.inl ⟨_, rfl, rfl, rfl⟩⟩
  · simp only [serveLimited, h]
    exact ⟨rfl, Or.inr ⟨rfl, rfl, rfl⟩⟩

/-- The dispositions a datagram can meet when replies can be sent, with what each one counts. -/
inductive Counted (d : Datagram) (s s' : NtpServer) : Disposition → Prop
  | empty : d.bytes.isEmpty = true → s' = s → Counted d s s' .empty
  | aclBlocked : d.bytes.isEmpty = false → d.denied s.acl = true →
      s' = s.withAclBlocked (wrapSuccU64 s.aclBlockedTotal) → Counted d s s' .aclBlocked
  | ignored : d.bytes.isEmpty = false → d.denied s.acl = false → d.malformed = true → s' = s →
      Counted d s s' .ignored
  | served (reply) : d.discarded s.acl = false → s'.served = wrapSuccU64 s.served →
      s'.rateLimitedTotal = s.rateLimitedTotal → s'.aclBlockedTotal = s.aclBlockedTotal →
      Counted d s s' (.served reply)
  | limited (refusal : Disposition) : refusal = .limitedSilently ∨ refusal.isKod = true →
      d.discarded s.acl = false → s'.served = s.served →
      s'.rateLimitedTotal = wrapSuccU64 s.rateLimitedTotal →
      s'.aclBlockedTotal = s.aclBlockedTotal → Counted d s s' refusal

theorem isLimited_of_refusal {refusal : Disposition}
    (h : refusal = .limitedSilently ∨ refusal.isKod = true) :
    refusal.isLimited = true ∧ refusal.isServed = false ∧ refusal.failed = false ∧
      refusal ≠ .aclBlocked ∧ refusal ≠ .ignored ∧ refusal.reply.isSome = refusal.isKod := by
  rcases h with rfl | h
  · exact ⟨rfl, rfl, rfl, nofun, nofun, rfl⟩
  · cases refusal with
    | limited kod => exact ⟨rfl, rfl, rfl, nofun, nofun, rfl⟩
    | _ => exact absurd h nofun

/-- What goes through the limiter is served or limited. -/
theorem counted_serveLimited {d : Datagram} (hkept : d.discarded s.acl = false)
    {refusal : Disposition} (hrefusal : refusal = .limitedSilently ∨ refusal.isKod = true)
    (resp : NtpServer → List UInt8) :
    let r := s.serveLimited d.peer.srcIpV4 d.clock true refusal resp
    Counted d s r.1 r.2 := by
  intro r
  obtain ⟨hblocked, hcase⟩ := @serveLimited_counters s d.peer.srcIpV4 d.clock refusal resp
  rcases hcase with ⟨reply, hserved, h₁, h₂⟩ | ⟨hlimited, h₁, h₂⟩
  · exact hserved ▸ .served reply hkept h₁ h₂ hblocked
  · exact hlimited ▸ .limited refusal hrefusal hkept h₁ h₂ hblocked

/-- A counted datagram did not end the loop. -/
theorem Counted.failed {d : Datagram} {s' : NtpServer} {x : Disposition}
    (h : Counted d s s' x) : x.failed = false := by
  cases h with
  | limited refusal hrefusal => exact (isLimited_of_refusal hrefusal).2.2.1
  | _ => rfl

/-- What each disposition adds to the three counters. -/
theorem Counted.counters {d : Datagram} {s' : NtpServer} {x : Disposition}
    (h : Counted d s s' x) :
    s'.served = (if x.isServed = true then wrapSuccU64 s.served else s.served) ∧
      s'.rateLimitedTotal =
        (if x.isLimited = true then wrapSuccU64 s.rateLimitedTotal else s.rateLimitedTotal) ∧
      s'.aclBlockedTotal =
        (if (x == .aclBlocked) = true then wrapSuccU64 s.aclBlockedTotal
          else s.aclBlockedTotal) := by
  cases h with
  | empty _ hs => rw [hs]; exact ⟨rfl, rfl, rfl⟩
  | aclBlocked _ _ hs => rw [hs]; exact ⟨rfl, rfl, rfl⟩
  | ignored _ _ _ hs => rw [hs]; exact ⟨rfl, rfl, rfl⟩
  | served reply _ h₁ h₂ h₃ => exact ⟨h₁, h₂, h₃⟩
  | limited refusal href _ h₁ h₂ h₃ =>
    obtain ⟨hlimited, hserved, -, hblocked, -⟩ := isLimited_of_refusal href
    rw [hlimited, hserved, beq_eq_false_iff_ne.mpr hblocked]
    exact ⟨h₁, h₂, h₃⟩

/-- Dropped without being counted: neither empty nor denied, but malformed. -/
def silent (acl : Acl) (d : Datagram) : Bool :=
  !d.bytes.isEmpty && !d.denied acl && d.malformed

/-- Every non-empty datagram is served, limited, blocked or silently dropped, and every reply is
that of a served one or a Kiss-o'-Death. -/
theorem Counted.tally {d : Datagram} {s' : NtpServer} {x : Disposition} (h : Counted d s s' x) :
    (!d.bytes.isEmpty).toNat =
        x.isServed.toNat + (x.isLimited.toNat + ((x == .aclBlocked).toNat +
          ((silent s.acl d).toNat + 0))) ∧
      x.reply.isSome.toNat = x.isServed.toNat + (x.isKod.toNat + 0) := by
  cases h with
  | empty h₀ => simp only [silent, h₀]; exact ⟨rfl, rfl⟩
  | aclBlocked h₀ h₁ => simp only [silent, h₀, h₁]; exact ⟨rfl, rfl⟩
  | ignored h₀ h₁ h₂ => simp only [silent, h₀, h₁, h₂]; exact ⟨rfl, rfl⟩
  | served reply hd =>
    simp only [Datagram.discarded, Bool.or_eq_false_iff] at hd
    simp only [silent, hd.1.1, hd.1.2, hd.2]
    exact ⟨rfl, rfl⟩
  | limited refusal href hd =>
    obtain ⟨hlimited, hserved, -, hblocked, -, hkod⟩ := isLimited_of_refusal href
    simp only [Datagram.discarded, Bool.or_eq_false_iff] at hd
    simp only [silent, hd.1.1, hd.1.2, hd.2, hlimited, hserved, beq_eq_false_iff_ne.mpr hblocked,
      hkod]
    exact ⟨rfl, by simp⟩

/-- **Every datagram is counted once**: what becomes of it is decided by its kind, and a kept one
by the limiter. -/
theorem counted_handleDatagram {d : Datagram} (gpsFix : Bool) (hsend : d.sendOk = true) :
    let r := s.handleDatagram gpsFix d.bytes (min d.bytes.length ntpMaxPacketLen) d
    Counted d s r.1 r.2 := by
  intro r
  cases h₀ : d.bytes.isEmpty with
  | true =>
    have hr : r = _ := handleDatagram_of_empty gpsFix h₀
    rw [hr]
    exact .empty h₀ rfl
  | false =>
  cases h₁ : d.denied s.acl with
  | true =>
    have hr : r = _ := handleDatagram_of_denied gpsFix h₀ h₁
    rw [hr]
    exact .aclBlocked h₀ h₁ rfl
  | false =>
  cases h₂ : d.malformed with
  | true =>
    have hr : r = _ := handleDatagram_of_malformed gpsFix h₀ h₁ h₂
    rw [hr]
    exact .ignored h₀ h₁ h₂ rfl
  | false =>
    have hkept : d.discarded s.acl = false := by
      rw [Datagram.discarded, h₀, h₁, h₂]
      rfl
    obtain ⟨refusal, resp, hrefusal, hserve⟩ := handleDatagram_of_kept gpsFix hkept
    have hr : r = _ := hserve
    rw [hr, hsend]
    exact counted_serveLimited hkept hrefusal resp

/-! ## Sequences of datagrams -/

/-- One iteration of `poll` on a datagram received under a fix or not. -/
def serveStep (st : PollState) (p : Bool × Datagram) : PollState × Disposition :=
  pollStep p.1 st p.2

/-- The ACL is not written by serving. -/
theorem acl_serveStep (st : PollState) (p : Bool × Datagram) :
    (serveStep st p).1.server.acl = st.server.acl :=
  (congrArg acl (sameClock_handleDatagram p.1 _ _ p.2)).trans rfl

/-- What `poll` made of a datagram was decided at a server that differs in service fields only. -/
theorem mem_zip_pollLoop {gpsFix : Bool} {st : PollState} {ds : List Datagram}
    {p : Datagram × Disposition} (hp : p ∈ ds.zip (pollLoop gpsFix st ds).2) :
    ∃ t, SameClock st.server t ∧
      p.2 = (t.handleDatagram gpsFix p.1.bytes (min p.1.bytes.length ntpMaxPacketLen) p.1).2 := by
  induction ds generalizing st with
  | nil => exact absurd hp List.not_mem_nil
  | cons d rest ih =>
    have hstep : SameClock st.server (pollStep gpsFix st d).1.server :=
      sameClock_handleDatagram gpsFix _ _ d
    rw [pollLoop_cons_snd, List.zip_cons_cons] at hp
    rcases List.mem_cons.mp hp with rfl | hp
    · exact ⟨st.server, SameClock.refl _, (pollStep_eq gpsFix st d).2⟩
    · split_ifs at hp
      · exact absurd hp (by simp)
      · obtain ⟨t, ht, hdisposition⟩ := ih hp
        exact ⟨t, hstep.trans ht, hdisposition⟩

/-- **When replies can be sent `poll` is the run of its iterations.** -/
theorem pollLoop_eq_exec (gpsFix : Bool) (st : PollState) (ds : List Datagram)
    (hsend : ∀ d ∈ ds, d.sendOk = true) :
    pollLoop gpsFix st ds =
      ((exec serveStep st (ds.map fun d => (gpsFix, d))).server,
        (transcript serveStep st (ds.map fun d => (gpsFix, d))).map Prod.snd) := by
  induction ds generalizing st with
  | nil => rfl
  | cons d rest ih =>
    have hfailed : ¬(pollStep gpsFix st d).2.failed = true := by
      have hcount := @counted_handleDatagram st.server d gpsFix (hsend d List.mem_cons_self)
      rw [(pollStep_eq gpsFix st d).2, hcount.failed]
      exact Bool.false_ne_true
    ext1
    · rw [pollLoop_cons_fst, if_neg hfailed,
        ih _ fun d hd => hsend d (List.mem_cons_of_mem _ hd)]
      rfl
    · rw [pollLoop_cons_snd, if_neg hfailed,
        ih _ fun d hd => hsend d (List.mem_cons_of_mem _ hd)]
      rfl

theorem counted_serveStep (st : PollState) {p : Bool × Datagram} (hsend : p.2.sendOk = true) :
    Counted p.2 st.server (serveStep st p).1.server (serveStep st p).2 := by
  obtain ⟨hserver, hdisposition⟩ := pollStep_eq p.1 st p.2
  rw [serveStep, hserver, hdisposition]
  exact counted_handleDatagram p.1 hsend

/-- A kept datagram moves two servers that differ in the ACL count alike. -/
theorem serveStep_withAclBlocked (n : ℕ) (st st' : PollState) {p : Bool × Datagram}
    (h : st'.server = st.server.withAclBlocked n) (hp : p.2.discarded st.server.acl = false) :
    (serveStep st' p).1.server = (serveStep st p).1.server.withAclBlocked n ∧
      (serveStep st' p).2 = (serveStep st p).2 := by
  have hdenied : p.2.denied st.server.acl = false := by
    simp only [Datagram.discarded, Bool.or_eq_false_iff] at hp
    exact hp.1.2
  obtain ⟨h₁, h₂⟩ := pollStep_eq p.1 st p.2
  obtain ⟨h₁', h₂'⟩ := pollStep_eq p.1 st' p.2
  rw [serveStep, serveStep, h₁, h₂, h₁', h₂', h, handleDatagram_withAclBlocked n p.1 _ _ hdenied]
  exact ⟨rfl, rfl⟩

/-- A discarded datagram moves nothing but the ACL count, and is not answered. -/
theorem serveStep_of_discarded (st : PollState) {p : Bool × Datagram}
    (hp : p.2.discarded st.server.acl = true) :
    (∃ n, (serveStep st p).1.server = st.server.withAclBlocked n) ∧
      (serveStep st p).2.reply = none := by
  obtain ⟨h₁, h₂⟩ := pollStep_eq p.1 st p.2
  rw [serveStep, h₁, h₂]
  cases hempty : p.2.bytes.isEmpty with
  | true =>
    rw [handleDatagram_of_empty p.1 hempty]
    exact ⟨⟨st.server.aclBlockedTotal, rfl⟩, rfl⟩
  | false =>
  cases hdenied : p.2.denied st.server.acl with
  | true =>
    rw [handleDatagram_of_denied p.1 hempty hdenied]
    exact ⟨⟨_, rfl⟩, rfl⟩
  | false =>
    have hmalformed : p.2.malformed = true := by
      rw [Datagram.discarded, hempty, hdenied] at hp
      exact hp
    rw [handleDatagram_of_malformed p.1 hempty hdenied hmalformed]
    exact ⟨⟨st.server.aclBlockedTotal, rfl⟩, rfl⟩

/-! ## The guarantee -/

section Guarantee

variable (st : PollState) (ps : List (Bool × Datagram))

/-- **The dropped datagrams can be deleted**: the others are answered alike, and the state differs
in the ACL count alone. -/
theorem transcript_filter_discarded :
    let kept := fun p : Bool × Datagram => !p.2.discarded st.server.acl
    (transcript serveStep st ps).filter (fun q => kept q.1) =
        transcript serveStep st (ps.filter kept) ∧
      (exec serveStep st (ps.filter kept)).server =
        (exec serveStep st ps).server.withAclBlocked st.server.aclBlockedTotal := by
  intro kept
  let R (a b : PollState) :=
    b.server = a.server.withAclBlocked st.server.aclBlockedTotal ∧ a.server.acl = st.server.acl
  have hkeep : ∀ (a b : PollState) (p : Bool × Datagram), kept p = true → R a b →
      R (serveStep a p).1 (serveStep b p).1 ∧ (serveStep a p).2 = (serveStep b p).2 := by
    rintro a b p hp ⟨hab, hacl⟩
    obtain ⟨h₁, h₂⟩ := serveStep_withAclBlocked _ a b hab (by rw [hacl]; simpa [kept] using hp)
    exact ⟨⟨h₁, (acl_serveStep a p).trans hacl⟩, h₂.symm⟩
  have hdrop : ∀ (a b : PollState) (p : Bool × Datagram), kept p = false → R a b →
      R (serveStep a p).1 b := by
    rintro a b p hp ⟨hab, hacl⟩
    obtain ⟨⟨m, hm⟩, -⟩ := @serveStep_of_discarded a p (by rw [hacl]; simpa [kept] using hp)
    exact ⟨by rw [hab, hm]; rfl, (acl_serveStep a p).trans hacl⟩
  have hinit : R st st := ⟨rfl, rfl⟩
  have hrun : R (exec serveStep st ps) (exec serveStep st (ps.filter kept)) :=
    run_filter_related (fun a b p hp hR => (hkeep a b p hp hR).1) hdrop hinit ps
  exact ⟨transcript_filter_related hkeep hdrop hinit ps, hrun.1⟩

/-- **What was in the buffer before does not matter.** -/
theorem transcript_buffer (req : List UInt8) :
    transcript serveStep ⟨st.server, req⟩ ps = transcript serveStep st ps ∧
      (exec serveStep ⟨st.server, req⟩ ps).server = (exec serveStep st ps).server := by
  let R (a b : PollState) := a.server = b.server
  have hstep : ∀ (a b : PollState) (p : Bool × Datagram), R a b →
      R (serveStep a p).1 (serveStep b p).1 ∧ (serveStep a p).2 = (serveStep b p).2 := by
    intro a b p (hR : a.server = b.server)
    obtain ⟨h₁, h₂⟩ := pollStep_eq p.1 a p.2
    obtain ⟨h₁', h₂'⟩ := pollStep_eq p.1 b p.2
    rw [← hR] at h₁' h₂'
    exact ⟨h₁.trans h₁'.symm, h₂.trans h₂'.symm⟩
  have hinit : R ⟨st.server, req⟩ st := rfl
  exact transcript_related hstep hinit ps

theorem iterate_wrapSuccU64 (n x : ℕ) : wrapSuccU64^[n] x ≡ x + n [MOD 18446744073709551616] := by
  induction n with
  | zero => rfl
  | succ n ih =>
    rw [Function.iterate_succ_apply']
    exact (Nat.mod_modEq _ _).trans (ih.add_right 1)

variable (hsend : ∀ p ∈ ps, p.2.sendOk = true)

include hsend

/-- **The three counters**, read off the transcript. -/
theorem counters_exec :
    let T := transcript serveStep st ps
    let s' := (exec serveStep st ps).server
    s'.served ≡ st.server.served + T.countP (fun q => q.2.isServed) [MOD 18446744073709551616] ∧
      s'.rateLimitedTotal ≡ st.server.rateLimitedTotal + T.countP (fun q => q.2.isLimited)
        [MOD 18446744073709551616] ∧
      s'.aclBlockedTotal ≡ st.server.aclBlockedTotal + T.countP (fun q => q.2 == .aclBlocked)
        [MOD 18446744073709551616] := by
  intro T s'
  have hcounters := fun (a : PollState) (p : Bool × Datagram) (hp : p ∈ ps) =>
    (counted_serveStep a (hsend p hp)).counters
  have hserved : s'.served = wrapSuccU64^[T.countP fun q => q.2.isServed] st.server.served :=
    @exec_eq_iterate _ _ _ _ serveStep (fun a => a.server.served) _ Disposition.isServed _
      (fun a p hp => (hcounters a p hp).1) st
  have hlimited : s'.rateLimitedTotal =
      wrapSuccU64^[T.countP fun q => q.2.isLimited] st.server.rateLimitedTotal :=
    @exec_eq_iterate _ _ _ _ serveStep (fun a => a.server.rateLimitedTotal) _
      Disposition.isLimited _ (fun a p hp => (hcounters a p hp).2.1) st
  have hblocked : s'.aclBlockedTotal =
      wrapSuccU64^[T.countP fun q => q.2 == .aclBlocked] st.server.aclBlockedTotal :=
    @exec_eq_iterate _ _ _ _ serveStep (fun a => a.server.aclBlockedTotal) _
      (fun x => x == .aclBlocked) _ (fun a p hp => (hcounters a p hp).2.2) st
  rw [hserved, hlimited, hblocked]
  exact ⟨iterate_wrapSuccU64 _ _, iterate_wrapSuccU64 _ _, iterate_wrapSuccU64 _ _⟩

/-- **Every datagram is accounted for.** -/
theorem tally_transcript :
    let T := transcript serveStep st ps
    (ps.countP fun p => !p.2.bytes.isEmpty) =
        T.countP (fun q => q.2.isServed) + T.countP (fun q => q.2.isLimited) +
          T.countP (fun q => q.2 == .aclBlocked) + ps.countP (fun p => silent st.server.acl p.2) ∧
      (T.countP fun q => q.2.reply.isSome) =
        T.countP (fun q => q.2.isServed) + T.countP (fun q => q.2.isKod) := by
  intro T
  have hevents : ∀ f : Bool × Datagram → Bool, ps.countP f = T.countP fun q => f q.1 := by
    intro f
    calc ps.countP f = (T.map Prod.fst).countP f := by rw [transcript_map_fst]
      _ = T.countP fun q => f q.1 := List.countP_map
  have hentry : ∀ q ∈ T, ∃ s s' : NtpServer, s.acl = st.server.acl ∧ Counted q.1.2 s s' q.2 := by
    let P (p : Bool × Datagram) (x : Disposition) :=
      ∃ s s' : NtpServer, s.acl = st.server.acl ∧ Counted p.2 s s' x
    let Inv (a : PollState) := a.server.acl = st.server.acl
    have hstep : ∀ a, ∀ p ∈ ps, Inv a →
        Inv (serveStep a p).1 ∧ P p (serveStep a p).2 := fun a p hp hacl =>
      ⟨(acl_serveStep a p).trans hacl, _, _, hacl, counted_serveStep a (hsend p hp)⟩
    have hinit : Inv st := rfl
    exact transcript_forall hstep hinit
  have hnonempty : (T.countP fun q => !q.1.2.bytes.isEmpty) =
      ([fun q => q.2.isServed, fun q => q.2.isLimited, fun q => q.2 == .aclBlocked,
        fun q => silent st.server.acl q.1.2].map fun f => T.countP f).sum := by
    refine countP_eq_sum fun q hq => ?_
    obtain ⟨s, s', hacl, hcount⟩ := hentry q hq
    rw [← hacl]
    exact hcount.tally.1
  have hreplies : (T.countP fun q => q.2.reply.isSome) =
      ([fun q => q.2.isServed, fun q => q.2.isKod].map fun f => T.countP f).sum := by
    refine countP_eq_sum fun q hq => ?_
    obtain ⟨s, s', -, hcount⟩ := hentry q hq
    exact hcount.tally.2
  rw [hevents, hevents, hnonempty, hreplies]
  simp [add_assoc]

end Guarantee

/-- **Dropped datagrams have no influence, and every datagram is accounted for.**  Over any
sequence of datagrams, whatever the receive buffer held: the datagrams that are empty, denied or
malformed are not answered, and without them all other replies and the final state are the same
but for the ACL count; and the counters grow by the served, the limited and the denied datagrams,
which with the silently dropped ones make up the non-empty datagrams, while the replies are those
of the served datagrams and the Kiss-o'-Deaths among the limited ones. -/
theorem discarded_no_influence (st : PollState) (ps : List (Bool × Datagram))
    (hsend : ∀ p ∈ ps, p.2.sendOk = true) :
    let acl := st.server.acl
    let kept := fun p : Bool × Datagram => !p.2.discarded acl
    let T := transcript serveStep st ps
    let s' := (exec serveStep st ps).server
    T.filter (fun q => kept q.1) = transcript serveStep st (ps.filter kept) ∧
      (exec serveStep st (ps.filter kept)).server =
        { s' with aclBlockedTotal := st.server.aclBlockedTotal } ∧
      (∀ q ∈ T, kept q.1 = false → q.2.reply = none) ∧
      (∀ req, transcript serveStep ⟨st.server, req⟩ ps = T ∧
        (exec serveStep ⟨st.server, req⟩ ps).server = s') ∧
      s'.served ≡ st.server.served + T.countP (fun q => q.2.isServed)
        [MOD 18446744073709551616] ∧
      s'.rateLimitedTotal ≡ st.server.rateLimitedTotal + T.countP (fun q => q.2.isLimited)
        [MOD 18446744073709551616] ∧
      s'.aclBlockedTotal ≡ st.server.aclBlockedTotal + T.countP (fun q => q.2 == .aclBlocked)
        [MOD 18446744073709551616] ∧
      (ps.countP fun p => !p.2.bytes.isEmpty) =
        T.countP (fun q => q.2.isServed) + T.countP (fun q => q.2.isLimited) +
          T.countP (fun q => q.2 == .aclBlocked) + ps.countP (fun p => silent acl p.2) ∧
      (T.countP fun q => q.2.reply.isSome) =
        T.countP (fun q => q.2.isServed) + T.countP (fun q => q.2.isKod) := by
  intro acl kept T s'
  obtain ⟨hfilter, hexec⟩ := transcript_filter_discarded st ps
  obtain ⟨hserved, hlimited, hblocked⟩ := counters_exec st ps hsend
  obtain ⟨hnonempty, hreplies⟩ := tally_transcript st ps hsend
  refine ⟨hfilter, hexec, ?_, transcript_buffer st ps, hserved, hlimited, hblocked, hnonempty,
    hreplies⟩
  let P (p : Bool × Datagram) (x : Disposition) := kept p = false → x.reply = none
  let Inv (a : PollState) := a.server.acl = acl
  have hstep : ∀ a, ∀ p ∈ ps, Inv a → Inv (serveStep a p).1 ∧ P p (serveStep a p).2 := by
    refine fun a p _ hacl => ⟨(acl_serveStep a p).trans hacl, fun hp => ?_⟩
    have hacl : a.server.acl = acl := hacl
    exact (serveStep_of_discarded a (by rw [hacl]; simpa [kept] using hp)).2
  have hinit : Inv st := rfl
  exact transcript_forall hstep hinit

/-- A version-4 client request. -/
def clientRequest : Datagram where
  bytes := 0x23 :: List.replicate 47 0
  peer := .v4 1 123
  clock := ⟨⟨2500000, none⟩, 2500000, 2500000, ⟨2500000, none⟩, 2500000, ⟨2500001, none⟩, 2500002⟩
  sendOk := true

/-- A forged server reply ahead of the request of the same source does not matter. -/
theorem discarded_no_influence_forged :
    (transcript serveStep ⟨fromSocket, []⟩
        [(true, { clientRequest with bytes := 0x24 :: List.replicate 47 0 }),
          (true, clientRequest)]).filter (fun q => !q.1.2.discarded Acl.allowAll) =
      transcript serveStep ⟨fromSocket, []⟩ [(true, clientRequest)] :=
  (discarded_no_influence ⟨fromSocket, []⟩
    [(true, { clientRequest with bytes := 0x24 :: List.replicate 47 0 }), (true, clientRequest)]
    (by decide)).1

end NtpServer

end GpsNtp
