import GpsNtp.Machinery.Run
import GpsNtp.Ntp.Packet

/-!
# Ntp/Poll — the receive loop

    datagram ──ACL──▸ mode ──length──▸ rate limit ──▸ reply
                │        │        │          └──▸ KoD, or silence in mode 6
                └────────┴────────┴──▸ dropped

`NtpServer::poll`.  A datagram is copied over the front of a 512-byte buffer that is never
cleared, so an iteration is a step on the server together with that buffer.  What becomes of the
datagram is its **disposition**; the two match arms that answer are `handleControl` and
`handleTimeRequest`.
-/

namespace GpsNtp

open MachineInt

/-! ## Datagrams -/

/-- `SocketAddr`. -/
inductive SocketAddr where
  | v4 (ip : UInt32) (port : UInt16)
  | v6 (ip : BitVec 128) (port : UInt16)
deriving DecidableEq

/-- The address the ACL and the limiter see; an IPv6 source passes both by. -/
def SocketAddr.srcIpV4 : SocketAddr → Option UInt32
  | .v4 ip _ => some ip
  | .v6 _ _ => none

/-- The clocks as one iteration reads them, in order. -/
structure PollClock where
  receive : ClockReading
  rateLimit : ℤ
  params : ℤ
  current : ClockReading
  started : ℤ
  transmit : ClockReading
  finished : ℤ
deriving DecidableEq

/-- A received datagram, the clocks read for it, and whether its reply can be sent. -/
structure Datagram where
  bytes : List UInt8
  peer : SocketAddr
  clock : PollClock
  sendOk : Bool
deriving DecidableEq

/-- What becomes of a datagram. -/
inductive Disposition where
  | empty
  | aclBlocked
  | ignored
  | limitedSilently
  | limited (kod : List UInt8)
  | served (reply : List UInt8)
  | sendFailed (reply : List UInt8)
deriving DecidableEq

namespace Disposition

/-- The reply handed to the socket. -/
def reply : Disposition → Option (List UInt8)
  | .limited kod => some kod
  | .served reply | .sendFailed reply => some reply
  | .empty | .aclBlocked | .ignored | .limitedSilently => none

/-- The dispositions that end `poll` with an error. -/
def failed : Disposition → Bool
  | .sendFailed _ => true
  | _ => false

/-- Served: the datagrams counted in `served`. -/
def isServed : Disposition → Bool
  | .served _ => true
  | _ => false

/-- Rate-limited: the datagrams counted in `rate_limited_total`. -/
def isLimited : Disposition → Bool
  | .limitedSilently | .limited _ => true
  | _ => false

/-- Answered with a Kiss-o'-Death. -/
def isKod : Disposition → Bool
  | .limited _ => true
  | _ => false

end Disposition

namespace NtpServer

variable (s : NtpServer)

/-! ## One datagram -/

/-- `NtpServer::record_proc_delay`. -/
def recordProcDelay (startedUs finishedUs : ℤ) : NtpServer :=
  { s with
    procDelayUs := smoothUs s.procDelayHasSample s.procDelayUs (max (satSub finishedUs startedUs) 1)
    procDelayHasSample := true }

/-- `NtpServer::try_rate_limit`: whether the source may proceed, and the server after asking. -/
def tryRateLimit (srcIpV4 : Option UInt32) (nowUs : ℤ) : NtpServer × Bool :=
  match srcIpV4 with
  | none => (s, true)
  | some ip =>
    let (limiter, allowed) := s.rateLimiter.check ip nowUs
    if allowed then ({ s with rateLimiter := limiter }, true)
    else
      ({ s with
          rateLimiter := limiter
          rateLimitedTotal := wrapSuccU64 s.rateLimitedTotal }, false)

/-- The end of an iteration that answers: send, then count. -/
def sendReply (clock : PollClock) (sendOk : Bool) (resp : List UInt8) : NtpServer × Disposition :=
  if sendOk then
    ({ s.recordProcDelay clock.started clock.finished with served := wrapSuccU64 s.served },
      .served resp)
  else (s, .sendFailed resp)

/-- The part the two answering arms share: ask the limiter, then refuse or reply. -/
def serveLimited (srcIpV4 : Option UInt32) (clock : PollClock) (sendOk : Bool)
    (refusal : Disposition) (resp : NtpServer → List UInt8) : NtpServer × Disposition :=
  let (s, allowed) := s.tryRateLimit srcIpV4 clock.rateLimit
  if !allowed then (s, refusal) else s.sendReply clock sendOk (resp s)

/-- The control arm of `poll`. -/
def handleControl (gpsFix : Bool) (req : List UInt8) (len : ℕ) (srcIpV4 : Option UInt32)
    (clock : PollClock) (sendOk : Bool) : NtpServer × Disposition :=
  if len < ntpControlHeaderLen then (s, .ignored)
  else if req.getD 1 0 &&& mode6ResponseBit ≠ 0 then (s, .ignored)
  else
    s.serveLimited srcIpV4 clock sendOk .limitedSilently fun s =>
      let dp := s.disciplineParams gpsFix clock.params clock.current
      buildMode6Response (req.take len) (requestVersion req) dp s.servoStats

/-- The client and symmetric-active arm of `poll`. -/
def handleTimeRequest (gpsFix : Bool) (req : List UInt8) (len : ℕ) (srcIpV4 : Option UInt32)
    (clock : PollClock) (sendOk : Bool) (receiveNtpTs : ℕ) : NtpServer × Disposition :=
  if len < ntpPacketLen then (s, .ignored)
  else
    let replyMode := replyModeFor (requestMode req)
    let req48 := req.take ntpPacketLen
    s.serveLimited srcIpV4 clock sendOk
      (.limited (buildKodResponse req48 (requestVersion req) replyMode)) fun s =>
        let dp := s.disciplineParams gpsFix clock.params clock.current
        let resp := buildResponse req48 dp receiveNtpTs replyMode
        writeTransmitTs resp (s.currentNtpTimestamp clock.transmit)

/-- The body of the loop, on a buffer whose first `len` bytes are the datagram. -/
def handleDatagram (gpsFix : Bool) (req : List UInt8) (len : ℕ) (d : Datagram) :
    NtpServer × Disposition :=
  if len = 0 then (s, .empty)
  else
    let receiveNtpTs := s.currentNtpTimestamp d.clock.receive
    let srcIpV4 := d.peer.srcIpV4
    if srcIpV4.any fun ip => !s.acl.allows ip then
      ({ s with aclBlockedTotal := wrapSuccU64 s.aclBlockedTotal }, .aclBlocked)
    else
      let mode := requestMode req
      if mode = modeControl then
        s.handleControl gpsFix req len srcIpV4 d.clock d.sendOk
      else if mode = modeClient ∨ mode = modeSymmetricActive then
        s.handleTimeRequest gpsFix req len srcIpV4 d.clock d.sendOk receiveNtpTs
      else (s, .ignored)

/-! ## The loop -/

/-- The server and the receive buffer, between two iterations of `poll`. -/
structure PollState where
  server : NtpServer
  req : List UInt8
deriving DecidableEq

/-- `recv_from` into a buffer: a datagram overwrites its front, cut off at the buffer's length. -/
def recvInto (req bytes : List UInt8) : List UInt8 :=
  bytes.take ntpMaxPacketLen ++ req.drop (min bytes.length ntpMaxPacketLen)

/-- One iteration of `poll`. -/
def pollStep (gpsFix : Bool) (st : PollState) (d : Datagram) : PollState × Disposition :=
  let req := recvInto st.req d.bytes
  let r := st.server.handleDatagram gpsFix req (min d.bytes.length ntpMaxPacketLen) d
  (⟨r.1, req⟩, r.2)

/-- The loop: until the socket would block, or a reply cannot be sent. -/
def pollLoop (gpsFix : Bool) : PollState → List Datagram → NtpServer × List Disposition
  | st, [] => (st.server, [])
  | st, d :: rest =>
    let (st', disposition) := pollStep gpsFix st d
    if disposition.failed then (st'.server, [disposition])
    else
      let r := pollLoop gpsFix st' rest
      (r.1, disposition :: r.2)

/-- `NtpServer::poll` on the datagrams waiting at the socket. -/
def poll (gpsFix : Bool) (ds : List Datagram) : NtpServer × List Disposition :=
  pollLoop gpsFix ⟨s, List.replicate ntpMaxPacketLen 0⟩ ds

theorem pollLoop_cons_fst (gpsFix : Bool) (st : PollState) (d : Datagram) (rest : List Datagram) :
    (pollLoop gpsFix st (d :: rest)).1 =
      if (pollStep gpsFix st d).2.failed then (pollStep gpsFix st d).1.server
      else (pollLoop gpsFix (pollStep gpsFix st d).1 rest).1 := by
  simp only [pollLoop, apply_ite Prod.fst]

theorem pollLoop_cons_snd (gpsFix : Bool) (st : PollState) (d : Datagram) (rest : List Datagram) :
    (pollLoop gpsFix st (d :: rest)).2 =
      (pollStep gpsFix st d).2 :: if (pollStep gpsFix st d).2.failed then []
        else (pollLoop gpsFix (pollStep gpsFix st d).1 rest).2 := by
  simp only [pollLoop, apply_ite Prod.snd]
  split_ifs <;> rfl

/-! ## The service fields -/

/-- The two servers differ at most in what serving requests writes: counters, rate limiter and
processing delay. -/
def SameClock (s t : NtpServer) : Prop :=
  t = { s with
    served := t.served
    procDelayUs := t.procDelayUs
    procDelayHasSample := t.procDelayHasSample
    rateLimiter := t.rateLimiter
    rateLimitedTotal := t.rateLimitedTotal
    aclBlockedTotal := t.aclBlockedTotal }

variable {s} {t u : NtpServer}

@[refl] theorem SameClock.refl (s : NtpServer) : SameClock s s := rfl

theorem SameClock.trans (h₁ : SameClock s t) (h₂ : SameClock t u) : SameClock s u := by
  unfold SameClock at h₁ h₂ ⊢
  rw [h₁] at h₂
  exact h₂

/-- Serving keeps the invariant — none of its fields is a service field. -/
theorem SameClock.wellFormed (h : SameClock s t) (hs : s.WellFormed) : t.WellFormed := by
  rw [h]
  exact { hs with }

theorem SameClock.disciplineParams (h : SameClock s t) (gpsFix : Bool) (nowUs : ℤ)
    (reading : ClockReading) :
    (t.disciplineParams gpsFix nowUs reading).stratum
      = (s.disciplineParams gpsFix nowUs reading).stratum := by
  rw [h]
  rfl

theorem SameClock.currentNtpTimestamp (h : SameClock s t) (reading : ClockReading) :
    t.currentNtpTimestamp reading = s.currentNtpTimestamp reading := by
  rw [h]
  rfl

/-- The limiter lets the source pass, or counts it. -/
theorem tryRateLimit_cases (srcIpV4 : Option UInt32) (nowUs : ℤ) :
    (∃ l, s.tryRateLimit srcIpV4 nowUs = ({ s with rateLimiter := l }, true)) ∨
      ∃ l, s.tryRateLimit srcIpV4 nowUs =
        ({ s with rateLimiter := l, rateLimitedTotal := wrapSuccU64 s.rateLimitedTotal },
          false) := by
  rcases srcIpV4 with _ | ip
  · exact Or.inl ⟨s.rateLimiter, rfl⟩
  · simp only [tryRateLimit]
    split_ifs
    · exact Or.inl ⟨_, rfl⟩
    · exact Or.inr ⟨_, rfl⟩

/-- The limiter reads its table and counts, so that it commutes with a change of anything else. -/
theorem tryRateLimit_commute {f : NtpServer → NtpServer}
    (hlimiter : ∀ s, (f s).rateLimiter = s.rateLimiter)
    (hpass : ∀ s l, { f s with rateLimiter := l } = f { s with rateLimiter := l })
    (hcount : ∀ s l, { f s with
        rateLimiter := l, rateLimitedTotal := wrapSuccU64 (f s).rateLimitedTotal } =
      f { s with rateLimiter := l, rateLimitedTotal := wrapSuccU64 s.rateLimitedTotal })
    (s : NtpServer) (srcIpV4 : Option UInt32) (nowUs : ℤ) :
    (f s).tryRateLimit srcIpV4 nowUs =
      (f (s.tryRateLimit srcIpV4 nowUs).1, (s.tryRateLimit srcIpV4 nowUs).2) := by
  rcases srcIpV4 with _ | ip
  · rfl
  · simp only [tryRateLimit, hlimiter, hpass, hcount]
    split_ifs <;> rfl

theorem sameClock_tryRateLimit (srcIpV4 : Option UInt32) (nowUs : ℤ) :
    SameClock s (s.tryRateLimit srcIpV4 nowUs).1 := by
  rcases @tryRateLimit_cases s srcIpV4 nowUs with ⟨l, h⟩ | ⟨l, h⟩ <;> rw [h] <;> rfl

theorem sameClock_sendReply (clock : PollClock) (sendOk : Bool) (resp : List UInt8) :
    SameClock s (s.sendReply clock sendOk resp).1 := by
  unfold sendReply
  split <;> rfl

theorem sameClock_serveLimited (srcIpV4 : Option UInt32) (clock : PollClock) (sendOk : Bool)
    (refusal : Disposition) (resp : NtpServer → List UInt8) :
    SameClock s (s.serveLimited srcIpV4 clock sendOk refusal resp).1 := by
  have hlimit := @sameClock_tryRateLimit s srcIpV4 clock.rateLimit
  simp only [serveLimited]
  split_ifs
  · exact hlimit
  · exact hlimit.trans (sameClock_sendReply ..)

/-- **Serving a datagram leaves the clock alone.** -/
theorem sameClock_handleDatagram (gpsFix : Bool) (req : List UInt8) (len : ℕ) (d : Datagram) :
    SameClock s (s.handleDatagram gpsFix req len d).1 := by
  simp only [handleDatagram, handleControl, handleTimeRequest]
  split_ifs <;> first | rfl | exact sameClock_serveLimited ..

theorem sameClock_pollLoop (gpsFix : Bool) (st : PollState) (ds : List Datagram) :
    SameClock st.server (pollLoop gpsFix st ds).1 := by
  induction ds generalizing st with
  | nil => rfl
  | cons d rest ih =>
    have hstep : SameClock st.server (pollStep gpsFix st d).1.server :=
      sameClock_handleDatagram gpsFix _ _ d
    rw [pollLoop_cons_fst]
    split_ifs
    · exact hstep
    · exact hstep.trans (ih _)

/-- **Polling leaves the clock alone.** -/
theorem sameClock_poll (gpsFix : Bool) (ds : List Datagram) :
    SameClock s (s.poll gpsFix ds).1 :=
  sameClock_pollLoop gpsFix _ ds

theorem WellFormed.poll (h : s.WellFormed) (gpsFix : Bool) (ds : List Datagram) :
    (s.poll gpsFix ds).1.WellFormed :=
  (sameClock_poll gpsFix ds).wellFormed h

end NtpServer

end GpsNtp
