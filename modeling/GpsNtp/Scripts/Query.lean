import GpsNtp.Machinery.Exchange
import GpsNtp.Ntp.Encoding
import GpsNtp.Ntp.Shapes
import Mathlib.Data.List.DropRight

/-!
# Scripts/Query — the client that checks the server

    query_ntp   t₁ ─ 0x23 0 ⋯ 0 ─▸ poll ─ reply ─▸ t₄      offset, delay, stratum, ref id, leap

`ntp_common.py` sends one client request, unpacks what comes back and measures the server's clock by
it.  A reply at stratum 0 is an error, whatever it is, and so the client gets a result from a
synchronised server only; what it measures then is true up to the server's own error, half the time
in the network and the grain of a time stamp.  The numbers of Python are read as rationals.
-/

namespace GpsNtp.Scripts

open MachineInt Bytes Exchange NtpServer

/-! ## The client -/

/-- `NTP_EPOCH_DELTA`. -/
def ntpEpochDelta : ℚ := 2208988800

/-- `ntp_timestamp_to_unix`. -/
def ntpTimestampToUnix (seconds fraction : ℕ) : ℚ := (seconds - ntpEpochDelta) + fraction / 2 ^ 32

/-- The request: LI 0, version 4, mode 3. -/
def queryPacket : List UInt8 := 0x23 :: List.replicate 47 0

/-- `bytes.decode("ascii", errors="replace")`. -/
def decodeAscii (raw : List UInt8) : List Char :=
  raw.map fun b => if b < 0x80 then Char.ofNat b.toNat else '\uFFFD'

/-- `str.rstrip("\x00")`. -/
def rstripNul (text : List Char) : List Char := text.rdropWhile (· == '\x00')

/-- The reference id of a server behind another one, in dotted form. -/
def dotted (raw : List UInt8) : List Char :=
  ['.'].intercalate (raw.map fun b => b.toNat.repr.toList)

/-- What `query_ntp` returns. -/
structure QueryResult where
  offsetMs : ℚ
  delayMs : ℚ
  stratum : UInt8
  refId : List Char
  leap : UInt8
deriving DecidableEq

/-- The `ValueError` that it raises. -/
inductive QueryError where
  | tooShort (len : ℕ)
  | kissOfDeath (kiss : List Char)
deriving DecidableEq

/-- `query_ntp`, from the datagram received on. -/
def queryNtp (data : List UInt8) (t1 t4 : ℚ) : Except QueryError QueryResult :=
  if data.length < 48 then .error (.tooShort data.length)
  else
    let liVnMode := data.getD 0 0
    let stratum := data.getD 1 0
    let refIdRaw := field 12 4 data
    let leap := (liVnMode >>> 6) &&& 0x3
    if stratum = 0 then .error (.kissOfDeath (rstripNul (decodeAscii refIdRaw)))
    else
      let t2 := ntpTimestampToUnix (ofBe (field 32 4 data)) (ofBe (field 36 4 data))
      let t3 := ntpTimestampToUnix (ofBe (field 40 4 data)) (ofBe (field 44 4 data))
      let offsetS := offset t1 t2 t3 t4
      let delayS := delay t1 t2 t3 t4
      let refId := if stratum ≤ 1 then rstripNul (decodeAscii refIdRaw) else dotted refIdRaw
      .ok { offsetMs := offsetS * 1000, delayMs := delayS * 1000, stratum, refId, leap }

/-! ## Reading a reply -/

/-- A time stamp as the client reads it. -/
def unixOf (ts : ℕ) : ℚ := ts / 2 ^ 32 - ntpEpochDelta

/-- The client reads a time stamp by halves. -/
theorem ntpTimestampToUnix_halves {data : List UInt8} {off : ℕ} (h : off + 8 ≤ data.length) :
    ntpTimestampToUnix (ofBe (field off 4 data)) (ofBe (field (off + 4) 4 data)) =
      unixOf (ofBe (field off 8 data)) := by
  rw [ofBe_field_halves h, ntpTimestampToUnix, unixOf]
  push_cast
  ring

section Reading

variable {data : List UInt8} (hlength : data.length = 48) (t1 t4 : ℚ)

include hlength

/-- A packet at stratum 0 is an error, named by its reference id. -/
theorem queryNtp_stratum_zero (hstratum : replyStratum data = 0) :
    queryNtp data t1 t4 =
      .error (.kissOfDeath (rstripNul (decodeAscii (replyRefId data)))) := by
  rw [queryNtp, if_neg (by omega)]
  exact if_pos hstratum

/-- **A packet at stratum 1** is a result, its fields those of the packet. -/
theorem queryNtp_stratum_one (hstratum : replyStratum data = 1) :
    queryNtp data t1 t4 = .ok
      { offsetMs := offset t1 (unixOf (replyReceiveTs data)) (unixOf (replyTransmitTs data)) t4 *
          1000
        delayMs := delay t1 (unixOf (replyReceiveTs data)) (unixOf (replyTransmitTs data)) t4 * 1000
        stratum := 1, refId := rstripNul (decodeAscii (replyRefId data))
        leap := packetLeap data &&& 3 } := by
  have hone : data.getD 1 0 = 1 := hstratum
  rw [queryNtp, if_neg (by omega)]
  dsimp only
  rw [hone, if_neg (by decide), if_pos (by decide), ntpTimestampToUnix_halves (by omega),
    ntpTimestampToUnix_halves (by omega)]
  rfl

end Reading

/-! ## The replies to a query -/

/-- **What the limiter lets through** is answered by a server whose clock is the same. -/
theorem serveLimited_reply {s : NtpServer} {srcIpV4 : Option UInt32} {clock : PollClock}
    {sendOk : Bool} {refusal : Disposition} {resp : NtpServer → List UInt8} {reply : List UInt8}
    (h : (s.serveLimited srcIpV4 clock sendOk refusal resp).2.reply = some reply) :
    (s.serveLimited srcIpV4 clock sendOk refusal resp).2 = refusal ∨
      ∃ t, SameClock s t ∧ reply = resp t ∧
        (s.serveLimited srcIpV4 clock sendOk refusal resp).2.isKod = false := by
  have hlimit := @sameClock_tryRateLimit s srcIpV4 clock.rateLimit
  rw [serveLimited] at h ⊢
  dsimp only at h ⊢
  split_ifs at h ⊢
  · exact .inl rfl
  · refine .inr ⟨_, hlimit, ?_, ?_⟩ <;> rw [sendReply] at * <;> cases sendOk
    · exact (Option.some.inj h).symm
    · exact (Option.some.inj h).symm
    · rfl
    · rfl

/-- **A query is answered** with a Kiss-o'-Death, or with the time of a server whose clock is the
same. -/
theorem query_reply {s : NtpServer} {gpsFix : Bool} {ds : List Datagram}
    {p : Datagram × Disposition} (hp : p ∈ ds.zip (s.poll gpsFix ds).2)
    (hquery : p.1.bytes = queryPacket) {reply : List UInt8} (hreply : p.2.reply = some reply) :
    (p.2.isKod = true ∧ reply = p.1.kodReply) ∨
      ∃ t t', SameClock s t ∧ SameClock s t' ∧ p.2.isKod = false ∧
        reply = p.1.timeReply gpsFix (t.currentNtpTimestamp p.1.clock.receive) t' := by
  obtain ⟨t, ht, hdisposition⟩ := mem_zip_pollLoop hp
  have hmode : p.1.isTimeRequest := .inl (by rw [hquery]; rfl)
  have hlen : ntpPacketLen ≤ p.1.bytes.length := by rw [hquery]; decide
  cases hdenied : p.1.denied t.acl with
  | true =>
    have hempty : p.1.bytes.isEmpty = false := by rw [hquery]; rfl
    rw [hdisposition, handleDatagram_of_denied gpsFix hempty hdenied] at hreply
    cases hreply
  | false =>
    have hkept := discarded_timeRequest hmode hlen hdenied
    rw [handleDatagram_of_time gpsFix hkept hmode] at hdisposition
    rw [hdisposition] at hreply ⊢
    rcases serveLimited_reply hreply with hrefusal | ⟨t', ht', hresp, hkod⟩
    · rw [hrefusal] at hreply ⊢
      exact .inl ⟨rfl, (Option.some.inj hreply).symm⟩
    · exact .inr ⟨t, t', ht, ht.trans ht', hkod, hresp⟩

/-- The client raises an error on a Kiss-o'-Death. -/
theorem queryNtp_kodReply {d : Datagram} (hquery : d.bytes = queryPacket) (t1 t4 : ℚ) :
    queryNtp d.kodReply t1 t4 = .error (.kissOfDeath "RATE".toList) := by
  rw [Datagram.kodReply, hquery]
  rfl

section TimeReply

variable {d : Datagram} (hquery : d.bytes = queryPacket) {s : NtpServer} (gpsFix : Bool)
  (receiveTs : ℕ) (t1 t4 : ℚ)

include hquery

/-- **The reply of an unsynchronised server** is an error to the client, and called a
Kiss-o'-Death. -/
theorem queryNtp_unsynchronised
    (hstratum : (s.disciplineParams gpsFix d.clock.params d.clock.current).stratum ≠ 1) :
    queryNtp (d.timeReply gpsFix receiveTs s) t1 t4 = .error (.kissOfDeath "INIT".toList) := by
  have hreq : ntpPacketLen ≤ (d.bytes.take ntpPacketLen).length := by rw [hquery]; decide
  obtain ⟨hlength, -, hrefId, -⟩ := timeReply_layout hreq
    (s.disciplineParams gpsFix d.clock.params d.clock.current) receiveTs
    (s.currentNtpTimestamp d.clock.transmit) (replyModeFor (requestMode d.bytes))
  obtain ⟨hreplyStratum, -, -, -⟩ := timeReply_fields hreq
    (s.disciplineParams gpsFix d.clock.params d.clock.current) receiveTs
    (s.currentNtpTimestamp d.clock.transmit) (replyModeFor (requestMode d.bytes))
  have hsixteen := (stratum_eq gpsFix d.clock.params d.clock.current).resolve_left hstratum
  rw [hsixteen] at hreplyStratum
  rw [if_neg hstratum] at hrefId
  rw [Datagram.timeReply, queryNtp_stratum_zero hlength t1 t4 (hreplyStratum.trans rfl), hrefId]
  rfl

/-- **The reply of a synchronised server**, as the client reads it. -/
theorem queryNtp_synchronised (hleap : s.pendingLeap ≤ 2)
    (hstratum : (s.disciplineParams gpsFix d.clock.params d.clock.current).stratum = 1) :
    queryNtp (d.timeReply gpsFix receiveTs s) t1 t4 = .ok
      { offsetMs := offset t1 (unixOf (receiveTs % 256 ^ 8))
          (unixOf (s.currentNtpTimestamp d.clock.transmit % 256 ^ 8)) t4 * 1000
        delayMs := delay t1 (unixOf (receiveTs % 256 ^ 8))
          (unixOf (s.currentNtpTimestamp d.clock.transmit % 256 ^ 8)) t4 * 1000
        stratum := 1, refId := "GPS".toList, leap := s.pendingLeap } := by
  have hreq : ntpPacketLen ≤ (d.bytes.take ntpPacketLen).length := by rw [hquery]; decide
  obtain ⟨hlength, -, hrefId, -⟩ := timeReply_layout hreq
    (s.disciplineParams gpsFix d.clock.params d.clock.current) receiveTs
    (s.currentNtpTimestamp d.clock.transmit) (replyModeFor (requestMode d.bytes))
  obtain ⟨hreplyStratum, -, hreceive, htransmit⟩ := timeReply_fields hreq
    (s.disciplineParams gpsFix d.clock.params d.clock.current) receiveTs
    (s.currentNtpTimestamp d.clock.transmit) (replyModeFor (requestMode d.bytes))
  have hdpleap : (s.disciplineParams gpsFix d.clock.params d.clock.current).leap = s.pendingLeap :=
    if_pos hstratum
  have hthree : s.pendingLeap ≤ 3 := UInt8.le_trans hleap (by decide)
  have hheader : packetLeap (d.timeReply gpsFix receiveTs s) = s.pendingLeap := by
    rw [← hdpleap]
    exact header_leap _ (hdpleap ▸ hthree) (replyVersion_le _)
  rw [hstratum] at hreplyStratum
  rw [if_pos hstratum] at hrefId
  rw [Datagram.timeReply] at hheader ⊢
  rw [queryNtp_stratum_one hlength t1 t4 (hreplyStratum.trans rfl), hrefId, hreceive, htransmit,
    hheader, and_three_of_le hthree]
  rfl

end TimeReply

/-! ## What the client is told -/

/-- The server is synchronised as it serves a datagram. -/
def Synchronised (s : NtpServer) (gpsFix : Bool) (d : Datagram) : Prop :=
  (s.disciplineParams gpsFix d.clock.params d.clock.current).stratum = 1

/-- **The client and the server agree on the state of the server.**  Whatever else is polled with
it, a query that is answered gets a result exactly when the server is synchronised and the limiter
has let it pass.  The result then is at stratum 1, from GPS, with a leap indicator that is not the
alarm; and what else the client is sent it calls a Kiss-o'-Death, RATE by the limiter and INIT by
the server. -/
theorem query_verdict {s : NtpServer} (hs : s.Reachable) {gpsFix : Bool} {ds : List Datagram}
    {p : Datagram × Disposition} (hp : p ∈ ds.zip (s.poll gpsFix ds).2)
    (hquery : p.1.bytes = queryPacket) {reply : List UInt8} (hreply : p.2.reply = some reply)
    (t1 t4 : ℚ) :
    (p.2.isKod = true → queryNtp reply t1 t4 = .error (.kissOfDeath "RATE".toList)) ∧
    (p.2.isKod = false → ¬Synchronised s gpsFix p.1 →
      queryNtp reply t1 t4 = .error (.kissOfDeath "INIT".toList)) ∧
    (p.2.isKod = false → Synchronised s gpsFix p.1 →
      ∃ result, queryNtp reply t1 t4 = .ok result ∧ result.stratum = 1 ∧
        result.refId = "GPS".toList ∧ result.leap = s.pendingLeap ∧ result.leap ≤ 2) := by
  rcases query_reply hp hquery hreply with ⟨hkod, rfl⟩ | ⟨t, t', -, ht', hkod, rfl⟩
  · rw [hkod]
    exact ⟨fun _ => queryNtp_kodReply hquery t1 t4, nofun, nofun⟩
  · have hleap : t'.pendingLeap ≤ 2 := (ht'.wellFormed hs.wellFormed).leap
    have hpending : t'.pendingLeap = s.pendingLeap := (congrArg pendingLeap ht').trans rfl
    rw [hkod, Synchronised, ← ht'.disciplineParams]
    refine ⟨nofun, fun _ hstratum => ?_, fun _ hstratum => ?_⟩
    · exact queryNtp_unsynchronised hquery gpsFix _ t1 t4 hstratum
    · refine ⟨_, queryNtp_synchronised hquery gpsFix _ t1 t4 hleap hstratum, rfl, rfl, hpending,
        hleap⟩

/-- A query that comes 500 ms after the lock, and one a second later. -/
def queries : List Datagram :=
  [clientRequest, { clientRequest with clock := { clientRequest.clock with rateLimit := 3500000 } }]

/-- The first query gets a result, the second is called RATE. -/
theorem query_verdict_queries :
    (∃ reply result, ((firstLock.poll true queries).2.map Disposition.reply).head? =
        some (some reply) ∧ queryNtp reply 0 0 = .ok result ∧ result.leap = 0) ∧
      ∃ reply, ((firstLock.poll true queries).2.map Disposition.reply).getLast? =
        some (some reply) ∧ queryNtp reply 0 0 = .error (.kissOfDeath "RATE".toList) := by
  have hserved : ∃ reply kod,
      queries.zip (firstLock.poll true queries).2 =
        [(clientRequest, .served reply), (queries.getLast (by decide), .limited kod)] := ⟨_, _, rfl⟩
  obtain ⟨reply, kod, hzip⟩ := hserved
  have hdispositions : (firstLock.poll true queries).2 = [.served reply, .limited kod] := by
    have hsnd := congrArg (List.map Prod.snd) hzip
    rwa [List.map_snd_zip (by rfl)] at hsnd
  have hfirst := query_verdict reachable_firstLock (hzip ▸ List.mem_cons_self) rfl rfl 0 0
  have hlast := query_verdict reachable_firstLock (hzip ▸ List.mem_cons_of_mem _ List.mem_cons_self)
    rfl rfl 0 0
  obtain ⟨result, hresult, -, -, hleap, -⟩ := hfirst.2.2 rfl rfl
  rw [hdispositions]
  exact ⟨⟨reply, result, rfl, hresult, hleap⟩, kod, rfl, hlast.1 rfl⟩

/-! ## What the client measures -/

/-- **A time stamp is the disciplined instant** up to its grain. -/
theorem unixOf_currentNtpTimestamp {s : NtpServer} {anchor : ClockAnchor}
    (hanchor : s.clockAnchor = some anchor) {now : ClockReading}
    (hera : s.InEra0 now.monotonicUs) :
    |unixOf (s.currentNtpTimestamp now % 256 ^ 8) -
      (s.instantUs anchor now.monotonicUs : ℚ) / 1000000| ≤ 1 / 2 ^ 32 := by
  obtain ⟨anchor', hanchor', h₀, h₁, hts⟩ := currentNtpTimestamp_eq hera
  obtain rfl : anchor = anchor' := Option.some.inj (hanchor.symm.trans hanchor')
  have hlt := currentNtpTimestamp_lt hera
  rw [Nat.mod_eq_of_lt hlt, hts, ntpTimestampFromUnix_eq h₀ h₁ (by omega), instantUs]
  generalize s.correctedElapsedUs (satSub now.monotonicUs anchor.monotonicUs) = elapsed at *
  -- the second of the stamp, the microseconds behind it and the grains they fill
  obtain ⟨u, hu⟩ : ∃ u : ℕ, (u : ℤ) = anchor.unixSeconds + elapsed / 1000000 :=
    ⟨(anchor.unixSeconds + elapsed / 1000000).toNat, Int.toNat_of_nonneg h₀⟩
  obtain ⟨rem, hrem⟩ : ∃ rem : ℕ, (rem : ℤ) = elapsed % 1000000 :=
    ⟨(elapsed % 1000000).toNat, Int.toNat_of_nonneg (by omega)⟩
  have hinstant : anchor.unixSeconds * 1000000 + elapsed = u * 1000000 + rem := by omega
  rw [← hu, ← hrem, Int.toNat_natCast, Int.toNat_natCast, hinstant, unixOf, ntpEpochDelta]
  have hlower : rem * 4294967296 / 1000000 * 1000000 ≤ rem * 4294967296 := Nat.div_mul_le_self _ _
  have hupper : rem * 4294967296 < (rem * 4294967296 / 1000000 + 1) * 1000000 := by omega
  generalize rem * 4294967296 / 1000000 = grains at hlower hupper ⊢
  have hlower : (grains : ℚ) * 1000000 ≤ rem * 4294967296 := by exact_mod_cast hlower
  have hupper : (rem : ℚ) * 4294967296 < (grains + 1) * 1000000 := by exact_mod_cast hupper
  push_cast
  rw [abs_le]
  constructor <;> linarith

/-- **What the client measures is true** up to the server's error, half the time in the network and
the grain of a time stamp.  Let the client's clock be wrong by `θ` throughout a query, and the
server's disciplined clock by at most `ε` as it stamps the query and its reply.  Then the offset
that the client computes is `-θ` up to `ε`, half the time that the two packets were under way and
2⁻³² s, and its delay is that time up to twice the error. -/
theorem query_error {s : NtpServer} (hs : s.Reachable) {anchor : ClockAnchor}
    (hanchor : s.clockAnchor = some anchor) {gpsFix : Bool} {ds : List Datagram}
    {p : Datagram × Disposition} (hp : p ∈ ds.zip (s.poll gpsFix ds).2)
    (hquery : p.1.bytes = queryPacket) {reply : List UInt8} (hreply : p.2.reply = some reply)
    {t1 t4 : ℚ} {result : QueryResult} (hresult : queryNtp reply t1 t4 = .ok result)
    (hera : s.InEra0 p.1.clock.receive.monotonicUs)
    (hera' : s.InEra0 p.1.clock.transmit.monotonicUs) {θ ε sent receive transmit received : ℚ}
    (htrue : Stamped θ ε t1 ((s.instantUs anchor p.1.clock.receive.monotonicUs : ℚ) / 1000000)
      ((s.instantUs anchor p.1.clock.transmit.monotonicUs : ℚ) / 1000000) t4
      sent receive transmit received) :
    |result.offsetMs / 1000 + θ| ≤
        ε + 1 / 2 ^ 32 + ((receive - sent) + (received - transmit)) / 2 ∧
      |result.delayMs / 1000 - ((receive - sent) + (received - transmit))| ≤
        2 * (ε + 1 / 2 ^ 32) := by
  rcases query_reply hp hquery hreply with ⟨-, rfl⟩ | ⟨t, t', ht, ht', -, rfl⟩
  · rw [queryNtp_kodReply hquery] at hresult
    cases hresult
  · have hleap : t'.pendingLeap ≤ 2 := (ht'.wellFormed hs.wellFormed).leap
    by_cases hstratum : (t'.disciplineParams gpsFix p.1.clock.params p.1.clock.current).stratum = 1
    · rw [queryNtp_synchronised hquery gpsFix _ t1 t4 hleap hstratum, ht.currentNtpTimestamp,
        ht'.currentNtpTimestamp] at hresult
      obtain rfl := Except.ok.inj hresult
      have hstamps := htrue.near (unixOf_currentNtpTimestamp hanchor hera)
        (unixOf_currentNtpTimestamp hanchor hera')
      dsimp only
      rw [mul_div_cancel_right₀ _ (by norm_num), mul_div_cancel_right₀ _ (by norm_num)]
      exact ⟨hstamps.offset, hstamps.delay⟩
    · rw [queryNtp_unsynchronised hquery gpsFix _ t1 t4 hstratum] at hresult
      cases hresult

/-- The client is a second fast, the server exact, and each packet takes a millisecond. -/
theorem query_error_secondFast :
    ∃ reply result, (firstLock.poll true [clientRequest]).2 = [.served reply] ∧
      queryNtp reply (102499 / 1000) (102501001 / 1000000) = .ok result ∧
      |result.offsetMs / 1000 + 1| ≤ 1 / 2 ^ 32 + 1 / 1000 := by
  obtain ⟨reply, hzip⟩ : ∃ reply,
      [clientRequest].zip (firstLock.poll true [clientRequest]).2 =
        [(clientRequest, .served reply)] := ⟨_, rfl⟩
  have hpoll : (firstLock.poll true [clientRequest]).2 = [.served reply] := by
    have hsnd := congrArg (List.map Prod.snd) hzip
    rwa [List.map_snd_zip (by rfl)] at hsnd
  have hmem := hzip ▸ List.mem_cons_self
  obtain ⟨result, hresult⟩ : ∃ result,
      queryNtp reply (102499 / 1000) (102501001 / 1000000) = .ok result := by
    rcases query_reply hmem rfl rfl with ⟨hkod, -⟩ | ⟨t, t', -, ht', -, hreply⟩
    · cases hkod
    · rw [hreply]
      exact ⟨_, queryNtp_synchronised rfl true _ _ _
        (ht'.wellFormed reachable_firstLock.wellFormed).leap (ht'.disciplineParams _ _ _)⟩
  have hreceive : firstLock.instantUs ⟨101, 2000000⟩ 2500000 = 101500000 := by decide +kernel
  have htransmit : firstLock.instantUs ⟨101, 2000000⟩ 2500001 = 101500001 := by decide +kernel
  have htrue : Stamped (1 : ℚ) 0 (102499 / 1000)
      ((firstLock.instantUs ⟨101, 2000000⟩ 2500000 : ℚ) / 1000000)
      ((firstLock.instantUs ⟨101, 2000000⟩ 2500001 : ℚ) / 1000000) (102501001 / 1000000)
      (101499 / 1000) (101500000 / 1000000) (101500001 / 1000000) (101501001 / 1000000) := by
    rw [hreceive, htransmit]
    exact ⟨by norm_num, by norm_num, by norm_num, by norm_num, by norm_num, by norm_num⟩
  have herror := (query_error reachable_firstLock rfl hmem rfl rfl hresult
    ⟨101, rfl, by decide, by decide⟩ ⟨101, rfl, by decide, by decide⟩ htrue).1
  exact ⟨reply, result, hpoll, hresult, herror.trans (by norm_num)⟩

end GpsNtp.Scripts
