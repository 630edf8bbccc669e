import GpsNtp.Machinery.Bytes
import GpsNtp.Ntp.Discipline
import Mathlib.Tactic.IntervalCases

/-!
# Ntp/Packet — the replies, byte by byte

    0        1        2     3      4     8     12    16    24    32    40      48
    LI VN M  stratum  poll  prec.  delay disp. refid ref.  orig. recv. xmit.

`build_response`, `build_kod_response` and `build_mode6_response`.  A reply is the concatenation
of its fields in wire order; the source writes the same fields into a zeroed buffer.  A mode-6
reply carries text, so its number formats are here too.
-/

namespace GpsNtp

open MachineInt Bytes

/-! ## Protocol constants -/

/-- `NTP_PACKET_LEN`. -/
def ntpPacketLen : ℕ := 48

/-- `NTP_MAX_PACKET_LEN`: the length of the receive buffer. -/
def ntpMaxPacketLen : ℕ := 512

/-- `NTP_CONTROL_HEADER_LEN`. -/
def ntpControlHeaderLen : ℕ := 12

/-- `MODE_SYMMETRIC_ACTIVE`. -/
def modeSymmetricActive : UInt8 := 1

/-- `MODE_SYMMETRIC_PASSIVE`. -/
def modeSymmetricPassive : UInt8 := 2

/-- `MODE_CLIENT`. -/
def modeClient : UInt8 := 3

/-- `MODE_SERVER`. -/
def modeServer : UInt8 := 4

/-- `MODE_CONTROL`. -/
def modeControl : UInt8 := 6

/-- `MODE6_OPCODE_READSTAT`. -/
def mode6OpcodeReadstat : UInt8 := 1

/-- `MODE6_OPCODE_READVAR`. -/
def mode6OpcodeReadvar : UInt8 := 2

/-- `MODE6_ASSOC_ID`. -/
def mode6AssocId : ℕ := 1

/-- `MODE6_RESPONSE_BIT`. -/
def mode6ResponseBit : UInt8 := 0x80

/-- `MODE6_ERROR_BIT`. -/
def mode6ErrorBit : UInt8 := 0x40

/-- `MODE6_ERR_BAD_OPCODE`. -/
def mode6ErrBadOpcode : ℕ := 3

/-- `MODE6_ERR_BAD_ASSOC`. -/
def mode6ErrBadAssoc : ℕ := 4

/-- `ROOT_DELAY_MS`. -/
def rootDelayMs : ℚ := 0

/-- `KOD_KISS_RATE`, the letters RATE. -/
def kodKissRate : List UInt8 := [82, 65, 84, 69]

/-- The reference id of a synchronised server, the letters GPS and a NUL. -/
def refIdGps : List UInt8 := [71, 80, 83, 0]

/-- The reference id of an unsynchronised server, the letters INIT. -/
def refIdInit : List UInt8 := [73, 78, 73, 84]

/-! ## Time replies -/

/-- `reply_version`: versions 1 to 4 are mirrored, any other is answered as 4. -/
def replyVersion (requestVn : UInt8) : UInt8 :=
  if 1 ≤ requestVn ∧ requestVn ≤ 4 then requestVn else 4

/-- The mode a request header carries. -/
def requestMode (req : List UInt8) : UInt8 := req.getD 0 0 &&& 0x07

/-- The mode that answers a request: server for a client, symmetric-passive for symmetric-active. -/
def replyModeFor (mode : UInt8) : UInt8 :=
  if mode = modeClient then modeServer else modeSymmetricPassive

/-- The version a request header carries. -/
def requestVersion (req : List UInt8) : UInt8 := (req.getD 0 0 >>> 3) &&& 0x07

/-- `build_kod_response`: the Kiss-o'-Death RATE reply. -/
def buildKodResponse (req : List UInt8) (version replyMode : UInt8) : List UInt8 :=
  [((3 : UInt8) <<< 6) ||| (replyVersion version <<< 3) ||| (replyMode &&& 0x07), 0] ++
    List.replicate 10 0 ++ kodKissRate ++ List.replicate 8 0 ++ field 40 8 req ++
    List.replicate 16 0

/-- `build_response`: a time reply, its transmit timestamp still to be filled in. -/
def buildResponse (req : List UInt8) (dp : DisciplineParams) (receiveTs : ℕ)
    (replyMode : UInt8) : List UInt8 :=
  let version := replyVersion (requestVersion req)
  let stratum := if stratumUnsync ≤ dp.stratum then 0 else dp.stratum
  let refId := if dp.stratum = 1 then refIdGps else refIdInit
  let referenceTs := if dp.stratum = 1 then dp.refTs else 0
  [(dp.leap <<< 6) ||| (version <<< 3) ||| (replyMode &&& 0x07), stratum, req.getD 2 0,
      UInt8.ofNat (dp.precision % 256).toNat] ++
    toBe 4 0 ++ toBe 4 dp.rootDispShort ++ refId ++ toBe 8 referenceTs ++ field 40 8 req ++
    toBe 8 receiveTs ++ List.replicate 8 0

/-- The transmit timestamp, written just before the reply is sent. -/
def writeTransmitTs (resp : List UInt8) (transmitTs : ℕ) : List UInt8 :=
  resp.take 40 ++ toBe 8 transmitTs

/-! ## Number formats -/

/-- A non-negative rational rounded to the nearest integer, ties to even. -/
def roundHalfEven (q : ℚ) : ℕ :=
  let whole := ⌊q⌋.toNat
  let frac := q - ⌊q⌋
  if frac < 1 / 2 ∨ (frac = 1 / 2 ∧ whole % 2 = 0) then whole else whole + 1

/-- The last `width` digits of `n` in `base`, most significant first. -/
def fixedDigits (base : ℕ) : ℕ → ℕ → String
  | 0, _ => ""
  | width + 1, n =>
    fixedDigits base width (n / base) ++ String.singleton (Nat.digitChar (n % base)).toUpper

/-- The format `:.3`: three decimals. -/
def formatFixed3 (q : ℚ) : String :=
  let thousandths := roundHalfEven (|q| * 1000)
  (if q < 0 then "-" else "") ++ toString (thousandths / 1000) ++ "." ++
    fixedDigits 10 3 (thousandths % 1000)

/-- `ntp_ts_to_mode6`: both halves of a timestamp in hexadecimal. -/
def ntpTsToMode6 (ts : ℕ) : String :=
  "0x" ++ fixedDigits 16 8 (wrapU32 (ts / 4294967296)) ++ "." ++ fixedDigits 16 8 (wrapU32 ts)

/-! ## Mode-6 replies -/

/-- The leap indicator as its two binary digits. -/
def leapStr (leap : UInt8) : String := fixedDigits 2 2 (leap &&& 0x03).toNat

/-- READVAR on association 0: the system variables. -/
def systemVariables (dp : DisciplineParams) (stats : NtpServer.ServoStats) : String :=
  if dp.stratum = 1 then
    let offsetMs : ℚ := stats.ppsOffsetUs / 1000
    let jitterMs : ℚ := max stats.ppsJitterUs 1 / 1000
    let freqSign := if 0 ≤ stats.freqPpm then "+" else ""
    "stratum=" ++ toString dp.stratum ++ ",leap=" ++ leapStr dp.leap ++
      ",precision=" ++ toString dp.precision ++
      ",rootdelay=" ++ formatFixed3 rootDelayMs ++ ",rootdisp=" ++ formatFixed3 dp.rootDispMs ++
      ",refid=GPS" ++
      ",reftime=" ++ ntpTsToMode6 dp.refTs ++ ",clock=" ++ ntpTsToMode6 dp.currentTs ++
      ",offset=" ++ formatFixed3 offsetMs ++
      ",frequency=" ++ freqSign ++ formatFixed3 stats.freqPpm ++
      ",sys_jitter=" ++ formatFixed3 jitterMs ++ ",clk_jitter=" ++ formatFixed3 jitterMs ++
      ",clk_wander=" ++ formatFixed3 |stats.freqPpm| ++
      ",tc=7,mintc=3,peer=1,system=\"rust_gps_ntp\""
  else
    "stratum=16,leap=11,precision=" ++ toString dp.precision ++
      ",rootdelay=" ++ formatFixed3 rootDelayMs ++ ",rootdisp=" ++ formatFixed3 dp.rootDispMs ++
      ",refid=INIT" ++
      ",reftime=" ++ ntpTsToMode6 dp.refTs ++ ",clock=" ++ ntpTsToMode6 dp.currentTs ++
      ",offset=0.000,frequency=+0.000" ++
      ",sys_jitter=0.000,clk_jitter=0.000,clk_wander=0.000" ++
      ",tc=7,mintc=3,peer=0,system=\"rust_gps_ntp\""

/-- READVAR on the one peer association: the peer variables. -/
def peerVariables (dp : DisciplineParams) (stats : NtpServer.ServoStats) : String :=
  if dp.stratum = 1 then
    let offsetMs : ℚ := stats.ppsOffsetUs / 1000
    let jitterMs : ℚ := max stats.ppsJitterUs 1 / 1000
    let delayMs : ℚ := max stats.procDelayUs 1 / 1000
    "srcadr=GPS,srcport=123,refid=GPS" ++
      ",stratum=" ++ toString dp.stratum ++ ",leap=" ++ leapStr dp.leap ++ ",hmode=3,pmode=4" ++
      ",hpoll=6,ppoll=6,reach=255" ++
      ",delay=" ++ formatFixed3 delayMs ++ ",offset=" ++ formatFixed3 offsetMs ++
      ",jitter=" ++ formatFixed3 jitterMs ++
      ",dispersion=" ++ formatFixed3 dp.rootDispMs ++ ",xleave=0.000" ++
      ",filtdelay=" ++ formatFixed3 delayMs ++ ",filtoffset=" ++ formatFixed3 offsetMs ++
      ",filtdisp=" ++ formatFixed3 jitterMs
  else
    "srcadr=INIT,srcport=123,refid=INIT,stratum=16,leap=11,hmode=3,pmode=4" ++
      ",hpoll=6,ppoll=6,reach=0,delay=0.001,offset=0.000,jitter=0.000" ++
      ",dispersion=5000.000,xleave=0.000,filtdelay=0.001,filtoffset=0.000,filtdisp=5000.000"

/-- The peer status word: selected and reachable when synchronised, configured either way. -/
def peerStatus (dp : DisciplineParams) : ℕ :=
  if dp.stratum = 1 then (6 <<< 13) ||| (1 <<< 12) ||| (1 <<< 9) else 1 <<< 12

/-- The data of a mode-6 reply whose variables are these texts, or the error code it reports
instead. -/
def mode6PayloadWith (systemText peerText : List UInt8) (opcode : UInt8) (associd : ℕ)
    (dp : DisciplineParams) : List UInt8 × Option ℕ :=
  if opcode = mode6OpcodeReadstat then
    if associd = 0 then (toBe 2 mode6AssocId ++ toBe 2 (peerStatus dp), none)
    else if associd ≠ mode6AssocId then ([], some mode6ErrBadAssoc)
    else ([], none)
  else if opcode = mode6OpcodeReadvar then
    if associd = 0 then (systemText, none)
    else if associd = mode6AssocId then (peerText, none)
    else ([], some mode6ErrBadAssoc)
  else ([], some mode6ErrBadOpcode)

/-- The data of a mode-6 reply, with the texts that the server formats. -/
def mode6Payload (opcode : UInt8) (associd : ℕ) (dp : DisciplineParams)
    (stats : NtpServer.ServoStats) : List UInt8 × Option ℕ :=
  mode6PayloadWith (systemVariables dp stats).toUTF8.data.toList
    (peerVariables dp stats).toUTF8.data.toList opcode associd dp

/-- The status word of a mode-6 reply: the error, the peer's status, or the system's. -/
def mode6Status (opcode : UInt8) (associd : ℕ) (error : Option ℕ) (dp : DisciplineParams) : ℕ :=
  match error with
  | some code => code <<< 8
  | none =>
    if opcode = mode6OpcodeReadstat ∧ associd ≠ 0 then peerStatus dp
    else
      let clksrc := if dp.stratum = 1 then 4 else 0
      (dp.leap.toNat <<< 14) % 65536 ||| (clksrc <<< 8)

/-- The reply to a control request of at least twelve bytes, with these texts for the system and the
peer variables. -/
def buildMode6ResponseWith (systemText peerText req : List UInt8) (version : UInt8)
    (dp : DisciplineParams) : List UInt8 :=
  let opcode := req.getD 1 0 &&& 0x1f
  let associd := ofBe (field 6 2 req)
  let (payload, error) := mode6PayloadWith systemText peerText opcode associd dp
  let errorBit := if error.isSome then mode6ErrorBit else 0
  let count := min payload.length 65535
  let resp :=
    [(replyVersion version <<< 3) ||| modeControl, mode6ResponseBit ||| errorBit ||| opcode,
        req.getD 2 0, req.getD 3 0] ++
      toBe 2 (mode6Status opcode associd error dp) ++ toBe 2 associd ++ toBe 2 0 ++ toBe 2 count
  if 0 < count then
    let resp := resp ++ payload.take count
    resp ++ List.replicate ((4 - resp.length % 4) % 4) 0
  else resp

/-- `build_mode6_response`: the reply with the texts that the server formats. -/
def buildMode6Response (req : List UInt8) (version : UInt8) (dp : DisciplineParams)
    (stats : NtpServer.ServoStats) : List UInt8 :=
  buildMode6ResponseWith (systemVariables dp stats).toUTF8.data.toList
    (peerVariables dp stats).toUTF8.data.toList req version dp

/-! ## Header bits

The first byte of a packet packs three fields, `LI` over `VN` over mode. -/

/-- The leap indicator a packet header carries. -/
def packetLeap (packet : List UInt8) : UInt8 := packet.getD 0 0 >>> 6

theorem and_three_of_le {x : UInt8} (h : x ≤ 3) : x &&& 3 = x := by
  have hx : x.toNat < 2 ^ 2 := Nat.lt_succ_of_le h
  rw [← UInt8.toNat_inj, UInt8.toNat_and]
  exact Nat.and_two_pow_sub_one_of_lt_two_pow hx

theorem and_seven_of_le {x : UInt8} (h : x ≤ 7) : x &&& 7 = x := by
  have hx : x.toNat < 2 ^ 3 := Nat.lt_succ_of_le h
  rw [← UInt8.toNat_inj, UInt8.toNat_and]
  exact Nat.and_two_pow_sub_one_of_lt_two_pow hx

/-- The mode of a header is the mode written, whatever stands above it. -/
theorem header_mode (li vn mode : UInt8) :
    ((li <<< 6) ||| (vn <<< 3) ||| (mode &&& 7)) &&& 7 = mode &&& 7 := by
  rw [← UInt8.toBitVec_inj]
  refine BitVec.eq_of_getLsbD_eq fun i hi => ?_
  interval_cases i <;> simp

/-- The version of a header is the version written. -/
theorem header_version (li mode : UInt8) {vn : UInt8} (h : vn ≤ 7) :
    (((li <<< 6) ||| (vn <<< 3) ||| (mode &&& 7)) >>> 3) &&& 7 = vn := by
  rw [← and_seven_of_le h, ← UInt8.toBitVec_inj]
  refine BitVec.eq_of_getLsbD_eq fun i hi => ?_
  interval_cases i <;> simp

/-- The leap indicator of a header is the one written. -/
theorem header_leap (mode : UInt8) {li vn : UInt8} (hli : li ≤ 3) (hvn : vn ≤ 7) :
    ((li <<< 6) ||| (vn <<< 3) ||| (mode &&& 7)) >>> 6 = li := by
  rw [← and_three_of_le hli, ← and_seven_of_le hvn, ← UInt8.toBitVec_inj]
  refine BitVec.eq_of_getLsbD_eq fun i hi => ?_
  interval_cases i <;> simp

theorem replyVersion_le (requestVn : UInt8) : replyVersion requestVn ≤ 7 := by
  unfold replyVersion
  split_ifs with h
  · exact UInt8.le_trans h.2 (by decide)
  · decide

/-! ## Reading a time reply -/

/-- The stratum of a time reply. -/
def replyStratum (reply : List UInt8) : UInt8 := reply.getD 1 0

/-- The Reference Timestamp of a time reply. -/
def replyReferenceTs (reply : List UInt8) : ℕ := ofBe (field 16 8 reply)

/-- The Receive Timestamp of a time reply. -/
def replyReceiveTs (reply : List UInt8) : ℕ := ofBe (field 32 8 reply)

/-- The Transmit Timestamp of a time reply. -/
def replyTransmitTs (reply : List UInt8) : ℕ := ofBe (field 40 8 reply)

/-- A time reply, cut at its timestamps. -/
theorem writeTransmitTs_buildResponse {req : List UInt8} (h : ntpPacketLen ≤ req.length)
    (dp : DisciplineParams) (receiveTs transmitTs : ℕ) (replyMode : UInt8) :
    ∃ head refId : List UInt8, head.length = 12 ∧ refId.length = 4 ∧
      head.getD 1 0 = (if stratumUnsync ≤ dp.stratum then 0 else dp.stratum) ∧
      writeTransmitTs (buildResponse req dp receiveTs replyMode) transmitTs =
        head ++ (refId ++ (toBe 8 (if dp.stratum = 1 then dp.refTs else 0) ++
          (field 40 8 req ++ (toBe 8 receiveTs ++ toBe 8 transmitTs)))) := by
  have horigin : (field 40 8 req).length = 8 := length_field h
  have hrefId : ∀ b : Prop, [Decidable b] → (if b then refIdGps else refIdInit).length = 4 :=
    fun b _ => by split <;> rfl
  refine ⟨[(dp.leap <<< 6) ||| (replyVersion (requestVersion req) <<< 3) ||| (replyMode &&& 0x07),
    if stratumUnsync ≤ dp.stratum then 0 else dp.stratum, req.getD 2 0,
    UInt8.ofNat (dp.precision % 256).toNat] ++ toBe 4 0 ++ toBe 4 dp.rootDispShort,
    if dp.stratum = 1 then refIdGps else refIdInit, by simp, hrefId _, rfl, ?_⟩
  rw [writeTransmitTs, buildResponse, List.take_left' (by simp [horigin, hrefId])]
  simp only [List.append_assoc]

/-- **The timestamps of a time reply** are those it was built from. -/
theorem timeReply_fields {req : List UInt8} (h : ntpPacketLen ≤ req.length)
    (dp : DisciplineParams) (receiveTs transmitTs : ℕ) (replyMode : UInt8) :
    let r := writeTransmitTs (buildResponse req dp receiveTs replyMode) transmitTs
    replyStratum r = (if stratumUnsync ≤ dp.stratum then 0 else dp.stratum) ∧
      replyReferenceTs r = (if dp.stratum = 1 then dp.refTs else 0) % 256 ^ 8 ∧
      replyReceiveTs r = receiveTs % 256 ^ 8 ∧ replyTransmitTs r = transmitTs % 256 ^ 8 := by
  intro r
  obtain ⟨head, refId, hhead, hrefId, hstratum, hr⟩ :=
    writeTransmitTs_buildResponse h dp receiveTs transmitTs replyMode
  have horigin : (field 40 8 req).length = 8 := length_field h
  have hr : r = _ := hr
  rw [hr]
  refine ⟨?_, ?_, ?_, ?_⟩
  · rw [replyStratum, List.getD_eq_getElem?_getD, List.getElem?_append_left (by omega),
      ← List.getD_eq_getElem?_getD, hstratum]
  · rw [replyReferenceTs, field_append_of_le (by omega), field_append_of_le (by omega), hhead,
      hrefId, field_append_self (length_toBe 8 _), ofBe_toBe]
  · rw [replyReceiveTs, field_append_of_le (by omega), field_append_of_le (by omega), hhead,
      hrefId, field_append_of_le (by simp), length_toBe, field_append_of_le (by omega), horigin,
      field_append_self (length_toBe 8 _), ofBe_toBe]
  · rw [replyTransmitTs, field_append_of_le (by omega), field_append_of_le (by omega), hhead,
      hrefId, field_append_of_le (by simp), length_toBe, field_append_of_le (by omega), horigin,
      field_append_of_le (by simp), length_toBe]
    have htail := @field_append_self (toBe 8 transmitTs) [] 8 (length_toBe 8 _)
    rw [List.append_nil] at htail
    exact (congrArg ofBe htail).trans (ofBe_toBe 8 transmitTs)

end GpsNtp
