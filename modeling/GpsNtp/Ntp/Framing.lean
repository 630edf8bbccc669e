import GpsNtp.Ntp.Diagnostics

/-!
# Ntp/Framing — control replies are well framed

    0        1       2     4       6      8       10     12          12 + count
    LI VN 6  R E op  seq.  status  assoc  offset  count  data ⋯      0 0 ⋯ to a multiple of four

Opcode and association choose the data or the error, and the error chooses the status word and the
error bit; count and padding follow the data.  None of it depends on what the variables of READVAR
say, so the results are about `buildMode6ResponseWith`, which takes their text from outside.
-/

namespace GpsNtp

open Bytes

/-! ## Replies with any text -/

/-- The twelve bytes in front of the data. -/
def controlHeader (req : List UInt8) (version errorBit : UInt8) (status count : ℕ) : List UInt8 :=
  ((replyVersion version <<< 3) ||| modeControl) ::
    (mode6ResponseBit ||| errorBit ||| (req.getD 1 0 &&& 0x1f)) :: req.getD 2 0 :: req.getD 3 0 ::
      (toBe 2 status ++ toBe 2 (ofBe (field 6 2 req)) ++ toBe 2 0 ++ toBe 2 count)

/-- The zeros that round the data up to a multiple of four bytes. -/
def padding (count : ℕ) : List UInt8 := List.replicate ((count + 3) / 4 * 4 - count) 0

/-- **A reply is its header, its data and its padding.** -/
theorem buildMode6ResponseWith_eq {systemText peerText req data : List UInt8}
    {dp : DisciplineParams} {error : Option ℕ}
    (hpayload : mode6PayloadWith systemText peerText (controlOpcode req) (controlAssocId req) dp =
      (data, error)) (hdata : data.length < 65536) (version : UInt8) :
    buildMode6ResponseWith systemText peerText req version dp =
      controlHeader req version (if error.isSome then mode6ErrorBit else 0)
        (mode6Status (controlOpcode req) (controlAssocId req) error dp) data.length ++
        (data ++ padding data.length) := by
  rw [controlOpcode, controlAssocId] at hpayload
  have hcount : min data.length 65535 = data.length := min_eq_left (Nat.le_of_lt_succ hdata)
  simp only [buildMode6ResponseWith, hpayload, hcount, List.take_length]
  rcases data with _ | ⟨b, data⟩
  · rfl
  · have hpos : 0 < (b :: data).length := Nat.succ_pos _
    rw [if_pos hpos, List.append_assoc]
    refine congrArg _ (congrArg _ (congrArg (List.replicate · 0) ?_))
    simp only [List.length_append, List.length_cons, List.length_nil, length_toBe]
    omega

/-! ## What a well framed reply is -/

/-- The count of data bytes that a control reply states. -/
def controlCount (reply : List UInt8) : ℕ := ofBe (field 10 2 reply)

/-- An operation the server performs. -/
def Supported (req : List UInt8) : Prop :=
  controlOpcode req = mode6OpcodeReadstat ∨ controlOpcode req = mode6OpcodeReadvar

/-- An association the server has: itself or its one peer. -/
def Associated (req : List UInt8) : Prop :=
  controlAssocId req = 0 ∨ controlAssocId req = mode6AssocId

/-- **A well framed control reply** with these data. -/
structure WellFramed (req : List UInt8) (version : UInt8) (data reply : List UInt8) : Prop where
  leap : packetLeap reply = 0
  version : requestVersion reply = if 1 ≤ version ∧ version ≤ 4 then version else 4
  mode : requestMode reply = 6
  response : reply.getD 1 0 &&& 0x80 = 0x80
  opcode : reply.getD 1 0 &&& 0x1f = req.getD 1 0 &&& 0x1f
  error : reply.getD 1 0 &&& 0x40 = 0x40 ↔ ¬Supported req ∨ ¬Associated req
  refused : ¬Supported req ∨ ¬Associated req → controlCount reply = 0 ∧ reply.length = 12
  badOpcode : ¬Supported req → controlStatus reply = 3 * 256
  badAssoc : Supported req → ¬Associated req → controlStatus reply = 4 * 256
  sequence : field 2 2 reply = field 2 2 req
  association : field 6 2 reply = field 6 2 req
  offset : field 8 2 reply = [0, 0]
  count : controlCount reply = data.length
  carried : field 12 data.length reply = data
  length : reply.length = 12 + (data.length + 3) / 4 * 4
  padding : ∀ b ∈ reply.drop (12 + data.length), b = 0

/-! ## The header -/

/-- The bits of the second byte do not overlap. -/
theorem flags_eq (opcode : UInt8) (failed : Bool) :
    let flags := mode6ResponseBit ||| (if failed then mode6ErrorBit else 0) ||| (opcode &&& 0x1f)
    flags &&& 0x80 = 0x80 ∧ flags &&& 0x1f = opcode &&& 0x1f ∧
      (flags &&& 0x40 = 0x40 ↔ failed = true) := by
  have hbits : ∀ {x y : UInt8}, (∀ i < 8, x.toBitVec.getLsbD i = y.toBitVec.getLsbD i) → x = y :=
    fun h => UInt8.toBitVec_inj.mp (BitVec.eq_of_getLsbD_eq fun i hi => h i hi)
  refine ⟨hbits fun i hi => ?_, hbits fun i hi => ?_, ?_⟩
  · cases failed <;> interval_cases i <;> simp [mode6ResponseBit, mode6ErrorBit]
  · cases failed <;> interval_cases i <;> simp [mode6ResponseBit, mode6ErrorBit]
  · cases failed with
    | false =>
      refine iff_of_false (fun h => ?_) Bool.false_ne_true
      have hbit := congrArg (fun x : UInt8 => x.toBitVec.getLsbD 6) h
      simp [mode6ResponseBit] at hbit
    | true =>
      refine iff_of_true (hbits fun i hi => ?_) rfl
      interval_cases i <;> simp [mode6ResponseBit, mode6ErrorBit]

theorem field_two {off : ℕ} {bs : List UInt8} (h : off + 2 ≤ bs.length) :
    field off 2 bs = [bs.getD off 0, bs.getD (off + 1) 0] := by
  have hget : ∀ i (hi : i < bs.length), bs.getD i 0 = bs[i] := fun i hi => by
    rw [List.getD_eq_getElem?_getD, List.getElem?_eq_getElem hi, Option.getD_some]
  rw [field, List.drop_eq_getElem_cons (Nat.lt_of_succ_lt h), List.drop_eq_getElem_cons h,
    hget off, hget (off + 1)]
  rfl

/-- The fields of a header, whatever follows it. -/
theorem controlHeader_fields {req : List UInt8} (hreq : 12 ≤ req.length) (version errorBit : UInt8)
    (status : ℕ) {count : ℕ} (hcount : count < 65536) (rest : List UInt8) :
    let reply := controlHeader req version errorBit status count ++ rest
    packetLeap reply = 0 ∧ requestVersion reply = replyVersion version ∧ requestMode reply = 6 ∧
      field 2 2 reply = field 2 2 req ∧ controlStatus reply = status % 65536 ∧
      field 6 2 reply = field 6 2 req ∧ field 8 2 reply = [0, 0] ∧ controlCount reply = count := by
  have hfirst : (replyVersion version <<< 3) ||| modeControl =
      ((0 : UInt8) <<< 6) ||| (replyVersion version <<< 3) ||| (6 &&& 7) := by
    rw [show (0 : UInt8) <<< 6 = 0 from rfl, UInt8.zero_or]
    rfl
  have hassoc : toBe 2 (ofBe (field 6 2 req)) = field 6 2 req := by
    have hlength : (field 6 2 req).length = 2 := length_field (by omega)
    have hround := toBe_ofBe (field 6 2 req)
    rwa [hlength] at hround
  intro reply
  refine ⟨?_, ?_, ?_, ?_, ?_, hassoc, rfl, ?_⟩
  · rw [packetLeap, show reply.getD 0 0 = _ from hfirst]
    exact header_leap 6 (by decide) (replyVersion_le version)
  · rw [requestVersion, show reply.getD 0 0 = _ from hfirst]
    exact header_version 0 6 (replyVersion_le version)
  · rw [requestMode, show reply.getD 0 0 = _ from hfirst]
    exact header_mode 0 (replyVersion version) 6
  · exact (field_two (by omega)).symm
  · exact ofBe_toBe 2 status
  · exact (ofBe_toBe 2 count).trans (Nat.mod_eq_of_lt hcount)

theorem length_controlHeader (req : List UInt8) (version errorBit : UInt8) (status count : ℕ) :
    (controlHeader req version errorBit status count).length = 12 := by
  simp [controlHeader]

/-- What follows a header: the data, and zeros up to a multiple of four bytes. -/
theorem framed_body {header : List UInt8} (hheader : header.length = 12) (data : List UInt8) :
    let reply := header ++ (data ++ padding data.length)
    reply.length = 12 + (data.length + 3) / 4 * 4 ∧ field 12 data.length reply = data ∧
      ∀ b ∈ reply.drop (12 + data.length), b = 0 := by
  intro reply
  refine ⟨?_, ?_, ?_⟩
  · rw [List.length_append, List.length_append, hheader, padding, List.length_replicate]
    omega
  · rw [field_append_of_le hheader.le, hheader, Nat.sub_self, field_append_self rfl]
  · have hdrop : reply.drop (12 + data.length) = padding data.length := by
      rw [show reply = (header ++ data) ++ padding data.length from (List.append_assoc _ _ _).symm]
      exact List.drop_left' (by rw [List.length_append, hheader])
    rw [hdrop]
    exact fun b hb => List.eq_of_mem_replicate hb

/-! ## Data or error -/

section

variable {systemText peerText req : List UInt8} {dp : DisciplineParams}

theorem mode6PayloadWith_badOpcode (h : ¬Supported req) :
    mode6PayloadWith systemText peerText (controlOpcode req) (controlAssocId req) dp =
      ([], some 3) := by
  rw [Supported, not_or] at h
  rw [mode6PayloadWith, if_neg h.1, if_neg h.2, mode6ErrBadOpcode]

theorem mode6PayloadWith_badAssoc (h : Supported req) (hassoc : ¬Associated req) :
    mode6PayloadWith systemText peerText (controlOpcode req) (controlAssocId req) dp =
      ([], some 4) := by
  rw [Associated, not_or] at hassoc
  rcases h with hop | hop
  · rw [mode6PayloadWith, if_pos hop, if_neg hassoc.1, if_pos hassoc.2, mode6ErrBadAssoc]
  · have hother : controlOpcode req ≠ mode6OpcodeReadstat := by
      rw [hop]
      decide
    rw [mode6PayloadWith, if_neg hother, if_pos hop, if_neg hassoc.1, if_neg hassoc.2,
      mode6ErrBadAssoc]

theorem mode6PayloadWith_served (h : Supported req) (hassoc : Associated req)
    (hsystem : systemText.length < 65536) (hpeer : peerText.length < 65536) :
    ∃ data : List UInt8, data.length < 65536 ∧
      mode6PayloadWith systemText peerText (controlOpcode req) (controlAssocId req) dp =
        (data, none) := by
  rcases h with hop | hop <;> rcases hassoc with hassoc | hassoc <;> rw [hop, hassoc]
  · exact ⟨toBe 2 mode6AssocId ++ toBe 2 (peerStatus dp), by simp, rfl⟩
  · exact ⟨[], by decide, rfl⟩
  · exact ⟨_, hsystem, rfl⟩
  · exact ⟨_, hpeer, rfl⟩

/-- **What a reply carries**: data, or the error that the request deserves. -/
theorem mode6PayloadWith_spec (hsystem : systemText.length < 65536)
    (hpeer : peerText.length < 65536) :
    ∃ data error,
      mode6PayloadWith systemText peerText (controlOpcode req) (controlAssocId req) dp =
        (data, error) ∧
      data.length < 65536 ∧ (error.isSome = true ↔ ¬Supported req ∨ ¬Associated req) ∧
      (error.isSome = true → data = []) ∧ (¬Supported req → error = some 3) ∧
      (Supported req → ¬Associated req → error = some 4) := by
  by_cases hop : Supported req
  · by_cases hassoc : Associated req
    · obtain ⟨data, hlength, hpayload⟩ :=
        @mode6PayloadWith_served systemText peerText req dp hop hassoc hsystem hpeer
      exact ⟨data, none, hpayload, hlength,
        iff_of_false Bool.false_ne_true (not_or.mpr ⟨not_not.mpr hop, not_not.mpr hassoc⟩),
        fun h => absurd h Bool.false_ne_true, fun h => absurd hop h, fun _ h => absurd hassoc h⟩
    · exact ⟨[], some 4, mode6PayloadWith_badAssoc hop hassoc, by decide,
        iff_of_true rfl (.inr hassoc), fun _ => rfl, fun h => absurd hop h, fun _ _ => rfl⟩
  · exact ⟨[], some 3, mode6PayloadWith_badOpcode hop, by decide, iff_of_true rfl (.inl hop),
      fun _ => rfl, fun _ => rfl, fun h => absurd h hop⟩

end

/-! ## Every reply is well framed -/

theorem wellFramed_with {systemText peerText req : List UInt8}
    (hsystem : systemText.length < 65536) (hpeer : peerText.length < 65536)
    (hreq : 12 ≤ req.length) (version : UInt8) (dp : DisciplineParams) :
    WellFramed req version
      (mode6PayloadWith systemText peerText (controlOpcode req) (controlAssocId req) dp).1
      (buildMode6ResponseWith systemText peerText req version dp) := by
  obtain ⟨data, error, hpayload, hdata, herror, hempty, hop, hassoc⟩ :=
    @mode6PayloadWith_spec systemText peerText req dp hsystem hpeer
  have hreply := buildMode6ResponseWith_eq hpayload hdata version
  obtain ⟨hleap, hversion, hmode, hsequence, hstatus, hassociation, hoffset, hcount⟩ :=
    controlHeader_fields hreq version (if error.isSome then mode6ErrorBit else 0)
      (mode6Status (controlOpcode req) (controlAssocId req) error dp) hdata
      (data ++ padding data.length)
  obtain ⟨hlength, hcarried, hpadding⟩ := framed_body
    (length_controlHeader req version (if error.isSome then mode6ErrorBit else 0)
      (mode6Status (controlOpcode req) (controlAssocId req) error dp) data.length) data
  rw [← hreply] at hleap hversion hmode hsequence hstatus hassociation hoffset hcount
  rw [← hreply] at hlength hcarried hpadding
  obtain ⟨hresponse, hopcode, hflag⟩ := flags_eq (req.getD 1 0) error.isSome
  have hsecond : (buildMode6ResponseWith systemText peerText req version dp).getD 1 0 =
      mode6ResponseBit ||| (if error.isSome then mode6ErrorBit else 0) |||
        (req.getD 1 0 &&& 0x1f) := by
    rw [hreply]
    rfl
  rw [← hsecond] at hresponse hopcode hflag
  rw [hpayload]
  exact {
    leap := hleap
    version := hversion
    mode := hmode
    response := hresponse
    opcode := hopcode
    error := hflag.trans herror
    refused := fun h => by
      rw [hcount, hlength, hempty (herror.mpr h)]
      exact ⟨rfl, rfl⟩
    badOpcode := fun h => by
      rw [hstatus, hop h]
      rfl
    badAssoc := fun h h' => by
      rw [hstatus, hassoc h h']
      rfl
    sequence := hsequence
    association := hassociation
    offset := hoffset
    count := hcount
    carried := hcarried
    length := hlength
    padding := hpadding }

/-- **Every control reply is well framed**, whatever is asked and whatever the variables say. -/
theorem wellFramed_buildMode6Response {req : List UInt8} (hreq : 12 ≤ req.length) (version : UInt8)
    (dp : DisciplineParams) :
    (∀ systemText peerText : List UInt8, systemText.length < 65536 → peerText.length < 65536 →
      WellFramed req version
        (mode6PayloadWith systemText peerText (controlOpcode req) (controlAssocId req) dp).1
        (buildMode6ResponseWith systemText peerText req version dp)) ∧
    ∀ stats : NtpServer.ServoStats, (systemVariables dp stats).toUTF8.data.toList.length < 65536 →
      (peerVariables dp stats).toUTF8.data.toList.length < 65536 →
      WellFramed req version (mode6Payload (controlOpcode req) (controlAssocId req) dp stats).1
        (buildMode6Response req version dp stats) :=
  ⟨fun _ _ hsystem hpeer => wellFramed_with hsystem hpeer hreq version dp,
    fun _ hsystem hpeer => wellFramed_with hsystem hpeer hreq version dp⟩

/-- READVAR on association 0, with variables of five bytes. -/
theorem wellFramed_readvar :
    WellFramed [0x16, 2, 0, 1, 0, 0, 0, 0, 0, 0, 0, 0] 2 [108, 101, 97, 112, 61]
      (buildMode6ResponseWith [108, 101, 97, 112, 61] [] [0x16, 2, 0, 1, 0, 0, 0, 0, 0, 0, 0, 0] 2
        (NtpServer.firstLock.disciplineParams true 2500000 ⟨2500000, none⟩)) :=
  (wellFramed_buildMode6Response (by decide) 2 _).1 _ _ (by decide) (by decide)

end GpsNtp
