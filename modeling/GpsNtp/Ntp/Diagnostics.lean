import GpsNtp.Machinery.Utf8
import GpsNtp.Machinery.VarText
import GpsNtp.Ntp.Shapes

/-!
# Ntp/Diagnostics — time replies and control replies agree

                      synchronised            unsynchronised
    time reply        LI, stratum 1, GPS      LI 3, stratum 0, INIT
    system status     LI, ClkSrc 4            LI 3, ClkSrc 0
    peer status       sel 6, reach            sel 0
    READVAR           leap, stratum=1, GPS    leap=11, stratum=16, INIT

The control builder writes leap, stratum and reference id of an unsynchronised server as fixed text,
and derives the status words from the stratum alone.  A reader gets the same answers from either
kind of reply because on a well-formed server the leap indicator is 3 exactly off stratum 1.
-/

namespace GpsNtp

open MachineInt Bytes Utf8 VarText

/-! ## Reading a control reply -/

/-- The operation a control request asks for. -/
def controlOpcode (req : List UInt8) : UInt8 := req.getD 1 0 &&& 0x1f

/-- The association a control request names. -/
def controlAssocId (req : List UInt8) : ℕ := ofBe (field 6 2 req)

/-- The status word of a control reply. -/
def controlStatus (reply : List UInt8) : ℕ := ofBe (field 4 2 reply)

/-- The data of a control reply, as many bytes as it counts. -/
def controlData (reply : List UInt8) : List UInt8 :=
  (reply.drop 12).take (ofBe (field 10 2 reply))

/-- A variable of a READVAR reply. -/
def controlVariable (reply : List UInt8) (name : String) : Option (List Char) :=
  lookup name.toList (lossyChars (controlData reply))

/-- The LI field of a system status word. -/
def statusLeap (word : ℕ) : ℕ := word / 2 ^ 14

/-- The ClkSrc field of a system status word. -/
def statusClkSrc (word : ℕ) : ℕ := word / 2 ^ 8 % 2 ^ 6

/-- The Sel field of a peer status word. -/
def statusSel (word : ℕ) : ℕ := word / 2 ^ 13

/-- The Reach bit of a peer status word. -/
def statusReach (word : ℕ) : ℕ := word / 2 ^ 9 % 2

/-- Two bits in binary. -/
def twoBits (x : UInt8) : List Char :=
  [if x &&& 2 = 0 then '0' else '1', if x &&& 1 = 0 then '0' else '1']

/-- A control reply is a header of twelve bytes, the data and padding. -/
theorem buildMode6Response_eq {req : List UInt8} {dp : DisciplineParams}
    {stats : NtpServer.ServoStats} {data : List UInt8} {error : Option ℕ}
    (hpayload : mode6Payload (controlOpcode req) (controlAssocId req) dp stats = (data, error))
    (version : UInt8) :
    ∃ b₀ b₁ b₂ b₃ : UInt8, ∃ padding : List UInt8,
      buildMode6Response req version dp stats =
        b₀ :: b₁ :: b₂ :: b₃ ::
          (toBe 2 (mode6Status (controlOpcode req) (controlAssocId req) error dp) ++
            toBe 2 (controlAssocId req) ++ toBe 2 0 ++ toBe 2 (min data.length 65535)) ++
          (data.take (min data.length 65535) ++ padding) := by
  rw [controlOpcode, controlAssocId, mode6Payload] at hpayload
  simp only [buildMode6Response, buildMode6ResponseWith, hpayload]
  by_cases hcount : 0 < min data.length 65535
  · rw [if_pos hcount]
    exact ⟨_, _, _, _, _, List.append_assoc _ _ _⟩
  · rw [if_neg hcount, Nat.eq_zero_of_not_pos hcount]
    exact ⟨_, _, _, _, [], rfl⟩

/-- **The fields of a control reply** are those it was built from. -/
theorem controlReply_layout {req : List UInt8} {dp : DisciplineParams}
    {stats : NtpServer.ServoStats} {data : List UInt8} {error : Option ℕ}
    (hpayload : mode6Payload (controlOpcode req) (controlAssocId req) dp stats = (data, error))
    (version : UInt8) :
    controlStatus (buildMode6Response req version dp stats) =
        mode6Status (controlOpcode req) (controlAssocId req) error dp % 65536 ∧
      controlData (buildMode6Response req version dp stats) = data.take 65535 := by
  obtain ⟨b₀, b₁, b₂, b₃, padding, hreply⟩ := buildMode6Response_eq hpayload version
  have hcount : ofBe (toBe 2 (min data.length 65535)) = min data.length 65535 := by
    rw [ofBe_toBe]
    exact Nat.mod_eq_of_lt (by omega)
  have hdata : controlData (buildMode6Response req version dp stats) =
      (data.take (min data.length 65535) ++ padding).take
        (ofBe (toBe 2 (min data.length 65535))) := by
    rw [hreply]
    rfl
  constructor
  · rw [hreply]
    exact ofBe_toBe 2 _
  · rw [hdata, hcount, List.take_left' (by simp), List.take_eq_take_iff]
    omega

/-! ## Numbers in text -/

theorem comma_notMem_nat (n : ℕ) : ',' ∉ (toString n).toList := by
  intro h
  have hdigits : (toString n).toList = Nat.toDigits 10 n := by
    rw [Nat.toString_eq_repr, Nat.repr_eq_ofList_toDigits, String.toList_ofList]
  rw [hdigits] at h
  exact absurd (Nat.isDigit_of_mem_toDigits (by decide) (by decide) h) (by decide)

theorem comma_notMem_int (i : ℤ) : ',' ∉ (toString i).toList := by
  cases i with
  | ofNat n => exact comma_notMem_nat n
  | negSucc n =>
    have htext : (toString (Int.negSucc n)).toList = '-' :: (toString (n + 1)).toList :=
      String.toList_append
    rw [htext, List.mem_cons, not_or]
    exact ⟨by decide, comma_notMem_nat (n + 1)⟩

theorem fixedDigits_succ (base width n : ℕ) :
    (fixedDigits base (width + 1) n).toList =
      (fixedDigits base width (n / base)).toList ++ [(Nat.digitChar (n % base)).toUpper] := by
  rw [fixedDigits, String.toList_append, String.toList_singleton]

theorem comma_notMem_fixedDigits {base : ℕ} (hpos : 0 < base) (hbase : base ≤ 16) (width n : ℕ) :
    ',' ∉ (fixedDigits base width n).toList := by
  induction width generalizing n with
  | zero => exact List.not_mem_nil
  | succ width ih =>
    rw [fixedDigits_succ, List.mem_append, not_or, List.mem_singleton]
    have hdigit : ∀ k < 16, ',' ≠ (Nat.digitChar k).toUpper := by decide
    exact ⟨ih _, hdigit _ ((Nat.mod_lt _ hpos).trans_le hbase)⟩

theorem length_fixedDigits (base width n : ℕ) :
    (fixedDigits base width n).toList.length = width := by
  induction width generalizing n with
  | zero => rfl
  | succ width ih => rw [fixedDigits_succ, List.length_append, ih, List.length_singleton]

theorem formatFixed3_toList (q : ℚ) :
    (formatFixed3 q).toList =
      (if q < 0 then ['-'] else []) ++ (toString (roundHalfEven (|q| * 1000) / 1000)).toList ++
        '.' :: (fixedDigits 10 3 (roundHalfEven (|q| * 1000) % 1000)).toList := by
  rw [formatFixed3]
  split_ifs <;> simp

theorem comma_notMem_formatFixed3 (q : ℚ) : ',' ∉ (formatFixed3 q).toList := by
  rw [formatFixed3_toList]
  simp only [List.mem_append, List.mem_cons, not_or]
  refine ⟨⟨?_, comma_notMem_nat _⟩, by decide,
    comma_notMem_fixedDigits (by decide) (by decide) _ _⟩
  split_ifs <;> decide

theorem roundHalfEven_le {q : ℚ} {n : ℕ} (h : q ≤ n) : roundHalfEven q ≤ n + 1 := by
  have hfloor : ⌊q⌋.toNat ≤ n := Int.toNat_le.mpr (by exact_mod_cast (Int.floor_le q).trans h)
  rw [roundHalfEven]
  split_ifs <;> omega

theorem length_nat_le {n k : ℕ} (hk : 0 < k) (h : n < 10 ^ k) : (toString n).toList.length ≤ k := by
  rw [Nat.toString_eq_repr, String.length_toList]
  exact (Nat.length_repr_le_iff hk).mpr h

theorem length_formatFixed3_le {q : ℚ} (h : |q| ≤ 10 ^ 16) :
    (formatFixed3 q).toList.length ≤ 22 := by
  have hthousandths : roundHalfEven (|q| * 1000) ≤ 10 ^ 19 + 1 := by
    refine roundHalfEven_le ?_
    push_cast
    linarith
  have hwhole : (toString (roundHalfEven (|q| * 1000) / 1000)).toList.length ≤ 17 :=
    length_nat_le (by decide) (by omega)
  have hsign : (if q < 0 then ['-'] else []).length ≤ 1 := by split_ifs <;> decide
  rw [formatFixed3_toList]
  simp only [List.length_append, List.length_cons, length_fixedDigits]
  omega

/-! ## The variables at the head of a text -/

/-- The variables that the text on association 0 begins with. -/
def systemItems (dp : DisciplineParams) : List (List Char × List Char) :=
  [("stratum".toList, if dp.stratum = 1 then ['1'] else ['1', '6']),
    ("leap".toList, if dp.stratum = 1 then (leapStr dp.leap).toList else ['1', '1']),
    ("precision".toList, (toString dp.precision).toList),
    ("rootdelay".toList, (formatFixed3 rootDelayMs).toList),
    ("rootdisp".toList, (formatFixed3 dp.rootDispMs).toList),
    ("refid".toList, if dp.stratum = 1 then ['G', 'P', 'S'] else ['I', 'N', 'I', 'T'])]

/-- The variables that the text on the peer association begins with. -/
def peerItems (dp : DisciplineParams) : List (List Char × List Char) :=
  [("srcadr".toList, if dp.stratum = 1 then ['G', 'P', 'S'] else ['I', 'N', 'I', 'T']),
    ("srcport".toList, ['1', '2', '3']),
    ("refid".toList, if dp.stratum = 1 then ['G', 'P', 'S'] else ['I', 'N', 'I', 'T']),
    ("stratum".toList, if dp.stratum = 1 then ['1'] else ['1', '6']),
    ("leap".toList, if dp.stratum = 1 then (leapStr dp.leap).toList else ['1', '1'])]

theorem render_prefix_systemVariables (dp : DisciplineParams) (stats : NtpServer.ServoStats) :
    (render (systemItems dp)).IsPrefix (systemVariables dp stats).toList := by
  by_cases hone : dp.stratum = 1
  · rw [systemVariables, systemItems, if_pos hone, if_pos hone, if_pos hone, if_pos hone, hone]
    simp [render, show toString (1 : UInt8) = "1" by decide]
  · rw [systemVariables, systemItems, if_neg hone, if_neg hone, if_neg hone, if_neg hone]
    simp [render]

/-- What a text begins with, the text with more behind it begins with. -/
theorem isPrefix_append_ofList {l cs : List Char} (h : l.IsPrefix cs) (rest : String) :
    l.IsPrefix (String.ofList cs ++ rest).toList := by
  rw [String.toList_append, String.toList_ofList]
  exact h.trans (List.prefix_append _ _)

set_option maxRecDepth 1024 in
theorem render_prefix_peerVariables (dp : DisciplineParams) (stats : NtpServer.ServoStats) :
    (render (peerItems dp)).IsPrefix (peerVariables dp stats).toList := by
  by_cases hone : dp.stratum = 1
  · rw [peerVariables, peerItems, if_pos hone, if_pos hone, if_pos hone, if_pos hone, hone]
    simp [render, show toString (1 : UInt8) = "1" by decide]
  · rw [peerVariables, peerItems, if_neg hone, if_neg hone, if_neg hone, if_neg hone,
      String.append_assoc]
    exact isPrefix_append_ofList (by decide +kernel) _

theorem plain_item {name : String} {value : List Char}
    (hname : ',' ∉ name.toList ∧ '=' ∉ name.toList) (hvalue : ',' ∉ value) :
    Plain (name.toList, value) := ⟨hname.1, hname.2, hvalue⟩

theorem comma_notMem_ite {p : Prop} [Decidable p] {a b : List Char} (ha : ',' ∉ a) (hb : ',' ∉ b) :
    ',' ∉ if p then a else b := by
  split_ifs
  · exact ha
  · exact hb

theorem comma_notMem_leapStr (leap : UInt8) : ',' ∉ (leapStr leap).toList :=
  comma_notMem_fixedDigits (by decide) (by decide) _ _

theorem plain_systemItems (dp : DisciplineParams) : ∀ item ∈ systemItems dp, Plain item := by
  intro item hitem
  simp only [systemItems, List.mem_cons, List.not_mem_nil, or_false] at hitem
  rcases hitem with rfl | rfl | rfl | rfl | rfl | rfl
  · exact plain_item (by decide) (comma_notMem_ite (by decide) (by decide))
  · exact plain_item (by decide) (comma_notMem_ite (comma_notMem_leapStr _) (by decide))
  · exact plain_item (by decide) (comma_notMem_int _)
  · exact plain_item (by decide) (comma_notMem_formatFixed3 _)
  · exact plain_item (by decide) (comma_notMem_formatFixed3 _)
  · exact plain_item (by decide) (comma_notMem_ite (by decide) (by decide))

theorem plain_peerItems (dp : DisciplineParams) : ∀ item ∈ peerItems dp, Plain item := by
  intro item hitem
  simp only [peerItems, List.mem_cons, List.not_mem_nil, or_false] at hitem
  rcases hitem with rfl | rfl | rfl | rfl | rfl
  · exact plain_item (by decide) (comma_notMem_ite (by decide) (by decide))
  · exact plain_item (by decide) (by decide)
  · exact plain_item (by decide) (comma_notMem_ite (by decide) (by decide))
  · exact plain_item (by decide) (comma_notMem_ite (by decide) (by decide))
  · exact plain_item (by decide) (comma_notMem_ite (comma_notMem_leapStr _) (by decide))

theorem length_systemItems_le {dp : DisciplineParams}
    (hprecision : (toString dp.precision).toList.length ≤ 3) (hdisp : |dp.rootDispMs| ≤ 10 ^ 16) :
    (render (systemItems dp)).length ≤ 16383 := by
  have hdelay : (formatFixed3 rootDelayMs).toList.length ≤ 22 :=
    length_formatFixed3_le (by norm_num [rootDelayMs])
  have hrootdisp := length_formatFixed3_le hdisp
  have hleap : (leapStr dp.leap).toList.length = 2 := length_fixedDigits _ _ _
  simp only [systemItems, render]
  generalize (toString dp.precision).toList = precision at hprecision ⊢
  split_ifs <;> simp [hleap] <;> omega

theorem length_peerItems_le (dp : DisciplineParams) : (render (peerItems dp)).length ≤ 16383 := by
  have hleap : (leapStr dp.leap).toList.length = 2 := length_fixedDigits _ _ _
  simp only [peerItems, render]
  split_ifs <;> simp [hleap]

/-- **A variable at the head of a text** is read as it was rendered, also where the text is longer
than a reply counts. -/
theorem controlVariable_of_prefix {reply : List UInt8} {text : String}
    {rendered : List (List Char × List Char)}
    (hdata : controlData reply = text.toUTF8.data.toList.take 65535)
    (htext : (render rendered).IsPrefix text.toList) (hplain : ∀ item ∈ rendered, Plain item)
    (hlen : (render rendered).length ≤ 16383) {name : String} {value : List Char}
    (hitem : rendered.lookup name.toList = some value) :
    controlVariable reply name = some value := by
  obtain ⟨rest, htext⟩ := htext
  have hbytes := length_encode_le (render rendered)
  rw [controlVariable, hdata, toUTF8_eq_encode, ← htext, encode_append, List.take_append,
    List.take_of_length_le (by omega), lossyChars_encode_append]
  exact lookup_render hplain hitem _

/-! ## The values -/

theorem mem_of_le_three {x : UInt8} (h : x ≤ 3) : x = 0 ∨ x = 1 ∨ x = 2 ∨ x = 3 := by
  have hx : x.toNat ≤ 3 := h
  have hcases : x.toNat = 0 ∨ x.toNat = 1 ∨ x.toNat = 2 ∨ x.toNat = 3 := by omega
  exact hcases.imp UInt8.toNat_inj.mp (Or.imp UInt8.toNat_inj.mp
    (Or.imp UInt8.toNat_inj.mp UInt8.toNat_inj.mp))

/-- The leap text is the leap indicator in binary. -/
theorem leapStr_toList {leap : UInt8} (h : leap ≤ 3) : (leapStr leap).toList = twoBits leap := by
  rcases mem_of_le_three h with rfl | rfl | rfl | rfl <;> decide

/-- The byte of a precision, read as a signed value. -/
theorem toInt8_precision {p : ℤ} (hl : -20 ≤ p) (hu : p ≤ -4) :
    (UInt8.ofNat (p % 256).toNat).toInt8.toInt = p := by
  interval_cases p <;> rfl

theorem length_precision {p : ℤ} (hl : -20 ≤ p) (hu : p ≤ -4) : (toString p).toList.length ≤ 3 := by
  interval_cases p <;> decide

/-- The two fields of a system status word. -/
theorem systemStatus_fields {leap : UInt8} (h : leap ≤ 3) (clksrc : ℕ)
    (hclksrc : clksrc = 4 ∨ clksrc = 0) :
    let word := ((leap.toNat <<< 14) % 65536 ||| (clksrc <<< 8)) % 65536
    statusLeap word = leap.toNat ∧ statusClkSrc word = clksrc := by
  rcases mem_of_le_three h with rfl | rfl | rfl | rfl <;> rcases hclksrc with rfl | rfl <;> decide

/-! ## Agreement -/

/-- A system status word says what a time reply says. -/
structure SystemStatusAgrees (time : List UInt8) (word : ℕ) : Prop where
  leap : statusLeap word = (packetLeap time).toNat
  clkSrc : statusClkSrc word = 4 ↔ replyStratum time = 1

/-- A peer status word says what a time reply says: selected and reachable at stratum 1. -/
def PeerStatusAgrees (time : List UInt8) (word : ℕ) : Prop :=
  statusSel word = 6 ∧ statusReach word = 1 ↔ replyStratum time = 1

/-- The variables of a READVAR reply say what a time reply says. -/
structure VariablesAgree (time reply : List UInt8) : Prop where
  leap : controlVariable reply "leap" = some (twoBits (packetLeap time))
  stratum_one : controlVariable reply "stratum" = some ['1'] ↔ replyStratum time = 1
  stratum_sixteen : controlVariable reply "stratum" = some ['1', '6'] ↔ replyStratum time = 0
  refid_gps : controlVariable reply "refid" = some ['G', 'P', 'S'] ↔ replyRefId time = refIdGps
  refid_init :
    controlVariable reply "refid" = some ['I', 'N', 'I', 'T'] ↔ replyRefId time = refIdInit
  refid : controlVariable reply "refid" = some ['G', 'P', 'S'] ∨
    controlVariable reply "refid" = some ['I', 'N', 'I', 'T']

/-- What a time reply says of the parameters it was built from. -/
structure Says (time : List UInt8) (dp : DisciplineParams) : Prop where
  leap : packetLeap time = dp.leap
  leap_le : dp.leap ≤ 3
  leap_unsync : ¬dp.stratum = 1 → dp.leap = 3
  stratum : replyStratum time = if dp.stratum = 1 then 1 else 0
  refId : replyRefId time = if dp.stratum = 1 then refIdGps else refIdInit
  precision : (time.getD 3 0).toInt8.toInt = dp.precision

theorem Says.stratum_one_iff {time : List UInt8} {dp : DisciplineParams} (h : Says time dp) :
    replyStratum time = 1 ↔ dp.stratum = 1 := by
  rw [h.stratum]
  split_ifs with hone
  · exact iff_of_true rfl hone
  · exact iff_of_false (by decide) hone

theorem Says.systemStatus {time : List UInt8} {dp : DisciplineParams} (h : Says time dp)
    {opcode : UInt8} {associd : ℕ} (hsystem : ¬(opcode = mode6OpcodeReadstat ∧ associd ≠ 0)) :
    SystemStatusAgrees time (mode6Status opcode associd none dp % 65536) := by
  obtain ⟨hleap, hclksrc⟩ := systemStatus_fields h.leap_le (if dp.stratum = 1 then 4 else 0)
    (by split_ifs <;> decide)
  simp only [mode6Status, if_neg hsystem]
  refine ⟨hleap.trans (congrArg UInt8.toNat h.leap.symm), ?_⟩
  rw [hclksrc, h.stratum_one_iff]
  split_ifs with hone
  · exact iff_of_true rfl hone
  · exact iff_of_false (by decide) hone

theorem Says.peerStatus {time : List UInt8} {dp : DisciplineParams} (h : Says time dp) :
    PeerStatusAgrees time (peerStatus dp % 65536) := by
  rw [PeerStatusAgrees, h.stratum_one_iff, GpsNtp.peerStatus]
  split_ifs with hone
  · exact iff_of_true (by decide) hone
  · exact iff_of_false (by decide) hone

/-- Texts whose leap, stratum and reference id follow the stratum agree with the time reply. -/
theorem Says.variables {time reply : List UInt8} {dp : DisciplineParams} (h : Says time dp)
    (hleap : controlVariable reply "leap" =
      some (if dp.stratum = 1 then (leapStr dp.leap).toList else ['1', '1']))
    (hstratum : controlVariable reply "stratum" =
      some (if dp.stratum = 1 then ['1'] else ['1', '6']))
    (hrefid : controlVariable reply "refid" =
      some (if dp.stratum = 1 then ['G', 'P', 'S'] else ['I', 'N', 'I', 'T'])) :
    VariablesAgree time reply := by
  have hrefId := h.refId
  have hreply := h.stratum
  by_cases hone : dp.stratum = 1
  · rw [if_pos hone] at hleap hstratum hrefid hrefId hreply
    refine ⟨?_, iff_of_true hstratum hreply, ?_, iff_of_true hrefid hrefId, ?_, .inl hrefid⟩
    · rw [hleap, leapStr_toList h.leap_le, h.leap]
    · rw [hstratum, hreply]
      decide
    · rw [hrefid, hrefId]
      decide
  · rw [if_neg hone] at hleap hstratum hrefid hrefId hreply
    refine ⟨?_, ?_, iff_of_true hstratum hreply, ?_, iff_of_true hrefid hrefId, .inr hrefid⟩
    · rw [hleap, h.leap, h.leap_unsync hone]
      decide
    · rw [hstratum, hreply]
      decide
    · rw [hrefid, hrefId]
      decide

namespace NtpServer

variable {s : NtpServer}

theorem isI64_dispUs (gpsFix : Bool) (nowUs : ℤ) : IsI64 (s.dispUs gpsFix nowUs) := by
  have hmax : IsI64 maxDispUs := by decide
  rw [dispUs]
  split_ifs
  · exact isI64_wrapI64 _
  · have hwrap := isI64_wrapI64
      (baseDispUs + satMul (max (satSub (s.ppsAgeUs nowUs) holdoverEntryUs) 0 / microsPerSec)
        holdoverDispRateUsPerSec)
    exact ⟨le_min hwrap.1 hmax.1, (min_le_right _ _).trans hmax.2⟩
  · exact hmax

theorem abs_rootDispMs_le (gpsFix : Bool) (nowUs : ℤ) (reading : ClockReading) :
    |(s.disciplineParams gpsFix nowUs reading).rootDispMs| ≤ 10 ^ 16 := by
  obtain ⟨hl, hu⟩ := @isI64_dispUs s gpsFix nowUs
  have hdisp : (s.disciplineParams gpsFix nowUs reading).rootDispMs =
      (s.dispUs gpsFix nowUs : ℚ) / 1000 := rfl
  have hl' : ((i64Min : ℤ) : ℚ) ≤ s.dispUs gpsFix nowUs := by exact_mod_cast hl
  have hu' : (s.dispUs gpsFix nowUs : ℚ) ≤ (i64Max : ℤ) := by exact_mod_cast hu
  rw [hdisp, abs_le]
  simp only [i64Min, i64Max] at hl' hu'
  push_cast at hl' hu'
  constructor <;> linarith

theorem precision_mem (gpsFix : Bool) (nowUs : ℤ) (reading : ClockReading) :
    -20 ≤ (s.disciplineParams gpsFix nowUs reading).precision ∧
      (s.disciplineParams gpsFix nowUs reading).precision ≤ -4 := by
  have hclamp : ∀ q, -20 ≤ ntpPrecisionFromUncertaintyUs q ∧
      ntpPrecisionFromUncertaintyUs q ≤ -4 := fun q =>
    ⟨le_max_left _ _, max_le (by decide) (min_le_left _ _)⟩
  rw [disciplineParams]
  dsimp only
  split_ifs <;> exact hclamp _

/-- A time reply of a reachable server. -/
theorem says_timeReply (hwf : s.WellFormed) (gpsFix : Bool) (nowUs : ℤ) (reading : ClockReading)
    {req : List UInt8} (hreq : ntpPacketLen ≤ req.length) (receiveTs transmitTs : ℕ)
    (replyMode : UInt8) :
    let dp := s.disciplineParams gpsFix nowUs reading
    Says (writeTransmitTs (buildResponse req dp receiveTs replyMode) transmitTs) dp := by
  intro dp
  have hle : dp.leap ≤ 3 := leap_le hwf gpsFix nowUs reading
  obtain ⟨-, -, hrefId, -⟩ := timeReply_layout hreq dp receiveTs transmitTs replyMode
  obtain ⟨hstratum, -, -, -⟩ := timeReply_fields hreq dp receiveTs transmitTs replyMode
  obtain ⟨hl, hu⟩ := @precision_mem s gpsFix nowUs reading
  refine ⟨header_leap replyMode hle (replyVersion_le _), hle, fun hone => if_neg hone, ?_, hrefId,
    toInt8_precision hl hu⟩
  rw [hstratum]
  rcases stratum_eq gpsFix nowUs reading with h | h
  · rw [show dp.stratum = 1 from h]
    rfl
  · rw [show dp.stratum = 16 from h]
    rfl

/-- READVAR on association 0: the data begin with the system items. -/
theorem systemVariable {control : List UInt8} {dp : DisciplineParams} {stats : ServoStats}
    (hop : controlOpcode control = mode6OpcodeReadvar) (hassoc : controlAssocId control = 0)
    (hprecision : (toString dp.precision).toList.length ≤ 3) (hdisp : |dp.rootDispMs| ≤ 10 ^ 16)
    (version : UInt8) {name : String} {value : List Char}
    (hitem : (systemItems dp).lookup name.toList = some value) :
    controlVariable (buildMode6Response control version dp stats) name = some value := by
  have hpayload : mode6Payload (controlOpcode control) (controlAssocId control) dp stats =
      ((systemVariables dp stats).toUTF8.data.toList, none) := by
    rw [hop, hassoc]
    rfl
  exact controlVariable_of_prefix (controlReply_layout hpayload version).2
    (render_prefix_systemVariables dp stats) (plain_systemItems dp)
    (length_systemItems_le hprecision hdisp) hitem

/-- READVAR on the peer association: the data begin with the peer items. -/
theorem peerVariable {control : List UInt8} {dp : DisciplineParams} {stats : ServoStats}
    (hop : controlOpcode control = mode6OpcodeReadvar)
    (hassoc : controlAssocId control = mode6AssocId) (version : UInt8) {name : String}
    {value : List Char} (hitem : (peerItems dp).lookup name.toList = some value) :
    controlVariable (buildMode6Response control version dp stats) name = some value := by
  have hpayload : mode6Payload (controlOpcode control) (controlAssocId control) dp stats =
      ((peerVariables dp stats).toUTF8.data.toList, none) := by
    rw [hop, hassoc]
    rfl
  exact controlVariable_of_prefix (controlReply_layout hpayload version).2
    (render_prefix_peerVariables dp stats) (plain_peerItems dp) (length_peerItems_le dp) hitem

/-- READVAR is answered under the system status word. -/
theorem readvarStatus {control : List UInt8} {dp : DisciplineParams} {stats : ServoStats}
    (hop : controlOpcode control = mode6OpcodeReadvar)
    (hassoc : controlAssocId control = 0 ∨ controlAssocId control = mode6AssocId)
    (version : UInt8) :
    controlStatus (buildMode6Response control version dp stats) =
      mode6Status (controlOpcode control) (controlAssocId control) none dp % 65536 := by
  obtain ⟨data, hpayload⟩ : ∃ data,
      mode6Payload (controlOpcode control) (controlAssocId control) dp stats = (data, none) := by
    rcases hassoc with hassoc | hassoc <;> rw [hop, hassoc] <;> exact ⟨_, rfl⟩
  exact (controlReply_layout hpayload version).1

/-- **Time replies and control replies never contradict each other.** -/
theorem diagnostics_agree (hs : s.Reachable) (gpsFix : Bool) (nowUs : ℤ) (reading : ClockReading)
    {req : List UInt8} (hreq : ntpPacketLen ≤ req.length) (receiveTs transmitTs : ℕ)
    (replyMode : UInt8) (control : List UInt8) (version : UInt8) :
    let dp := s.disciplineParams gpsFix nowUs reading
    let time := writeTransmitTs (buildResponse req dp receiveTs replyMode) transmitTs
    let reply := buildMode6Response control version dp s.servoStats
    (controlOpcode control = mode6OpcodeReadstat → controlAssocId control = 0 →
      SystemStatusAgrees time (controlStatus reply) ∧
        PeerStatusAgrees time (ofBe (field 2 2 (controlData reply)))) ∧
    (controlOpcode control = mode6OpcodeReadstat → controlAssocId control = mode6AssocId →
      PeerStatusAgrees time (controlStatus reply)) ∧
    (controlOpcode control = mode6OpcodeReadvar →
      controlAssocId control = 0 ∨ controlAssocId control = mode6AssocId →
      SystemStatusAgrees time (controlStatus reply) ∧ VariablesAgree time reply) ∧
    (controlOpcode control = mode6OpcodeReadvar → controlAssocId control = 0 →
      controlVariable reply "precision" =
        some (toString (time.getD 3 0).toInt8.toInt).toList) := by
  intro dp time reply
  have htime : Says time dp :=
    says_timeReply hs.wellFormed gpsFix nowUs reading hreq receiveTs transmitTs replyMode
  obtain ⟨hl, hu⟩ := @precision_mem s gpsFix nowUs reading
  have hprecision : (toString dp.precision).toList.length ≤ 3 := length_precision hl hu
  have hdisp : |dp.rootDispMs| ≤ 10 ^ 16 := abs_rootDispMs_le gpsFix nowUs reading
  refine ⟨fun hop hassoc => ?_, fun hop hassoc => ?_, fun hop hassoc => ?_, fun hop hassoc => ?_⟩
  · have hpayload : mode6Payload (controlOpcode control) (controlAssocId control) dp s.servoStats =
        (toBe 2 mode6AssocId ++ toBe 2 (peerStatus dp), none) := by
      rw [hop, hassoc]
      rfl
    obtain ⟨hstatus, hdata⟩ := controlReply_layout hpayload version
    have hpeer : ofBe (field 2 2 (controlData reply)) = peerStatus dp % 65536 := by
      rw [show controlData reply = _ from hdata]
      exact ofBe_toBe 2 _
    rw [show controlStatus reply = _ from hstatus, hpeer]
    exact ⟨htime.systemStatus fun h => h.2 hassoc, htime.peerStatus⟩
  · have hpayload : mode6Payload (controlOpcode control) (controlAssocId control) dp s.servoStats =
        ([], none) := by
      rw [hop, hassoc]
      rfl
    obtain ⟨hstatus, -⟩ := controlReply_layout hpayload version
    rw [show controlStatus reply = _ from hstatus, hop, hassoc]
    exact htime.peerStatus
  · have hsystem : ¬(controlOpcode control = mode6OpcodeReadstat ∧ controlAssocId control ≠ 0) :=
      fun h => absurd (hop.symm.trans h.1) (by decide)
    refine ⟨?_, ?_⟩
    · rw [show controlStatus reply = _ from readvarStatus hop hassoc version]
      exact htime.systemStatus hsystem
    · rcases hassoc with hassoc | hassoc
      · exact htime.variables (systemVariable hop hassoc hprecision hdisp version rfl)
          (systemVariable hop hassoc hprecision hdisp version rfl)
          (systemVariable hop hassoc hprecision hdisp version rfl)
      · exact htime.variables (peerVariable hop hassoc version rfl)
          (peerVariable hop hassoc version rfl) (peerVariable hop hassoc version rfl)
  · rw [htime.precision]
    exact systemVariable hop hassoc hprecision hdisp version rfl

/-- READVAR on association 0, half a second after the lock, when the server is at stratum 1. -/
theorem diagnostics_agree_firstLock :
    let dp := firstLock.disciplineParams true 2500000 ⟨2500000, none⟩
    dp.stratum = 1 ∧
      VariablesAgree (writeTransmitTs (buildResponse (List.replicate 48 0) dp 0 4) 0)
        (buildMode6Response [0x16, 2, 0, 1, 0, 0, 0, 0, 0, 0, 0, 0] 2 dp firstLock.servoStats) :=
  ⟨by decide +kernel,
    ((diagnostics_agree reachable_firstLock true 2500000 ⟨2500000, none⟩ (by decide) 0 0 4
      [0x16, 2, 0, 1, 0, 0, 0, 0, 0, 0, 0, 0] 2).2.2.1 (by decide) (.inl (by decide))).2⟩

end NtpServer

end GpsNtp
