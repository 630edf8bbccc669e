import GpsNtp.Machinery.Bcd
import GpsNtp.Machinery.Calendar
import Mathlib.Tactic.IntervalCases

/-!
# Rtc/Registers — the time registers of the clock chip

    0x03     0x04     0x05     0x06   0x07     0x08     0x09
    OS ss    · mm     · hh     · dd   weekday  · MM     yy       two digits a byte

Seven registers in packed decimal, each but the year's under a mask.  What is encoded is decoded.
What is decoded was encoded only if every nibble is a digit: the ranges are checked on the number
that a byte adds up to, and fifteen seconds are `0x15` as well as `0x0F`.
-/

namespace GpsNtp.Rtc

open Calendar (RealDate DateTime)

/-! ## Registers and fields -/

/-- `RtcDateTime`: year, month, day, hour, minute and second. -/
abbrev RtcDateTime : Type := DateTime

/-- `MIN_VALID_YEAR`. -/
def minValidYear : ℤ := 2020

/-- `bcd_to_dec`. -/
def bcdToDec (byte : UInt8) : UInt8 :=
  (byte &&& (0x0f : UInt8)) + ((byte >>> 4) &&& (0x0f : UInt8)) * 10

/-- `dec_to_bcd`. -/
def decToBcd (value : UInt8) : UInt8 := ((value / 10) <<< 4) ||| (value % 10)

/-- `decode_datetime_regs`: the fields of the registers from `0x03` on. -/
def decodeDatetimeRegs (regs : Vector UInt8 7) : Option RtcDateTime :=
  if regs[0] &&& 0x80 ≠ 0 then none
  else
    let second := bcdToDec (regs[0] &&& 0x7f)
    let minute := bcdToDec (regs[1] &&& 0x7f)
    let hour := bcdToDec (regs[2] &&& 0x3f)
    let day := bcdToDec (regs[3] &&& 0x3f)
    let month := bcdToDec (regs[5] &&& 0x1f)
    let year : ℤ := 2000 + (bcdToDec regs[6]).toNat
    if ¬(1 ≤ month ∧ month ≤ 12) ∨ ¬(1 ≤ day ∧ day ≤ 31) ∨ hour > 23 ∨ minute > 59 ∨ second > 59 ∨
        year < minValidYear then none
    else
      some {
        year
        month := month.toNat
        day := day.toNat
        hour := hour.toNat
        minute := minute.toNat
        second := second.toNat }

/-- `encode_datetime_regs`. -/
def encodeDatetimeRegs (dt : RtcDateTime) : Vector UInt8 7 :=
  let yearTwoDigit := UInt8.ofNat (max 0 (min (dt.year - 2000) 99)).toNat
  #v[decToBcd (UInt8.ofNat dt.second), decToBcd (UInt8.ofNat dt.minute),
    decToBcd (UInt8.ofNat dt.hour), decToBcd (UInt8.ofNat dt.day),
    -- the weekday is not read back
    1, decToBcd (UInt8.ofNat dt.month), decToBcd yearTwoDigit]

/-- The bytes that the decoder reads, under its masks. -/
def timeFields (regs : Vector UInt8 7) : List UInt8 :=
  [regs[0] &&& 0x7f, regs[1] &&& 0x7f, regs[2] &&& 0x3f, regs[3] &&& 0x3f, regs[5] &&& 0x1f,
    regs[6]]

/-- The numbers of an instant in the order of the registers. -/
def values (dt : RtcDateTime) : List ℕ :=
  [dt.second, dt.minute, dt.hour, dt.day, dt.month, (dt.year - 2000).toNat]

/-! ## Bytes -/

theorem toNat_bcdToDec (byte : UInt8) : (bcdToDec byte).toNat = Bcd.unpack byte.toNat := by
  have hbyte : byte.toNat < 256 := byte.toNat_lt
  have hlow : (byte &&& 0x0f).toNat = byte.toNat % 16 := Nat.and_two_pow_sub_one_eq_mod _ 4
  have hhigh : ((byte >>> 4) &&& 0x0f).toNat = byte.toNat / 16 := by
    have hshift : (byte >>> 4).toNat = byte.toNat / 16 := Nat.shiftRight_eq_div_pow _ 4
    rw [UInt8.toNat_and, hshift]
    exact (Nat.and_two_pow_sub_one_eq_mod _ 4).trans (Nat.mod_eq_of_lt (by omega))
  rw [bcdToDec, UInt8.toNat_add, UInt8.toNat_mul, hlow, hhigh, Bcd.unpack,
    show (10 : UInt8).toNat = 10 from rfl]
  omega

theorem toNat_decToBcd {value : UInt8} (h : value.toNat < 100) :
    (decToBcd value).toNat = Bcd.pack value.toNat := by
  have htens : (value / 10).toNat = value.toNat / 10 := UInt8.toNat_div _ _
  have hshift : ((value / 10) <<< 4).toNat = value.toNat / 10 * 16 := by
    have hwide : ((value / 10) <<< 4).toNat = (value.toNat / 10) <<< 4 % 256 := by
      rw [UInt8.toNat_shiftLeft, htens]
      rfl
    rw [hwide, Nat.shiftLeft_eq]
    omega
  have hunits : (value % 10).toNat = value.toNat % 10 := UInt8.toNat_mod _ _
  rw [decToBcd, UInt8.toNat_or, hshift, hunits, Bcd.pack]
  have hdigit : value.toNat % 10 < 2 ^ 4 := (Nat.mod_lt _ (by decide)).trans (by decide)
  have hor := Nat.two_pow_add_eq_or_of_lt hdigit (value.toNat / 10)
  rw [Nat.mul_comm _ 16]
  exact hor.symm

/-- A mask of low bits keeps a byte below it. -/
theorem and_mask {byte mask : UInt8} {k : ℕ} (hmask : mask.toNat = 2 ^ k - 1)
    (h : byte.toNat < 2 ^ k) : byte &&& mask = byte := by
  rw [← UInt8.toNat_inj, UInt8.toNat_and, hmask]
  exact Nat.and_two_pow_sub_one_of_lt_two_pow h

theorem and_top {byte : UInt8} (h : byte.toNat < 128) : byte &&& 0x80 = 0 := by
  have hself : byte &&& 0x7f = byte := @and_mask byte 0x7f 7 rfl h
  rw [← hself, ← UInt8.toBitVec_inj]
  refine BitVec.eq_of_getLsbD_eq fun i hi => ?_
  interval_cases i <;> simp

/-! ## What is decoded -/

/-- The ranges that the decoder checks. -/
structure Plausible (dt : RtcDateTime) : Prop where
  month : 1 ≤ dt.month ∧ dt.month ≤ 12
  day : 1 ≤ dt.day ∧ dt.day ≤ 31
  hour : dt.hour ≤ 23
  minute : dt.minute ≤ 59
  second : dt.second ≤ 59
  year : minValidYear ≤ dt.year

/-- **Decoding reads the bytes one by one**, checks the ranges and that the clock was not
stopped. -/
theorem decodeDatetimeRegs_eq_some_iff {regs : Vector UInt8 7} {dt : RtcDateTime} :
    decodeDatetimeRegs regs = some dt ↔ regs[0] &&& 0x80 = 0 ∧ Plausible dt ∧
      values dt = (timeFields regs).map fun byte => Bcd.unpack byte.toNat := by
  have hvalues : ∀ dt : RtcDateTime, values dt = (timeFields regs).map (Bcd.unpack ·.toNat) ↔
      dt.second = (bcdToDec (regs[0] &&& 0x7f)).toNat ∧
        dt.minute = (bcdToDec (regs[1] &&& 0x7f)).toNat ∧
        dt.hour = (bcdToDec (regs[2] &&& 0x3f)).toNat ∧
        dt.day = (bcdToDec (regs[3] &&& 0x3f)).toNat ∧
        dt.month = (bcdToDec (regs[5] &&& 0x1f)).toNat ∧
        (dt.year - 2000).toNat = (bcdToDec regs[6]).toNat := fun dt => by
    simp only [values, timeFields, List.map_cons, List.map_nil, List.cons.injEq, toNat_bcdToDec,
      and_true]
  rw [hvalues]
  simp only [decodeDatetimeRegs, UInt8.le_iff_toNat_le, UInt8.lt_iff_toNat_lt, gt_iff_lt]
  by_cases hstopped : regs[0] &&& 0x80 = 0
  · rw [if_neg (not_not.mpr hstopped)]
    constructor
    · intro h
      split_ifs at h with hrange
      simp only [not_or, not_not, not_lt] at hrange
      obtain ⟨hmonth, hday, hhour, hminute, hsecond, hyear⟩ := hrange
      obtain rfl := Option.some.inj h
      exact ⟨hstopped, ⟨hmonth, hday, hhour, hminute, hsecond, hyear⟩, rfl, rfl, rfl, rfl, rfl, by
        dsimp only
        omega⟩
    · rintro ⟨-, ⟨hmonth, hday, hhour, hminute, hsecond, hyear⟩, hs, hmi, hh, hd, hmo, hy⟩
      rw [minValidYear] at hyear ⊢
      have hyear' : 2000 + ((bcdToDec regs[6]).toNat : ℤ) = dt.year := by omega
      rw [← hs, ← hmi, ← hh, ← hd, ← hmo, hyear', if_neg]
      simp only [not_or, not_not, not_lt]
      exact ⟨hmonth, hday, hhour, hminute, hsecond, hyear⟩
  · rw [if_pos hstopped]
    exact iff_of_false (fun h => Option.some_ne_none _ h.symm) fun h => hstopped h.1

/-! ## What is encoded -/

theorem toNat_decToBcd_ofNat {value : ℕ} (h : value < 100) :
    (decToBcd (UInt8.ofNat value)).toNat = Bcd.pack value := by
  have hvalue : (UInt8.ofNat value).toNat = value :=
    UInt8.toNat_ofNat'.trans (Nat.mod_eq_of_lt (h.trans (by decide)))
  rw [toNat_decToBcd (hvalue.symm ▸ h), hvalue]

theorem decToBcd_ofNat {value : ℕ} (h : value < 100) :
    decToBcd (UInt8.ofNat value) = UInt8.ofNat (Bcd.pack (min value 99)) := by
  have hpack : Bcd.pack value < 256 := (Bcd.pack_lt 10 h).trans (by decide)
  rw [min_eq_left (Nat.le_of_lt_succ h), ← UInt8.toNat_inj, toNat_decToBcd_ofNat h,
    UInt8.toNat_ofNat', Nat.mod_eq_of_lt hpack]

/-- The mask of a field keeps the numbers in its range. -/
theorem decToBcd_and_mask {value : ℕ} {mask : UInt8} (tens k : ℕ)
    (h : value < tens * 10) (htens : tens ≤ 10) (hmask : mask.toNat = 2 ^ k - 1) (hk : tens * 16 ≤ 2 ^ k) :
    decToBcd (UInt8.ofNat value) &&& mask = UInt8.ofNat (Bcd.pack (min value 99)) := by
  have hvalue : value < 100 := by omega
  have hpack : (decToBcd (UInt8.ofNat value)).toNat < 2 ^ k := by
    rw [toNat_decToBcd_ofNat hvalue]
    exact (Bcd.pack_lt tens h).trans_le hk
  rw [and_mask hmask hpack, decToBcd_ofNat hvalue]

/-- **Encoding writes the numbers byte by byte**, a year past 2099 as 99. -/
theorem timeFields_encodeDatetimeRegs {dt : RtcDateTime} (h : Plausible dt) :
    timeFields (encodeDatetimeRegs dt) =
      (values dt).map fun value => UInt8.ofNat (Bcd.pack (min value 99)) := by
  obtain ⟨⟨-, hmonth⟩, ⟨-, hday⟩, hhour, hminute, hsecond, hyear⟩ := h
  have htwo : (max 0 (min (dt.year - 2000) 99)).toNat = min (dt.year - 2000).toNat 99 := by omega
  have hclamp : decToBcd (UInt8.ofNat (max 0 (min (dt.year - 2000) 99)).toNat) =
      UInt8.ofNat (Bcd.pack (min (dt.year - 2000).toNat 99)) := by
    rw [htwo, decToBcd_ofNat (by omega), min_eq_left (min_le_right _ _)]
  have hfields : timeFields (encodeDatetimeRegs dt) =
      [decToBcd (UInt8.ofNat dt.second) &&& 0x7f, decToBcd (UInt8.ofNat dt.minute) &&& 0x7f,
        decToBcd (UInt8.ofNat dt.hour) &&& 0x3f, decToBcd (UInt8.ofNat dt.day) &&& 0x3f,
        decToBcd (UInt8.ofNat dt.month) &&& 0x1f,
        decToBcd (UInt8.ofNat (max 0 (min (dt.year - 2000) 99)).toNat)] := rfl
  rw [hfields, hclamp,
    decToBcd_and_mask 6 7 (by omega) (by decide) rfl (by decide),
    decToBcd_and_mask 6 7 (by omega) (by decide) rfl (by decide),
    decToBcd_and_mask 3 6 (by omega) (by decide) rfl (by decide),
    decToBcd_and_mask 4 6 (by omega) (by decide) rfl (by decide),
    decToBcd_and_mask 2 5 (by omega) (by decide) rfl (by decide)]
  rfl

/-- **What is encoded is decoded**, up to 2099. -/
theorem decodeDatetimeRegs_encodeDatetimeRegs {dt : RtcDateTime} (h : Plausible dt)
    (hyear : dt.year ≤ 2099) : decodeDatetimeRegs (encodeDatetimeRegs dt) = some dt := by
  have hlow := h.year
  have hvalues : ∀ value ∈ values dt, value < 100 := by
    obtain ⟨⟨-, hmonth⟩, ⟨-, hday⟩, hhour, hminute, hsecond, -⟩ := h
    simp only [values, List.forall_mem_cons]
    exact ⟨by omega, by omega, by omega, by omega, by omega, by omega, List.forall_mem_nil _⟩
  refine decodeDatetimeRegs_eq_some_iff.mpr ⟨and_top ?_, h, ?_⟩
  · have hpack := Bcd.pack_lt 6 (Nat.lt_succ_of_le h.second)
    rw [show (encodeDatetimeRegs dt)[0] = decToBcd (UInt8.ofNat dt.second) from rfl,
      toNat_decToBcd_ofNat (h.second.trans_lt (by decide))]
    omega
  · rw [timeFields_encodeDatetimeRegs h, List.map_map]
    refine ((List.map_congr_left fun value hvalue => ?_).trans (List.map_id _)).symm
    have hvalue' := hvalues value hvalue
    have hpack : Bcd.pack value < 256 := (Bcd.pack_lt 10 hvalue').trans (by decide)
    rw [Function.comp_apply, min_eq_left (Nat.le_of_lt_succ hvalue'), UInt8.toNat_ofNat',
      Nat.mod_eq_of_lt hpack, Bcd.unpack_pack, id_eq]

/-! ## Whether what is decoded was encoded -/

/-- Every nibble of the time fields is a digit. -/
def ProperBcd (regs : Vector UInt8 7) : Prop := ∀ byte ∈ timeFields regs, Bcd.IsPacked byte

instance (regs : Vector UInt8 7) : Decidable (ProperBcd regs) :=
  decidable_of_iff ((timeFields regs).all (fun byte => decide (Bcd.IsPacked byte)) = true)
    (by simp only [ProperBcd, List.all_eq_true, decide_eq_true_eq])

theorem timeFields_encode_eq_iff {regs : Vector UInt8 7} {dt : RtcDateTime}
    (h : decodeDatetimeRegs regs = some dt) :
    timeFields (encodeDatetimeRegs dt) = timeFields regs ↔ ProperBcd regs := by
  obtain ⟨-, hplausible, hvalues⟩ := decodeDatetimeRegs_eq_some_iff.mp h
  have hencoded : timeFields (encodeDatetimeRegs dt) = (timeFields regs).map fun byte =>
      UInt8.ofNat (Bcd.pack (min (Bcd.unpack byte.toNat) 99)) := by
    rw [timeFields_encodeDatetimeRegs hplausible, hvalues, List.map_map]
    rfl
  calc timeFields (encodeDatetimeRegs dt) = timeFields regs
      ↔ (timeFields regs).map (fun byte =>
          UInt8.ofNat (Bcd.pack (min (Bcd.unpack byte.toNat) 99))) = (timeFields regs).map id := by
        rw [hencoded, List.map_id]
    _ ↔ ProperBcd regs := by
        rw [List.map_inj_left]
        exact forall₂_congr fun byte _ => Bcd.ofNat_pack_unpack_iff byte

/-- **An accepted image is what the encoder writes exactly if it is proper decimal**, and beside one
that is, the other images of its date are exactly the improper ones. -/
theorem image_exact_iff_properBcd {regs : Vector UInt8 7} {dt : RtcDateTime}
    (h : decodeDatetimeRegs regs = some dt) :
    (timeFields (encodeDatetimeRegs dt) = timeFields regs ↔ ProperBcd regs) ∧
      ∀ regs' : Vector UInt8 7, decodeDatetimeRegs regs' = some dt → ProperBcd regs →
        (timeFields regs' = timeFields regs ↔ ProperBcd regs') := by
  refine ⟨timeFields_encode_eq_iff h, fun regs' h' hproper => ?_⟩
  rw [← timeFields_encode_eq_iff h', (timeFields_encode_eq_iff h).mpr hproper]
  exact eq_comm

/-- Fifteen seconds past the year 2024. -/
theorem image_exact_fifteen :
    timeFields (encodeDatetimeRegs ⟨2024, 1, 1, 0, 0, 15⟩) =
      timeFields #v[0x15, 0x00, 0x00, 0x01, 0x01, 0x01, 0x24] :=
  (@image_exact_iff_properBcd #v[0x15, 0x00, 0x00, 0x01, 0x01, 0x01, 0x24] _ rfl).1.mpr (by decide)

/-- A second image of this instant, with a nibble of fifteen. -/
theorem second_image_accepted :
    decodeDatetimeRegs #v[0x15, 0x00, 0x00, 0x01, 0x01, 0x01, 0x24] =
        some ⟨2024, 1, 1, 0, 0, 15⟩ ∧
      decodeDatetimeRegs #v[0x0f, 0x00, 0x00, 0x01, 0x01, 0x01, 0x24] =
        some ⟨2024, 1, 1, 0, 0, 15⟩ ∧
      timeFields #v[0x0f, 0x00, 0x00, 0x01, 0x01, 0x01, 0x24] ≠
        timeFields #v[0x15, 0x00, 0x00, 0x01, 0x01, 0x01, 0x24] ∧
      ¬∀ (regs : Vector UInt8 7) (dt : RtcDateTime), decodeDatetimeRegs regs = some dt →
        timeFields (encodeDatetimeRegs dt) = timeFields regs := by
  refine ⟨rfl, rfl, by decide, fun h => ?_⟩
  have himage := h #v[0x0f, 0x00, 0x00, 0x01, 0x01, 0x01, 0x24] ⟨2024, 1, 1, 0, 0, 15⟩ rfl
  exact absurd himage (by decide)

end GpsNtp.Rtc
