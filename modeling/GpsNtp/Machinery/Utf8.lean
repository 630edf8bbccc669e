import Mathlib.Data.List.Basic
import Mathlib.Tactic.IntervalCases

/-!
# Machinery/Utf8 — strings as the bytes that encode them

    0xxxxxxx │ 11xxxxxx 10xxxxxx ⋯ │ 0xxxxxxx │ ⋯        │ = character boundary

A string is a byte string that encodes a sequence of Unicode scalar values; a slice of one at byte
indices is a string when both ends are **character boundaries**.  The encoding is the core
library's (`String.utf8EncodeChar`), and what is used of it is its shape: one byte below 0x80, or a
lead byte and continuation bytes (`encodeChar_shape`).
-/

namespace Utf8

/-! ## Strings -/

/-- The encoding of a sequence of characters. -/
def encode (cs : List Char) : List UInt8 := cs.flatMap String.utf8EncodeChar

/-- The bytes encode some sequence of characters. -/
def IsUtf8 (bs : List UInt8) : Prop := ∃ cs, encode cs = bs

/-- The test whether they do. -/
def isUtf8 (bs : List UInt8) : Bool := bs.toByteArray.validateUTF8

theorem isUtf8_iff {bs : List UInt8} : isUtf8 bs = true ↔ IsUtf8 bs := by
  rw [isUtf8, ByteArray.validateUTF8_eq_true_iff]
  constructor
  · rintro ⟨cs, hcs⟩
    have hbytes := congrArg (fun b : ByteArray => b.data.toList) hcs
    simp only [List.utf8Encode, List.toList_data_toByteArray] at hbytes
    exact ⟨cs, hbytes.symm⟩
  · rintro ⟨cs, rfl⟩
    exact ⟨cs, rfl⟩

@[simp] theorem encode_append (cs ds : List Char) : encode (cs ++ ds) = encode cs ++ encode ds :=
  List.flatMap_append

theorem encode_cons (c : Char) (cs : List Char) :
    encode (c :: cs) = String.utf8EncodeChar c ++ encode cs := List.flatMap_cons

theorem encode_infix {cs ds : List Char} (h : cs <:+: ds) : encode cs <:+: encode ds := by
  obtain ⟨pre, post, rfl⟩ := h
  exact ⟨encode pre, encode post, by rw [encode_append, encode_append]⟩

theorem length_encode_le (cs : List Char) : (encode cs).length ≤ 4 * cs.length := by
  induction cs with
  | nil => exact le_rfl
  | cons c cs ih =>
    have hchar : (String.utf8EncodeChar c).length ≤ 4 := by
      rw [String.length_utf8EncodeChar]
      exact c.utf8Size_le_four
    rw [encode_cons, List.length_append, List.length_cons]
    omega

theorem length_le_length_encode (cs : List Char) : cs.length ≤ (encode cs).length := by
  induction cs with
  | nil => exact le_rfl
  | cons c cs ih =>
    have hchar : 0 < (String.utf8EncodeChar c).length := by
      rw [String.length_utf8EncodeChar]
      exact c.utf8Size_pos
    rw [encode_cons, List.length_append, List.length_cons]
    omega

theorem toUTF8_eq_encode (s : String) : s.toUTF8.data.toList = encode s.toList := by
  have hbytes : s.toUTF8 = s.toList.utf8Encode := String.utf8Encode_toList.symm
  rw [hbytes, List.utf8Encode, List.toList_data_toByteArray, encode]

/-! ## The shape of a character -/

/-- A byte `10xxxxxx`. -/
def isContinuation (b : UInt8) : Bool := b &&& 0xC0 == 0x80

theorem isContinuation_of_lt {b : UInt8} (h : b < 0x80) : isContinuation b = false := by
  rw [isContinuation, beq_eq_false_iff_ne]
  intro heq
  have hle : (b &&& 0xC0).toNat ≤ b.toNat := by
    rw [UInt8.toNat_and]
    exact Nat.and_le_left
  rw [heq] at hle
  exact absurd (UInt8.lt_iff_toNat_lt.mp h) (not_lt.mpr hle)

theorem isContinuation_tail (x : UInt8) : isContinuation (x &&& 0x3f ||| 0x80) = true := by
  rw [isContinuation, beq_iff_eq, ← UInt8.toBitVec_inj]
  refine BitVec.eq_of_getLsbD_eq fun i hi => ?_
  interval_cases i <;> simp

/-- A byte with both top bits set is a lead byte. -/
theorem lead_of_or (x y : UInt8) :
    isContinuation (x ||| (y ||| 0xC0)) = false ∧ ¬(x ||| (y ||| 0xC0)) < 0x80 := by
  constructor
  · rw [isContinuation, beq_eq_false_iff_ne]
    intro h
    have hbit := congrArg (fun z : UInt8 => z.toBitVec.getLsbD 6) h
    simp at hbit
  · rw [UInt8.lt_iff_toNat_lt, not_lt, UInt8.toNat_or, UInt8.toNat_or]
    have h : (0xC0 : UInt8).toNat ≤ y.toNat ||| (0xC0 : UInt8).toNat := Nat.right_le_or
    have h' : _ ≤ x.toNat ||| (y.toNat ||| (0xC0 : UInt8).toNat) := Nat.right_le_or
    exact le_trans (by decide) (h.trans h')

/-- **The bytes of a character**: one below 0x80, or a lead byte and continuation bytes. -/
theorem encodeChar_shape (c : Char) :
    ∃ b tail, String.utf8EncodeChar c = b :: tail ∧ isContinuation b = false ∧
      (∀ x ∈ tail, isContinuation x = true) ∧ (b < 0x80 → tail = []) := by
  rcases c.utf8Size_eq with h | h | h | h
  · have hascii : c.val.toUInt8 < 0x80 := by
      have hle := UInt32.le_iff_toNat_le.mp (Char.utf8Size_eq_one_iff.mp h)
      have hle : c.val.toNat ≤ 127 := hle
      rw [UInt8.lt_iff_toNat_lt, UInt32.toNat_toUInt8]
      exact lt_of_le_of_lt (Nat.mod_le _ _) (Nat.lt_succ_of_le hle)
    exact ⟨_, _, String.utf8EncodeChar_eq_singleton h, isContinuation_of_lt hascii, nofun,
      fun _ => rfl⟩
  · refine ⟨_, _, String.utf8EncodeChar_eq_cons_cons h, (lead_of_or _ 0).1, ?_,
      fun hlt => absurd hlt (lead_of_or _ 0).2⟩
    simp [isContinuation_tail]
  · refine ⟨_, _, String.utf8EncodeChar_eq_cons_cons_cons h, (lead_of_or _ 0x20).1, ?_,
      fun hlt => absurd hlt (lead_of_or _ 0x20).2⟩
    simp [isContinuation_tail]
  · refine ⟨_, _, String.utf8EncodeChar_eq_cons_cons_cons_cons h, (lead_of_or _ 0x30).1, ?_,
      fun hlt => absurd hlt (lead_of_or _ 0x30).2⟩
    simp [isContinuation_tail]

/-! ## Characters below 0x80 -/

/-- `str::is_ascii`. -/
def isAscii (bs : List UInt8) : Bool := bs.all (· < 0x80)

theorem encode_ofUInt8 {bs : List UInt8} (h : isAscii bs = true) :
    encode (bs.map Char.ofUInt8) = bs := by
  induction bs with
  | nil => rfl
  | cons b bs ih =>
    rw [isAscii, List.all_cons, Bool.and_eq_true, decide_eq_true_eq] at h
    have hb : b.toNat < 128 := UInt8.lt_iff_toNat_lt.mp h.1
    have hsize : (Char.ofUInt8 b).utf8Size = 1 := by
      rw [Char.utf8Size_eq_one_iff, UInt32.le_iff_toNat_le]
      exact Nat.le_of_lt_succ hb
    have hchar : String.utf8EncodeChar (Char.ofUInt8 b) = [b] := by
      rw [String.utf8EncodeChar_eq_singleton hsize]
      exact congrArg (fun x => [x]) (UInt8.toUInt8_toUInt32 b)
    rw [List.map_cons, encode_cons, hchar, ih h.2, List.singleton_append]

/-! ## Character boundaries -/

/-- `str::is_char_boundary`. -/
def isCharBoundary (bs : List UInt8) (i : ℕ) : Bool :=
  i == 0 ||
    match bs[i]? with
    | some b => !isContinuation b
    | none => i == bs.length

/-- The slice of a string between two byte indices, `none` where taking it would panic. -/
def slice (bs : List UInt8) (i j : ℕ) : Option (List UInt8) :=
  if i ≤ j ∧ isCharBoundary bs i = true ∧ isCharBoundary bs j = true then
    some ((bs.take j).drop i)
  else none

theorem slice_eq_none_iff {bs : List UInt8} {i j : ℕ} (hij : i ≤ j) :
    slice bs i j = none ↔ ¬(isCharBoundary bs i = true ∧ isCharBoundary bs j = true) := by
  rw [slice]
  split_ifs with h
  · exact iff_of_false nofun (not_not.mpr h.2)
  · exact iff_of_true rfl fun hbounds => h ⟨hij, hbounds⟩

theorem mem_slice {bs sl : List UInt8} {i j k : ℕ} {b : UInt8} (h : slice bs i j = some sl)
    (hik : i ≤ k) (hkj : k < j) (hb : bs[k]? = some b) : b ∈ sl := by
  rw [slice] at h
  split_ifs at h
  obtain rfl := Option.some.inj h
  refine List.mem_iff_getElem?.mpr ⟨k - i, ?_⟩
  rw [List.getElem?_drop, Nat.add_sub_of_le hik, List.getElem?_take_of_lt hkj, hb]

theorem isCharBoundary_zero (bs : List UInt8) : isCharBoundary bs 0 = true := rfl

theorem isCharBoundary_of_isAscii {bs : List UInt8} (h : isAscii bs = true) {i : ℕ}
    (hi : i ≤ bs.length) : isCharBoundary bs i = true := by
  rw [isCharBoundary, Bool.or_eq_true]
  right
  cases hb : bs[i]? with
  | none => exact beq_iff_eq.mpr (le_antisymm hi (List.getElem?_eq_none_iff.mp hb))
  | some b =>
    have hlt : b < 0x80 := of_decide_eq_true (List.all_eq_true.mp h b (List.mem_of_getElem? hb))
    simp only [isContinuation_of_lt hlt, Bool.not_false]

/-- **A slice of characters below 0x80** is taken wherever it is in range. -/
theorem slice_of_isAscii {bs : List UInt8} (h : isAscii bs = true) {i j : ℕ} (hij : i ≤ j)
    (hj : j ≤ bs.length) : slice bs i j = some ((bs.take j).drop i) :=
  if_pos ⟨hij, isCharBoundary_of_isAscii h (hij.trans hj), isCharBoundary_of_isAscii h hj⟩

theorem slice_of_length_lt {bs : List UInt8} {i j : ℕ} (h : bs.length < j) :
    slice bs i j = none := by
  refine if_neg fun hbounds => Bool.false_ne_true ?_
  rw [← hbounds.2.2, isCharBoundary, List.getElem?_eq_none h.le]
  dsimp only
  rw [beq_false_of_ne (Nat.ne_zero_of_lt h), beq_false_of_ne h.ne', Bool.or_false]

/-- A string starts at a boundary, even where it is cut off after another. -/
theorem head_not_continuation {cs : List Char} {b : UInt8} (h : (encode cs)[0]? = some b) :
    isContinuation b = false := by
  cases cs with
  | nil => exact absurd h nofun
  | cons c cs =>
    obtain ⟨b', tail, hc, hb', -, -⟩ := encodeChar_shape c
    rw [encode_cons, hc] at h
    obtain rfl : b' = b := Option.some.inj h
    exact hb'

/-- Boundaries of the rest of a string are boundaries of the string. -/
theorem isCharBoundary_append (pre : List UInt8) {cs : List Char} {i : ℕ}
    (h : isCharBoundary (encode cs) i = true) :
    isCharBoundary (pre ++ encode cs) (pre.length + i) = true := by
  have hget : (pre ++ encode cs)[pre.length + i]? = (encode cs)[i]? := by
    rw [List.getElem?_append_right (Nat.le_add_right _ _), Nat.add_sub_cancel_left]
  rw [isCharBoundary, hget, Bool.or_eq_true]
  right
  cases hi : (encode cs)[i]? with
  | none =>
    have hlen := List.getElem?_eq_none_iff.mp hi
    rw [isCharBoundary, hi, Bool.or_eq_true, beq_iff_eq, beq_iff_eq] at h
    rw [beq_iff_eq, List.length_append]
    omega
  | some b =>
    rcases Nat.eq_zero_or_pos i with rfl | hpos
    · simp only [head_not_continuation hi, Bool.not_false]
    · rw [isCharBoundary, hi, Bool.or_eq_true, beq_iff_eq] at h
      exact h.resolve_left hpos.ne'

/-- **A byte below 0x80 ends at a boundary.** -/
theorem isCharBoundary_succ {bs : List UInt8} (h : IsUtf8 bs) {i : ℕ} {b : UInt8}
    (hb : bs[i]? = some b) (hascii : b < 0x80) : isCharBoundary bs (i + 1) = true := by
  obtain ⟨cs, rfl⟩ := h
  induction cs generalizing i with
  | nil => exact absurd hb nofun
  | cons c cs ih =>
    obtain ⟨b₀, tail, hc, -, htail, hone⟩ := encodeChar_shape c
    rw [encode_cons, hc] at hb ⊢
    rcases Nat.lt_or_ge i (b₀ :: tail).length with hi | hi
    · rw [List.getElem?_append_left hi] at hb
      cases i with
      | zero =>
        obtain rfl : b₀ = b := Option.some.inj hb
        rw [hone hascii]
        exact isCharBoundary_append [b₀] (isCharBoundary_zero _)
      | succ j =>
        have hmem : b ∈ tail := List.mem_of_getElem? hb
        exact absurd (htail b hmem) (by rw [isContinuation_of_lt hascii]; exact Bool.false_ne_true)
    · obtain ⟨k, rfl⟩ := Nat.exists_eq_add_of_le hi
      rw [List.getElem?_append_right hi, Nat.add_sub_cancel_left] at hb
      exact isCharBoundary_append (b₀ :: tail) (ih hb)

/-! ## Lossy decoding

`String::from_utf8_lossy`: where no character starts, the longest prefix of one, or a single byte
that starts none, becomes one replacement character. -/

/-- What the bytes after a lead byte may be. -/
def tailRanges (b : UInt8) : List (UInt8 × UInt8) :=
  if 0xC2 ≤ b ∧ b ≤ 0xDF then [(0x80, 0xBF)]
  else if b = 0xE0 then [(0xA0, 0xBF), (0x80, 0xBF)]
  else if b = 0xED then [(0x80, 0x9F), (0x80, 0xBF)]
  else if 0xE1 ≤ b ∧ b ≤ 0xEF then [(0x80, 0xBF), (0x80, 0xBF)]
  else if b = 0xF0 then [(0x90, 0xBF), (0x80, 0xBF), (0x80, 0xBF)]
  else if 0xF1 ≤ b ∧ b ≤ 0xF3 then [(0x80, 0xBF), (0x80, 0xBF), (0x80, 0xBF)]
  else if b = 0xF4 then [(0x80, 0x8F), (0x80, 0xBF), (0x80, 0xBF)]
  else []

/-- How many bytes lie in the ranges, in turn. -/
def matched : List (UInt8 × UInt8) → List UInt8 → ℕ
  | (lo, hi) :: ranges, b :: bs => if lo ≤ b ∧ b ≤ hi then matched ranges bs + 1 else 0
  | _, _ => 0

/-- The characters read. -/
def lossyChars : List UInt8 → List Char
  | [] => []
  | b :: rest =>
    match (b :: rest).toByteArray.utf8DecodeChar? 0 with
    | some c => c :: lossyChars (rest.drop (c.utf8Size - 1))
    | none => '\uFFFD' :: lossyChars (rest.drop (matched (tailRanges b) rest))
  termination_by bs => bs.length
  decreasing_by all_goals (rw [List.length_drop, List.length_cons]; omega)

/-- `String::from_utf8_lossy`. -/
def fromUtf8Lossy (bs : List UInt8) : List UInt8 := encode (lossyChars bs)

/-- **The characters before the first fault are read as they are.** -/
theorem lossyChars_encode_append (cs : List Char) (bs : List UInt8) :
    lossyChars (encode cs ++ bs) = cs ++ lossyChars bs := by
  induction cs with
  | nil => rfl
  | cons c cs ih =>
    obtain ⟨b, tail, hc, -⟩ := encodeChar_shape c
    have hdec : (b :: (tail ++ (encode cs ++ bs))).toByteArray.utf8DecodeChar? 0 = some c := by
      rw [← List.cons_append, ← hc, List.toByteArray_append]
      exact ByteArray.utf8DecodeChar?_utf8EncodeChar_append
    have hlen : c.utf8Size - 1 = tail.length := by
      rw [← String.length_utf8EncodeChar, hc, List.length_cons, Nat.add_sub_cancel]
    rw [encode_cons, hc, List.append_assoc, List.cons_append, lossyChars]
    simp only [hdec, hlen, List.drop_left, ih, List.cons_append]

@[simp] theorem lossyChars_encode (cs : List Char) : lossyChars (encode cs) = cs := by
  have hchars := lossyChars_encode_append cs []
  rwa [List.append_nil, lossyChars, List.append_nil] at hchars

/-- A text below 0x80 is read as it is. -/
theorem fromUtf8Lossy_of_isAscii {bs : List UInt8} (h : isAscii bs = true) :
    fromUtf8Lossy bs = bs := by
  rw [← encode_ofUInt8 h, fromUtf8Lossy, lossyChars_encode]

theorem encode_injective : Function.Injective encode :=
  Function.LeftInverse.injective lossyChars_encode

/-- `str::from_utf8`: the characters, where the bytes encode some. -/
def fromUtf8 (bs : List UInt8) : Option (List Char) :=
  if isUtf8 bs = true then some (lossyChars bs) else none

theorem fromUtf8_eq_some_iff {bs : List UInt8} {cs : List Char} :
    fromUtf8 bs = some cs ↔ encode cs = bs := by
  rw [fromUtf8]
  split_ifs with h
  · obtain ⟨ds, rfl⟩ := isUtf8_iff.mp h
    rw [lossyChars_encode, Option.some.injEq]
    exact ⟨congrArg encode ∘ Eq.symm, fun heq => by
      rw [← lossyChars_encode ds, ← heq, lossyChars_encode]⟩
  · exact iff_of_false nofun fun heq => h (isUtf8_iff.mpr ⟨cs, heq⟩)

theorem fromUtf8_eq_none_iff {bs : List UInt8} : fromUtf8 bs = none ↔ ¬IsUtf8 bs := by
  rw [Option.eq_none_iff_forall_ne_some, IsUtf8, not_exists]
  exact forall_congr' fun cs => not_congr fromUtf8_eq_some_iff

end Utf8
