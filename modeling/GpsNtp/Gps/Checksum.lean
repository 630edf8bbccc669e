import GpsNtp.Gps.Sentence
import GpsNtp.Machinery.Parity
import GpsNtp.Machinery.Split

/-!
# Gps/Checksum — which sentences pass

    $ ───── body ───── * h l ⋯           the last star;  ⊕ body = hl

The field is found behind the last star and read by the integer parser of the standard library, so
that `*+7` passes for `*07` (`checksum_exact_iff_unsigned`).  A framed body passes whatever it
consists of, and stops passing with any one byte of it changed: a star in the body is never the
last (`frame_detects_change`).
-/

namespace GpsNtp

open Utf8 Ascii Split

/-! ## The last star -/

theorem rfind_append {pre post : List UInt8} {b : UInt8} (h : b ∉ post) :
    rfind (pre ++ b :: post) b = some pre.length := by
  have hnone : post.reverse.findIdx? (· == b) = none := by
    refine List.findIdx?_eq_none_iff.mpr fun x hx => beq_eq_false_iff_ne.mpr ?_
    rintro rfl
    exact h (List.mem_reverse.mp hx)
  rw [rfind, reverse_cut, List.findIdx?_append, hnone, List.findIdx?_cons, BEq.rfl]
  simp

/-- A sentence between its dollar sign and its last star, and behind it. -/
structure Starred (sentence body tail : List UInt8) : Prop where
  ascii : isAscii sentence = true
  text : sentence = '$'.toUInt8 :: body ++ '*'.toUInt8 :: tail
  last : '*'.toUInt8 ∉ tail

section

variable {sentence body tail : List UInt8}

theorem Starred.unique {body' tail' : List UInt8} (h : Starred sentence body tail)
    (h' : Starred sentence body' tail') : body = body' ∧ tail = tail' := by
  obtain ⟨hbody, htail⟩ := last_unique h.last h'.last (h.text.symm.trans h'.text)
  exact ⟨(List.cons.inj hbody).2, htail⟩

/-- The exclusive or of the bytes of a body. -/
def checksum (body : List UInt8) : UInt8 := body.foldl (· ^^^ ·) 0

namespace Starred

theorem rfind_star (h : Starred sentence body tail) :
    rfind sentence '*'.toUInt8 = some (body.length + 1) := by
  rw [h.text]
  exact rfind_append h.last

theorem head_dollar (h : Starred sentence body tail) : sentence.head? = some '$'.toUInt8 := by
  rw [h.text]
  rfl

theorem length_eq (h : Starred sentence body tail) :
    sentence.length = body.length + 2 + tail.length := by
  rw [h.text, List.length_append, List.length_cons, List.length_cons]
  omega

/-- The body that is folded. -/
theorem slice_body (h : Starred sentence body tail) :
    sliceBytes sentence 1 (body.length + 1) = some body := by
  have hlength := h.length_eq
  rw [sliceBytes, if_pos ⟨Nat.le_add_left 1 _, by omega⟩, h.text, List.cons_append,
    List.take_succ_cons, List.drop_one, List.tail_cons, List.take_left]

/-- The field that is read. -/
theorem slice_field (h : Starred sentence body tail) (hlong : 2 ≤ tail.length) :
    slice sentence (body.length + 1 + 1) (body.length + 1 + 3) = some (tail.take 2) := by
  have hlength := h.length_eq
  have htext : sentence = ('$'.toUInt8 :: body ++ ['*'.toUInt8]) ++ tail := by
    rw [h.text, List.append_assoc, List.singleton_append]
  have hfront : ('$'.toUInt8 :: body ++ ['*'.toUInt8]).length = body.length + 2 := by
    rw [List.length_append, List.length_cons, List.length_singleton]
  rw [slice_of_isAscii h.ascii (by omega) (by omega), List.drop_take, htext, List.drop_left' hfront]
  congr 2
  omega

/-- **The verdict** on a sentence with a star. -/
theorem verdict (h : Starred sentence body tail) :
    nmeaChecksumValid sentence = some (decide (2 ≤ tail.length ∧
      fromStrRadix 16 255 (tail.take 2) = some (checksum body).toNat)) := by
  have hlength := h.length_eq
  rw [nmeaChecksumValid, h.ascii, if_neg (by decide), if_neg (not_not.mpr h.head_dollar),
    h.rfind_star]
  dsimp only
  rcases lt_or_ge tail.length 2 with hshort | hlong
  · rw [slice_of_length_lt (by omega), decide_eq_false fun hfield => by omega]
  · rw [h.slice_field hlong]
    dsimp only
    cases hfield : fromStrRadix 16 255 (tail.take 2) with
    | none => rw [decide_eq_false fun hv => absurd hv.2 (Option.some_ne_none _).symm]
    | some expected =>
      dsimp only
      rw [h.slice_body, Option.bind_eq_bind, Option.bind_some, Option.some.injEq,
        Bool.eq_iff_iff, beq_iff_eq, decide_eq_true_eq, Option.some.injEq]
      exact ⟨fun heq => ⟨hlong, heq.symm⟩, fun heq => heq.2.symm⟩

end Starred

/-- Without a star behind a dollar sign, nothing passes. -/
theorem exists_starred (h : nmeaChecksumValid sentence = some true) :
    ∃ body tail, Starred sentence body tail := by
  rw [nmeaChecksumValid] at h
  split_ifs at h with hascii hdollar
  · exact absurd h (by decide)
  · exact absurd h (by decide)
  rw [Bool.not_eq_true, Bool.not_eq_false'] at hascii
  have hmem : '*'.toUInt8 ∈ sentence := by
    cases hstar : rfind sentence '*'.toUInt8 with
    | none =>
      rw [hstar] at h
      exact absurd (Option.some.inj h) Bool.false_ne_true
    | some i => exact List.mem_of_getElem? (getElem?_of_rfind hstar)
  obtain ⟨tail, front, heq, hlast⟩ := List.eq_append_cons_of_mem (List.mem_reverse.mpr hmem)
  have htext : sentence = front.reverse ++ '*'.toUInt8 :: tail.reverse := by
    rw [← List.reverse_reverse sentence, heq, reverse_cut]
  cases hfront : front.reverse with
  | nil =>
    rw [htext, hfront] at hdollar
    exact absurd (Option.some.inj (not_not.mp hdollar)) (by decide)
  | cons b body =>
    rw [hfront] at htext
    obtain rfl : b = '$'.toUInt8 := by
      rw [htext] at hdollar
      exact Option.some.inj (not_not.mp hdollar)
    exact ⟨body, tail.reverse, hascii, htext, fun hstar => hlast (List.mem_reverse.mp hstar)⟩

/-! ## What passes -/

/-- **A checksum in two hexadecimal digits**, behind the last star. -/
def HexChecked (sentence : List UInt8) : Prop :=
  ∃ (body : List UInt8) (h l : UInt8) (rest : List UInt8) (x y : ℕ),
    Starred sentence body (h :: l :: rest) ∧ hexDigit h = some x ∧ hexDigit l = some y ∧
      x * 16 + y = (checksum body).toNat

/-- A checksum in one digit, with a `+` where the other belongs. -/
def SignChecked (sentence : List UInt8) : Prop :=
  ∃ (body : List UInt8) (l : UInt8) (rest : List UInt8),
    Starred sentence body ('+'.toUInt8 :: l :: rest) ∧
      hexDigit l = some (checksum body).toNat

theorem nmeaChecksumValid_iff :
    nmeaChecksumValid sentence = some true ↔ HexChecked sentence ∨ SignChecked sentence := by
  have hpair := fun v h l => @fromStrRadix_pair_eq_some_iff 16 255 v (by decide) (by decide) h l
  simp only [toDigit_sixteen] at hpair
  constructor
  · intro hvalid
    obtain ⟨body, tail, hstarred⟩ := exists_starred hvalid
    rw [hstarred.verdict, Option.some.injEq, decide_eq_true_eq] at hvalid
    obtain ⟨hlong, hread⟩ := hvalid
    match tail, hlong with
    | h :: l :: rest, _ =>
      rcases (hpair _ h l).mp hread with ⟨x, y, hx, hy, heq⟩ | ⟨rfl, hy⟩
      · exact .inl ⟨body, h, l, rest, x, y, hstarred, hx, hy, heq⟩
      · exact .inr ⟨body, l, rest, hstarred, hy⟩
  · rintro (⟨body, h, l, rest, x, y, hstarred, hx, hy, heq⟩ | ⟨body, l, rest, hstarred, hy⟩)
    · rw [hstarred.verdict, decide_eq_true ⟨Nat.le_add_left 2 _, (hpair _ h l).mpr
        (.inl ⟨x, y, hx, hy, heq⟩)⟩]
    · rw [hstarred.verdict, decide_eq_true ⟨Nat.le_add_left 2 _, (hpair _ _ l).mpr
        (.inr ⟨rfl, hy⟩)⟩]

theorem SignChecked.not_hexChecked (h : SignChecked sentence) : ¬HexChecked sentence := by
  rintro ⟨body, h', l, rest, x, y, hstarred, hx, -⟩
  obtain ⟨body', l', rest', hstarred', -⟩ := h
  obtain ⟨-, htail⟩ := hstarred.unique hstarred'
  obtain rfl := (List.cons.inj htail).1
  have hsign : hexDigit '+'.toUInt8 = none := by decide
  rw [hsign] at hx
  cases hx

end

/-- **The checksum is exact but for signs.**  Whatever the sentence, the validator returns; and it
passes exactly the sentences with their checksum in two hexadecimal digits, unless there is a sign
in the place of the first. -/
theorem checksum_exact_iff_unsigned (sentence : List UInt8) :
    ((nmeaChecksumValid sentence = some true ↔ HexChecked sentence) ∧
      ∃ valid, nmeaChecksumValid sentence = some valid) ↔ ¬SignChecked sentence := by
  constructor
  · intro h hsigned
    exact hsigned.not_hexChecked (h.1.mp (nmeaChecksumValid_iff.mpr (.inr hsigned)))
  · intro hunsigned
    refine ⟨nmeaChecksumValid_iff.trans ?_, nmeaChecksumValid_total sentence⟩
    exact or_iff_left hunsigned

/-- A fix whose checksum is 7. -/
def fixBody : List UInt8 :=
  "GPRMC,123519,A,4807.038,N,01131.000,E,022.4,084.4,230394,003.1,W,A".toUTF8.data.toList

/-- The fix passes with a checksum of `+7`. -/
theorem sign_passes :
    ¬((nmeaChecksumValid ('$'.toUInt8 :: fixBody ++ ['*'.toUInt8, '+'.toUInt8, '7'.toUInt8]) =
        some true ↔
      HexChecked ('$'.toUInt8 :: fixBody ++ ['*'.toUInt8, '+'.toUInt8, '7'.toUInt8])) ∧
      ∃ valid, nmeaChecksumValid
        ('$'.toUInt8 :: fixBody ++ ['*'.toUInt8, '+'.toUInt8, '7'.toUInt8]) = some valid) := by
  have hsigned : SignChecked
      ('$'.toUInt8 :: fixBody ++ ['*'.toUInt8, '+'.toUInt8, '7'.toUInt8]) :=
    ⟨fixBody, '7'.toUInt8, [], ⟨by decide +kernel, rfl, by decide⟩, by decide +kernel⟩
  exact fun h => hsigned.not_hexChecked (h.1.mp (nmeaChecksumValid_iff.mpr (.inr hsigned)))

/-! ## Frames -/

/-- `nmea_frame`. -/
def nmeaFrame (body : List UInt8) : List UInt8 :=
  let checksum := body.foldl (· ^^^ ·) 0
  '$'.toUInt8 :: body ++ '*'.toUInt8 :: upperHex checksum ++ ['\r'.toUInt8, '\n'.toUInt8]

example : nmeaFrame "PMTK314,0,1,0,1,0,0,0,0,0,0,0,0,0,0,0,0,0,0,0".toUTF8.data.toList =
    "$PMTK314,0,1,0,1,0,0,0,0,0,0,0,0,0,0,0,0,0,0,0*28\r\n".toUTF8.data.toList := by decide +kernel

/-- What is sent is a frame, or the frame without its line ending. -/
def IsFrame (sentence body : List UInt8) : Prop :=
  sentence = nmeaFrame body ∨ sentence ++ ['\r'.toUInt8, '\n'.toUInt8] = nmeaFrame body

theorem IsFrame.eq {sentence body : List UInt8} (h : IsFrame sentence body) :
    ∃ ending, (ending = [] ∨ ending = ['\r'.toUInt8, '\n'.toUInt8]) ∧
      sentence = '$'.toUInt8 :: body ++ '*'.toUInt8 :: (upperHex (checksum body) ++ ending) := by
  rcases h with rfl | h
  · exact ⟨_, .inr rfl, List.append_assoc _ _ _⟩
  · exact ⟨[], .inl rfl, (List.append_cancel_right h).trans (by rw [List.append_nil, checksum])⟩

theorem checksum_set_ne {body : List UInt8} {i : ℕ} {b c : UInt8} (hb : body[i]? = some b)
    (hne : c ≠ b) : checksum (body.set i c) ≠ checksum body :=
  Parity.foldl_set_ne (fun r _ _ => (UInt8.xor_right_inj r).mp)
    (fun x _ _ => (UInt8.xor_left_inj x).mp) hb hne 0

/-- **The verdict on a checksum field** in upper case digits. -/
theorem verdict_upperHex {body ending : List UInt8} (hascii : isAscii body = true) (field : UInt8)
    (hending : ending = [] ∨ ending = ['\r'.toUInt8, '\n'.toUInt8]) :
    nmeaChecksumValid ('$'.toUInt8 :: body ++ '*'.toUInt8 :: (upperHex field ++ ending)) =
      some (decide (field = checksum body)) := by
  have hstarred : Starred ('$'.toUInt8 :: body ++ '*'.toUInt8 :: (upperHex field ++ ending)) body
      (upperHex field ++ ending) := by
    have hdigits : ∀ b ∈ upperHex field, b < 0x80 ∧ b ≠ '*'.toUInt8 := fun b hb => by
      have hdigit := isSome_toDigit_of_mem_upperHex hb
      refine ⟨lt_of_isSome_toDigit hdigit, ?_⟩
      rintro rfl
      exact Bool.false_ne_true hdigit
    have htail : ∀ b ∈ upperHex field ++ ending, b < 0x80 ∧ b ≠ '*'.toUInt8 := by
      rcases hending with rfl | rfl
      · rwa [List.append_nil]
      · rw [List.forall_mem_append, List.forall_mem_cons, List.forall_mem_singleton]
        exact ⟨hdigits, by decide⟩
    refine ⟨?_, rfl, fun hstar => (htail '*'.toUInt8 hstar).2 rfl⟩
    rw [isAscii, List.all_append, List.all_cons, List.all_cons, ← isAscii, hascii]
    exact List.all_eq_true.mpr fun b hb => decide_eq_true (htail b hb).1
  have hread : fromStrRadix 16 255 ((upperHex field ++ ending).take 2) = some field.toNat :=
    fromStrRadix_upperHex field
  have hlong : 2 ≤ (upperHex field ++ ending).length := List.length_append ▸ Nat.le_add_right 2 _
  rw [hstarred.verdict, hread]
  congr 1
  refine decide_eq_decide.mpr ⟨fun h => UInt8.toNat_inj.mp (Option.some.inj h.2), ?_⟩
  rintro rfl
  exact ⟨hlong, rfl⟩

/-- **A frame passes, and no change of one byte of its body does.** -/
theorem frame_detects_change {sentence body : List UInt8} (hascii : isAscii body = true)
    (hframe : IsFrame sentence body) :
    nmeaChecksumValid sentence = some true ∧
      ∀ (i : ℕ) (b c : UInt8), body[i]? = some b → c < 0x80 → c ≠ b →
        nmeaChecksumValid (sentence.set (i + 1) c) = some false := by
  obtain ⟨ending, hending, rfl⟩ := hframe.eq
  refine ⟨?_, fun i b c hb hc hne => ?_⟩
  · rw [verdict_upperHex hascii _ hending, decide_eq_true rfl]
  · have hi : i < body.length := (List.getElem?_eq_some_iff.mp hb).1
    have hset : isAscii (body.set i c) = true := by
      refine List.all_eq_true.mpr fun x hx => ?_
      rcases List.mem_or_eq_of_mem_set hx with hmem | rfl
      · exact List.all_eq_true.mp hascii x hmem
      · exact decide_eq_true hc
    rw [List.cons_append, List.set_cons_succ, List.set_append_left _ _ hi, ← List.cons_append,
      verdict_upperHex hset _ hending, decide_eq_false (checksum_set_ne hb hne).symm]

theorem frame_detects_change_query :
    nmeaChecksumValid (nmeaFrame ['P'.toUInt8, '*'.toUInt8, '6'.toUInt8]) = some true ∧
      nmeaChecksumValid ((nmeaFrame ['P'.toUInt8, '*'.toUInt8, '6'.toUInt8]).set 3 '*'.toUInt8) =
        some false :=
  have h := frame_detects_change (by decide) (.inl rfl)
  ⟨h.1, h.2 2 '6'.toUInt8 '*'.toUInt8 rfl (by decide) (by decide)⟩

end GpsNtp
