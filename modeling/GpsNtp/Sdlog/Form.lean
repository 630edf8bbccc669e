import GpsNtp.Machinery.Utf8
import GpsNtp.Machinery.Ascii

/-!
# Sdlog/Form — decoding a form field

    raw  ⋯ % 4 1 b ⋯        raw[i + 1 .. i + 3], then i + 3
           i                 where b starts no character the slice panics

The value that the delete handler is sent, on the bytes of its string.  The loop goes byte by byte,
the slice behind a percent sign is one of a `str`, so both of its ends have to be character
boundaries.  The first always is, the second is the sender's choice.
-/

namespace GpsNtp.Sdlog

open Utf8 Ascii

/-! ## The loop -/

/-- The locals of `form_decode`: the index and the bytes decoded so far. -/
structure FormLoop where
  i : ℕ
  out : List UInt8

/-- One round of the loop at the byte `b`, `none` where it panics. -/
def formRound (raw : List UInt8) (s : FormLoop) (b : UInt8) : Option FormLoop :=
  if b = '+'.toUInt8 then some ⟨s.i + 1, s.out ++ [' '.toUInt8]⟩
  else if b = '%'.toUInt8 ∧ s.i + 2 < raw.length then
    (slice raw (s.i + 1) (s.i + 3)).map fun hex =>
      match fromStrRadix 16 255 hex with
      | some v => ⟨s.i + 2 + 1, s.out ++ [v.toUInt8]⟩
      | none => ⟨s.i + 1, s.out ++ ['%'.toUInt8]⟩
  else some ⟨s.i + 1, s.out ++ [b]⟩

/-- **What a round does**: it takes one byte, or a percent sign and the number behind it. -/
theorem formRound_cases {raw : List UInt8} {s s' : FormLoop} {b : UInt8}
    (h : formRound raw s b = some s') :
    s'.i = s.i + 1 ∨
      ∃ hex v, slice raw (s.i + 1) (s.i + 3) = some hex ∧ fromStrRadix 16 255 hex = some v ∧
        s'.i = s.i + 3 := by
  rw [formRound] at h
  split_ifs at h
  · exact .inl (congrArg FormLoop.i (Option.some.inj h)).symm
  · obtain ⟨hex, hslice, rfl⟩ := Option.map_eq_some_iff.mp h
    cases hv : fromStrRadix 16 255 hex with
    | none => exact .inl rfl
    | some v => exact .inr ⟨hex, v, hslice, hv, rfl⟩
  · exact .inl (congrArg FormLoop.i (Option.some.inj h)).symm

theorem lt_of_formRound {raw : List UInt8} {s s' : FormLoop} {b : UInt8}
    (h : formRound raw s b = some s') : s.i < s'.i := by
  rcases formRound_cases h with hi | ⟨-, -, -, -, hi⟩ <;> omega

/-- A round panics at the slice only. -/
theorem formRound_eq_none_iff {raw : List UInt8} {s : FormLoop} {b : UInt8} :
    formRound raw s b = none ↔
      b = '%'.toUInt8 ∧ s.i + 2 < raw.length ∧ slice raw (s.i + 1) (s.i + 3) = none := by
  rw [formRound]
  split_ifs with hplus hpercent
  · refine iff_of_false nofun fun h => ?_
    exact absurd (hplus.symm.trans h.1) (by decide)
  · rw [Option.map_eq_none_iff]
    exact ⟨fun h => ⟨hpercent.1, hpercent.2, h⟩, fun h => h.2.2⟩
  · exact iff_of_false nofun fun h => hpercent ⟨h.1, h.2.1⟩

/-- The loop from some round on. -/
def formLoop (raw : List UInt8) (s : FormLoop) : Option (List UInt8) :=
  if h : s.i < raw.length then
    match _hround : formRound raw s raw[s.i] with
    | some s' => formLoop raw s'
    | none => none
  else some s.out
  termination_by raw.length - s.i
  decreasing_by
    have := lt_of_formRound _hround
    omega

/-- `form_decode`, `none` where it panics. -/
def formDecode (raw : List UInt8) : Option (List UInt8) :=
  (formLoop raw ⟨0, []⟩).map fromUtf8Lossy

/-- The states in which the loop goes round. -/
inductive Reached (raw : List UInt8) : FormLoop → Prop
  | start : Reached raw ⟨0, []⟩
  | round {s s' : FormLoop} {b : UInt8} (hs : Reached raw s) (hb : raw[s.i]? = some b)
      (h : formRound raw s b = some s') : Reached raw s'

/-- The loop takes the slice of `raw` from `i` to `j`. -/
def SliceTaken (raw : List UInt8) (i j : ℕ) : Prop :=
  ∃ s, Reached raw s ∧ raw[s.i]? = some '%'.toUInt8 ∧ s.i + 2 < raw.length ∧
    i = s.i + 1 ∧ j = s.i + 3

/-! ## Where the loop stops -/

/-- A byte that a number consists of is no percent sign. -/
theorem ne_percent_of_number {hex : List UInt8} {v : ℕ} (h : fromStrRadix 16 255 hex = some v) :
    '%'.toUInt8 ∉ hex := by
  intro hmem
  rcases mem_of_fromStrRadix h _ hmem with hplus | hdigit
  · exact absurd hplus (by decide)
  · exact absurd hdigit (by decide)

/-- **No percent sign is skipped**: without a panic at a slice the loop stops at each. -/
theorem reaches_percent {raw : List UInt8}
    (hsafe : ∀ i j, SliceTaken raw i j →
      isCharBoundary raw i = true ∧ isCharBoundary raw j = true) {p : ℕ}
    (hp : raw[p]? = some '%'.toUInt8) (s : FormLoop) (hs : Reached raw s) (hle : s.i ≤ p) :
    ∃ s', Reached raw s' ∧ s'.i = p := by
  rcases hle.eq_or_lt with heq | hlt
  · exact ⟨s, hs, heq⟩
  · have hlen : s.i < raw.length := hlt.trans (List.getElem?_eq_some_iff.mp hp).1
    have hb : raw[s.i]? = some raw[s.i] := List.getElem?_eq_getElem hlen
    cases hround : formRound raw s raw[s.i] with
    | none =>
      obtain ⟨hpercent, hroom, hslice⟩ := formRound_eq_none_iff.mp hround
      have htaken := hsafe _ _ ⟨s, hs, hpercent ▸ hb, hroom, rfl, rfl⟩
      exact absurd htaken ((slice_eq_none_iff (by omega)).mp hslice)
    | some s' =>
      have hnext : s'.i ≤ p := by
        rcases formRound_cases hround with hi | ⟨hex, v, hslice, hv, hi⟩
        · omega
        · -- the two bytes skipped are those of the number
          by_contra hskip
          exact ne_percent_of_number hv (mem_slice hslice (by omega) (by omega) hp)
      have hprog := lt_of_formRound hround
      exact reaches_percent hsafe hp s' (hs.round hb hround) hnext
  termination_by p - s.i

/-- Without a panic at a slice the loop returns. -/
theorem formLoop_returns {raw : List UInt8}
    (hsafe : ∀ i j, SliceTaken raw i j →
      isCharBoundary raw i = true ∧ isCharBoundary raw j = true) (s : FormLoop)
    (hs : Reached raw s) : ∃ out, formLoop raw s = some out := by
  rw [formLoop]
  split_ifs with hlen
  · have hb : raw[s.i]? = some raw[s.i] := List.getElem?_eq_getElem hlen
    split
    · rename_i s' hround
      have hprog := lt_of_formRound hround
      exact formLoop_returns hsafe s' (hs.round hb hround)
    · rename_i hround
      obtain ⟨hpercent, hroom, hslice⟩ := formRound_eq_none_iff.mp hround
      have htaken := hsafe _ _ ⟨s, hs, hpercent ▸ hb, hroom, rfl, rfl⟩
      exact absurd htaken ((slice_eq_none_iff (by omega)).mp hslice)
  · exact ⟨s.out, rfl⟩
  termination_by raw.length - s.i

/-- A round that panics ends the loop. -/
theorem formLoop_eq_none {raw : List UInt8} {s : FormLoop} {b : UInt8}
    (hb : raw[s.i]? = some b) (h : formRound raw s b = none) : formLoop raw s = none := by
  obtain ⟨hlen, rfl⟩ := List.getElem?_eq_some_iff.mp hb
  rw [formLoop, dif_pos hlen]
  split
  · rename_i s' hround
    exact absurd (h.symm.trans hround) nofun
  · rfl

/-- Bytes that are neither sign are copied. -/
theorem formLoop_copies {raw : List UInt8} (h : ∀ b ∈ raw, b ≠ '+'.toUInt8 ∧ b ≠ '%'.toUInt8)
    (s : FormLoop) : formLoop raw s = some (s.out ++ raw.drop s.i) := by
  rw [formLoop]
  split_ifs with hlen
  · obtain ⟨hplus, hpercent⟩ := h _ (List.getElem_mem hlen)
    have hround : formRound raw s raw[s.i] = some ⟨s.i + 1, s.out ++ [raw[s.i]]⟩ := by
      rw [formRound, if_neg hplus, if_neg fun h => hpercent h.1]
    split
    · rename_i s' hs'
      obtain rfl := Option.some.inj (hround.symm.trans hs')
      rw [formLoop_copies h, List.append_assoc, List.singleton_append, List.getElem_cons_drop]
    · rename_i hnone
      exact absurd (hround.symm.trans hnone) nofun
  · rw [List.drop_eq_nil_of_le (not_lt.mp hlen), List.append_nil]
  termination_by raw.length - s.i

/-- A text of neither sign stands for itself. -/
theorem formDecode_copies {raw : List UInt8} (h : ∀ b ∈ raw, b ≠ '+'.toUInt8 ∧ b ≠ '%'.toUInt8) :
    formDecode raw = some (fromUtf8Lossy raw) := by
  rw [formDecode, formLoop_copies h, Option.map_some, List.nil_append, List.drop_zero]

/-! ## When it panics -/

/-- **The decoder returns** when each percent sign with two bytes behind it has a character
starting, or the string ending, behind those two. -/
theorem formDecode_safe_iff {raw : List UInt8} (hraw : IsUtf8 raw) :
    ((∀ i j, SliceTaken raw i j →
        isCharBoundary raw i = true ∧ isCharBoundary raw j = true) ∧
      ∃ out, formDecode raw = some out) ↔
    ∀ i, raw[i]? = some '%'.toUInt8 → i + 2 < raw.length →
      isCharBoundary raw (i + 3) = true := by
  constructor
  · rintro ⟨hsafe, -⟩ p hp hroom
    obtain ⟨s, hs, rfl⟩ := reaches_percent hsafe hp ⟨0, []⟩ .start (Nat.zero_le p)
    exact (hsafe _ _ ⟨s, hs, hp, hroom, rfl, rfl⟩).2
  · intro hends
    have hsafe : ∀ i j, SliceTaken raw i j →
        isCharBoundary raw i = true ∧ isCharBoundary raw j = true := by
      rintro _ _ ⟨s, -, hp, hroom, rfl, rfl⟩
      exact ⟨isCharBoundary_succ hraw hp (by decide), hends s.i hp hroom⟩
    obtain ⟨out, hout⟩ := formLoop_returns hsafe ⟨0, []⟩ .start
    exact ⟨hsafe, _, congrArg (Option.map fromUtf8Lossy) hout⟩

/-- `%2Eé%4`: a number, a character of two bytes and a percent sign too near the end. -/
theorem formDecode_safe_fileName :
    ∃ out, formDecode [0x25, 0x32, 0x45, 0xC3, 0xA9, 0x25, 0x34] = some out := by
  have hraw : IsUtf8 [0x25, 0x32, 0x45, 0xC3, 0xA9, 0x25, 0x34] :=
    isUtf8_iff.mp (by decide +kernel)
  refine ((formDecode_safe_iff hraw).mpr fun i hp hroom => ?_).2
  have hends : ∀ i < 7, ([0x25, 0x32, 0x45, 0xC3, 0xA9, 0x25, 0x34] : List UInt8)[i]? =
      some '%'.toUInt8 → i + 2 < 7 →
      isCharBoundary [0x25, 0x32, 0x45, 0xC3, 0xA9, 0x25, 0x34] (i + 3) = true := by
    decide
  exact hends i (List.getElem?_eq_some_iff.mp hp).1 hp hroom

/-- **A percent sign, one letter and an `é`**: the slice behind the sign would cut the `é`. -/
theorem percent_cuts_character :
    IsUtf8 [0x25, 0x61, 0xC3, 0xA9] ∧ formDecode [0x25, 0x61, 0xC3, 0xA9] = none := by
  have hround : formRound [0x25, 0x61, 0xC3, 0xA9] ⟨0, []⟩ 0x25 = none :=
    formRound_eq_none_iff.mpr (by decide)
  exact ⟨isUtf8_iff.mp (by decide +kernel),
    congrArg (Option.map fromUtf8Lossy) (formLoop_eq_none rfl hround)⟩

end GpsNtp.Sdlog
