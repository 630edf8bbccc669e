import Mathlib.Algebra.Order.Floor.Ring
import Mathlib.Data.Rat.Floor
import Mathlib.Tactic.Linarith

/-!
# Machinery/MachineInt — fixed-width integers, read over `ℤ` and `ℚ`

    saturate : ℤ ──clamp──▸ [lo, hi]        wrap : ℤ ──mod 2⁶⁴──▸ [-2⁶³, 2⁶³)

A machine integer is the mathematical integer it denotes; an operation is the exact one followed
by the range reduction its machine performs.  Saturation is monotone, so it never disturbs an
order argument; wrapping is exact in range and nothing else.  A floating-point value is read as
the rational it denotes, and a cast of one to an integer truncates toward zero and saturates.
-/

namespace MachineInt

/-! ## Ranges -/

/-- The least signed 64-bit value. -/
def i64Min : ℤ := -9223372036854775808

/-- The greatest signed 64-bit value. -/
def i64Max : ℤ := 9223372036854775807

/-- The greatest unsigned 32-bit value. -/
def u32Max : ℕ := 4294967295

/-- The greatest unsigned 64-bit value. -/
def u64Max : ℕ := 18446744073709551615

/-- A signed 64-bit value. -/
def IsI64 (x : ℤ) : Prop := i64Min ≤ x ∧ x ≤ i64Max

instance : DecidablePred IsI64 := fun _ => inferInstanceAs (Decidable (_ ∧ _))

/-! ## Saturation -/

/-- Signed 64-bit saturation: the nearest representable value. -/
def satI64 (x : ℤ) : ℤ := max i64Min (min i64Max x)

/-- Saturating signed addition. -/
def satAdd (x y : ℤ) : ℤ := satI64 (x + y)

/-- Saturating signed subtraction. -/
def satSub (x y : ℤ) : ℤ := satI64 (x - y)

/-- Saturating signed multiplication. -/
def satMul (x y : ℤ) : ℤ := satI64 (x * y)

/-- The successor of an unsigned 32-bit counter, saturating. -/
def satSuccU32 (n : ℕ) : ℕ := min u32Max (n + 1)

/-- **Saturation is exact in range.** -/
theorem satI64_of_isI64 {x : ℤ} (h : IsI64 x) : satI64 x = x := by
  obtain ⟨hl, hu⟩ := h
  rw [satI64, min_eq_right hu, max_eq_right hl]

theorem isI64_satI64 (x : ℤ) : IsI64 (satI64 x) :=
  ⟨le_max_left _ _, max_le (by decide) (min_le_left _ _)⟩

/-- **Saturation is monotone.** -/
theorem satI64_mono {x y : ℤ} (h : x ≤ y) : satI64 x ≤ satI64 y :=
  max_le_max le_rfl (min_le_min le_rfl h)

theorem satAdd_of_isI64 {x y : ℤ} (h : IsI64 (x + y)) : satAdd x y = x + y := satI64_of_isI64 h

theorem satSub_of_isI64 {x y : ℤ} (h : IsI64 (x - y)) : satSub x y = x - y := satI64_of_isI64 h

theorem isI64_satAdd (x y : ℤ) : IsI64 (satAdd x y) := isI64_satI64 _

/-- Comparing a saturated difference with an in-range bound is comparing the difference. -/
theorem satSub_lt_iff {x y b : ℤ} (hl : i64Min < b) (hu : b ≤ i64Max) :
    satSub x y < b ↔ x - y < b := by
  simp only [satSub, satI64, max_lt_iff, min_lt_iff, hl, true_and]
  exact or_iff_right (not_lt.mpr hu)

/-- A saturated difference clears an in-range bound from above when the difference does. -/
theorem le_satSub_iff {x y b : ℤ} (hl : i64Min < b) (hu : b ≤ i64Max) :
    b ≤ satSub x y ↔ b ≤ x - y := by
  rw [← not_lt, ← not_lt, satSub_lt_iff hl hu]

theorem satSub_mono_left {x y : ℤ} (z : ℤ) (h : x ≤ y) : satSub x z ≤ satSub y z :=
  satI64_mono (by omega)

/-- Saturated elapsed time is never negative when the clock did not run backwards. -/
theorem satSub_nonneg {x y : ℤ} (h : y ≤ x) : 0 ≤ satSub x y :=
  (le_satSub_iff (by decide) (by decide)).mpr (by omega)

/-- **A saturating counter** counts exactly until it is full. -/
theorem iterate_satSuccU32 {x : ℕ} (h : x ≤ u32Max) (n : ℕ) :
    satSuccU32^[n] x = min u32Max (x + n) := by
  induction n with
  | zero => exact (min_eq_right h).symm
  | succ n ih =>
    rw [Function.iterate_succ_apply', ih, satSuccU32]
    omega

/-! ## Wrapping -/

/-- Two's-complement reduction to a signed 64-bit value. -/
def wrapI64 (x : ℤ) : ℤ :=
  (x + 9223372036854775808) % 18446744073709551616 - 9223372036854775808

/-- Wrapping signed subtraction. -/
def wrapSub (x y : ℤ) : ℤ := wrapI64 (x - y)

/-- Reduction to an unsigned 64-bit value. -/
def wrapU64 (x : ℤ) : ℕ := (x % 18446744073709551616).toNat

/-- Reduction to an unsigned 32-bit value. -/
def wrapU32 (n : ℕ) : ℕ := n % 4294967296

/-- The successor of an unsigned 64-bit counter, wrapping. -/
def wrapSuccU64 (n : ℕ) : ℕ := (n + 1) % 18446744073709551616

/-- **Wrapping is exact in range.** -/
theorem wrapI64_of_isI64 {x : ℤ} (h : IsI64 x) : wrapI64 x = x := by
  simp only [IsI64, i64Min, i64Max] at h
  unfold wrapI64
  omega

theorem isI64_wrapI64 (x : ℤ) : IsI64 (wrapI64 x) := by
  unfold IsI64 i64Min i64Max wrapI64
  omega

/-- Two differences wrap alike as soon as they are equal. -/
theorem wrapSub_congr {x y x' y' : ℤ} (h : x - y = x' - y') : wrapSub x y = wrapSub x' y' :=
  congrArg wrapI64 h

/-- **Wrapped differences of representable values vanish only on the diagonal.** -/
theorem wrapSub_eq_zero_iff {x y : ℤ} (hx : IsI64 x) (hy : IsI64 y) :
    wrapSub x y = 0 ↔ x = y := by
  simp only [IsI64, i64Min, i64Max] at hx hy
  unfold wrapSub wrapI64
  omega

/-! ## Rationals -/

/-- Truncation of a rational toward zero. -/
def trunc (q : ℚ) : ℤ := if 0 ≤ q then ⌊q⌋ else ⌈q⌉

/-- A floating-point value cast to a signed 64-bit integer: truncated toward zero, saturated. -/
def castI64 (q : ℚ) : ℤ := satI64 (trunc q)

/-- A floating-point value rounded to the nearest integer, halves away from zero. -/
def roundHalfAway (q : ℚ) : ℤ := if 0 ≤ q then ⌊q + 1 / 2⌋ else ⌈q - 1 / 2⌉

@[simp] theorem trunc_intCast (n : ℤ) : trunc (n : ℚ) = n := by
  unfold trunc
  split <;> simp

/-- **Truncation is monotone** — it rounds down above zero and up below it, and the two meet
at zero. -/
theorem trunc_mono {p q : ℚ} (h : p ≤ q) : trunc p ≤ trunc q := by
  unfold trunc
  split_ifs with hp hq hq
  · exact Int.floor_le_floor h
  · exact absurd (hp.trans h) hq
  · exact (Int.ceil_le.mpr (by simpa using (not_le.mp hp).le)).trans (Int.floor_nonneg.mpr hq)
  · exact Int.ceil_le_ceil h

theorem castI64_mono {p q : ℚ} (h : p ≤ q) : castI64 p ≤ castI64 q := satI64_mono (trunc_mono h)

/-- **A cast stays between the integer bounds its argument respects.** -/
theorem castI64_mem {q : ℚ} {a b : ℤ} (ha : IsI64 a) (hb : IsI64 b) (hl : (a : ℚ) ≤ q)
    (hu : q ≤ b) : a ≤ castI64 q ∧ castI64 q ≤ b := by
  have hcast : ∀ n : ℤ, IsI64 n → castI64 (n : ℚ) = n := fun n hn => by
    rw [castI64, trunc_intCast, satI64_of_isI64 hn]
  constructor
  · calc a = castI64 a := (hcast a ha).symm
      _ ≤ castI64 q := castI64_mono hl
  · calc castI64 q ≤ castI64 b := castI64_mono hu
      _ = b := hcast b hb

theorem roundHalfAway_nonneg {q : ℚ} (h : 0 ≤ q) : 0 ≤ roundHalfAway q := by
  rw [roundHalfAway, if_pos h]
  exact Int.floor_nonneg.mpr (by linarith)

end MachineInt
