import Mathlib.Algebra.Order.Ring.Nat
import Mathlib.Order.Monotone.Basic
import Mathlib.Tactic.Linarith

/-!
# Machinery/Fraction — a fraction of one unit in parts of another

    r / q  ──⌊r b / q⌋──▸  f / b  ──⌊f q / b⌋──▸  r / q or (r - 1) / q        q ≤ b

A remainder below `q` rewritten in parts of `b`.  A finer unit holds it without a carry
(`scale_lt`), keeps two remainders apart and in order (`scale_strictMono`), and gives the remainder
back up to one part (`unscale_scale`).
-/

namespace Fraction

/-- `r` parts of `q`, in parts of `b`. -/
def scale (q b r : ℕ) : ℕ := r * b / q

variable {q b r : ℕ}

/-- A fraction below one unit stays below it. -/
theorem scale_lt (hr : r < q) (hb : 0 < b) : scale q b r < b := by
  rw [scale, Nat.div_lt_iff_lt_mul (by omega), Nat.mul_comm b q]
  exact Nat.mul_lt_mul_of_pos_right hr hb

/-- **A finer unit keeps fractions in order.** -/
theorem scale_strictMono (hq : 0 < q) (h : q ≤ b) : StrictMono (scale q b) := by
  intro r r' hlt
  rw [scale, scale, Nat.div_lt_iff_lt_mul hq]
  have hceil := Nat.lt_div_mul_add hq (a := r' * b)
  have hnext : (r + 1) * b ≤ r' * b := Nat.mul_le_mul_right b hlt
  rw [Nat.add_mul, Nat.one_mul] at hnext
  omega

/-- **A finer unit gives the fraction back**, or one part less. -/
theorem unscale_scale (hq : 0 < q) (h : q ≤ b) :
    scale b q (scale q b r) = r ∨ scale b q (scale q b r) + 1 = r := by
  have hfloor : r * b / q * q ≤ r * b := Nat.div_mul_le_self _ _
  have hceil : r * b < r * b / q * q + q := Nat.lt_div_mul_add hq
  have hle : scale b q (scale q b r) ≤ r := by
    rw [scale, scale]
    exact Nat.div_le_of_le_mul (by rw [Nat.mul_comm b r]; exact hfloor)
  have hge : r ≤ scale b q (scale q b r) + 1 := by
    rw [scale, scale, ← Nat.add_div_right _ (by omega : 0 < b), Nat.le_div_iff_mul_le (by omega)]
    omega
  omega

end Fraction
