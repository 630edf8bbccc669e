import Mathlib.Data.Nat.Bitwise
import Mathlib.Order.Basic

/-!
# Machinery/TopBits — words that agree above a bit

    x  ┌── top bits ──┬── k ──┐        mask  1 ⋯ 1 │ 0 ⋯ 0
       └──────────────┴───────┘

The words that agree with a given one under a mask of its top bits are the numbers of one aligned
block (`and_topMask_eq_iff`, `div_eq_div_iff_mem`).
-/

namespace TopBits

variable {w : ℕ}

/-- The mask of all bits from `k` on. -/
def topMask (w k : ℕ) : BitVec w := ~~~((1#w <<< k) - 1#w)

theorem getLsbD_topMask {k i : ℕ} (hk : k < w) (hi : i < w) :
    (topMask w k).getLsbD i = decide (k ≤ i) := by
  have hlow : ((1#w <<< k) - 1#w).toNat = 2 ^ k - 1 := by
    have hpow : 2 ^ k < 2 ^ w := Nat.pow_lt_pow_right (by decide) hk
    have hpos : 0 < 2 ^ k := Nat.two_pow_pos k
    have hone : (1#w).toNat = 1 := by
      rw [BitVec.toNat_ofNat]
      exact Nat.mod_eq_of_lt (Nat.one_lt_two_pow (by omega))
    rw [BitVec.toNat_sub, BitVec.toNat_shiftLeft, hone, Nat.shiftLeft_eq, Nat.one_mul,
      Nat.mod_eq_of_lt hpow]
    rw [show 2 ^ w - 1 + 2 ^ k = 2 ^ k - 1 + 2 ^ w by omega, Nat.add_mod_right,
      Nat.mod_eq_of_lt (by omega)]
  rw [topMask, BitVec.getLsbD_not, BitVec.getLsbD, hlow, Nat.testBit_two_pow_sub_one]
  rw [decide_eq_true hi, Bool.true_and, ← decide_not]
  exact decide_eq_decide.mpr not_lt

/-- **Agreement under the mask** is agreement of the numbers above the bit. -/
theorem and_topMask_eq_iff {k : ℕ} (hk : k < w) (x y : BitVec w) :
    x &&& topMask w k = y &&& topMask w k ↔ x.toNat / 2 ^ k = y.toNat / 2 ^ k := by
  constructor
  · intro h
    refine Nat.eq_of_testBit_eq fun i => ?_
    rw [Nat.testBit_div_two_pow, Nat.testBit_div_two_pow]
    rcases lt_or_ge (i + k) w with hi | hi
    · have hbit := congrArg (fun z => z.getLsbD (i + k)) h
      simp only [BitVec.getLsbD_and, getLsbD_topMask hk hi, decide_eq_true (Nat.le_add_left k i),
        Bool.and_true] at hbit
      exact hbit
    · have hx : x.getLsbD (i + k) = false := BitVec.getLsbD_of_ge x _ hi
      exact hx.trans (BitVec.getLsbD_of_ge y _ hi).symm
  · intro h
    refine BitVec.eq_of_getLsbD_eq fun i hi => ?_
    rw [BitVec.getLsbD_and, BitVec.getLsbD_and, getLsbD_topMask hk hi]
    rcases lt_or_ge i k with hlow | hhigh
    · rw [decide_eq_false (by omega), Bool.and_false, Bool.and_false]
    · have hbit := congrArg (fun n => n.testBit (i - k)) h
      simp only [Nat.testBit_div_two_pow, Nat.sub_add_cancel hhigh] at hbit
      exact congrArg (· && _) hbit

/-- The numbers of the aligned block of `2 ^ k` that `n` lies in. -/
theorem div_eq_div_iff_mem {x n k : ℕ} :
    x / 2 ^ k = n / 2 ^ k ↔ n / 2 ^ k * 2 ^ k ≤ x ∧ x < n / 2 ^ k * 2 ^ k + 2 ^ k := by
  have hpos : 0 < 2 ^ k := Nat.two_pow_pos k
  rw [Nat.div_eq_iff hpos]
  omega

end TopBits
