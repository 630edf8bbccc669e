import Mathlib.Algebra.Order.Field.Basic
import Mathlib.Tactic.Linarith
import Mathlib.Tactic.Ring

/-!
# Machinery/Ewma — exponentially weighted averages

    x ──sample c──▸ x + (c - x) k          x - c  shrinks to  (1 - k) (x - c)

An estimate that each sample draws towards itself by a fraction `k`.  Under one sample repeated the
distance to it shrinks geometrically (`foldl_blend_replicate`); whatever the samples, an interval
that holds the estimate and all of them is not left (`foldl_blend_mem`), so nothing overshoots.
-/

namespace Ewma

variable {𝕜 : Type*} [Field 𝕜]

/-- The estimate `x` after one sample of weight `k`. -/
def blend (k x sample : 𝕜) : 𝕜 := x + (sample - x) * k

/-- One sample shrinks the distance to it. -/
theorem blend_sub (k x sample : 𝕜) : blend k x sample - sample = (1 - k) * (x - sample) := by
  rw [blend]
  ring

/-- **Geometric convergence** under a constant sample. -/
theorem foldl_blend_replicate (k x sample : 𝕜) (n : ℕ) :
    (List.replicate n sample).foldl (blend k) x = sample + (1 - k) ^ n * (x - sample) := by
  induction n generalizing x with
  | zero => rw [List.replicate_zero, List.foldl_nil, pow_zero]; ring
  | succ n ih => rw [List.replicate_succ, List.foldl_cons, ih, blend_sub, pow_succ, mul_assoc]

variable [LinearOrder 𝕜] [IsStrictOrderedRing 𝕜] {k a b x : 𝕜}

/-- An estimate between two bounds and a sample between them: so is the blend. -/
theorem blend_mem {sample : 𝕜} (hk : 0 ≤ k ∧ k ≤ 1) (hx : a ≤ x ∧ x ≤ b)
    (hsample : a ≤ sample ∧ sample ≤ b) : a ≤ blend k x sample ∧ blend k x sample ≤ b := by
  have hweights : blend k x sample = (1 - k) * x + k * sample := by
    rw [blend]
    ring
  have hrest : 0 ≤ 1 - k := sub_nonneg.mpr hk.2
  rw [hweights]
  constructor
  · calc a = (1 - k) * a + k * a := by ring
      _ ≤ (1 - k) * x + k * sample := add_le_add (mul_le_mul_of_nonneg_left hx.1 hrest)
          (mul_le_mul_of_nonneg_left hsample.1 hk.1)
  · calc (1 - k) * x + k * sample ≤ (1 - k) * b + k * b :=
          add_le_add (mul_le_mul_of_nonneg_left hx.2 hrest)
            (mul_le_mul_of_nonneg_left hsample.2 hk.1)
      _ = b := by ring

/-- **No overshoot**: the estimate stays between bounds that hold it and every sample. -/
theorem foldl_blend_mem (hk : 0 ≤ k ∧ k ≤ 1) (hx : a ≤ x ∧ x ≤ b) {samples : List 𝕜}
    (hsamples : ∀ sample ∈ samples, a ≤ sample ∧ sample ≤ b) :
    a ≤ samples.foldl (blend k) x ∧ samples.foldl (blend k) x ≤ b := by
  induction samples generalizing x with
  | nil => exact hx
  | cons sample samples ih =>
    exact ih (blend_mem hk hx (hsamples sample List.mem_cons_self))
      fun later hlater => hsamples later (List.mem_cons_of_mem _ hlater)

end Ewma
