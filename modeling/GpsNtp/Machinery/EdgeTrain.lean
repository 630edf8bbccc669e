import Mathlib.Algebra.Order.Group.Unbundled.Abs
import Mathlib.Data.Int.Basic
import Mathlib.Tactic.Linarith
import Mathlib.Tactic.Ring

/-!
# Machinery/EdgeTrain — a periodic signal with a bounded period error

    e₀      e₁      e₂      e₃          |eₖ₊₁ - eₖ - P| ≤ δ
    ├───────┼──╵────┼───────┤
               t                        ⌊(eₖ - t) / P⌋ = k - n - 1   for t well inside [eₙ, eₙ₊₁]

Edges drift off the nominal period by at most `δ` each, so over a few of them an edge is still
found by division (`index_of_instant`) and a count of periods by rounding (`nearest_period`).
-/

/-- A train of edges of period `P`, each one off by `δ` at most. -/
structure EdgeTrain (P δ : ℤ) where
  edge : ℕ → ℤ
  spacing : ∀ k, |edge (k + 1) - edge k - P| ≤ δ

namespace EdgeTrain

variable {P δ : ℤ} (train : EdgeTrain P δ)

/-- **Drift adds up**: `d` edges on, a train is off by `d * δ` at most. -/
theorem abs_drift_le (k d : ℕ) : |train.edge (k + d) - train.edge k - d * P| ≤ d * δ := by
  induction d with
  | zero => simp
  | succ d ih =>
    have hstep := train.spacing (k + d)
    have hsplit : train.edge (k + (d + 1)) - train.edge k - (d + 1 : ℕ) * P =
        (train.edge (k + d + 1) - train.edge (k + d) - P) +
          (train.edge (k + d) - train.edge k - d * P) := by
      push_cast [← Nat.add_assoc]
      ring
    calc |train.edge (k + (d + 1)) - train.edge k - (d + 1 : ℕ) * P|
        ≤ |train.edge (k + d + 1) - train.edge (k + d) - P| +
            |train.edge (k + d) - train.edge k - d * P| := hsplit ▸ abs_add_le _ _
      _ ≤ δ + d * δ := add_le_add hstep ih
      _ = (d + 1 : ℕ) * δ := by push_cast; ring

/-- The bounds of the drift, one by one. -/
theorem drift_bounds {j k : ℕ} (h : j ≤ k) :
    (k - j : ℤ) * (P - δ) ≤ train.edge k - train.edge j ∧
      train.edge k - train.edge j ≤ (k - j : ℤ) * (P + δ) := by
  obtain ⟨d, rfl⟩ := Nat.exists_eq_add_of_le h
  obtain ⟨hl, hu⟩ := abs_le.mp (train.abs_drift_le j d)
  push_cast
  constructor <;> linarith

/-- **The edge of an instant.**  From an instant at least `margin` inside the `n`-th period, edge
`k` is `k - n - 1` whole periods away, as long as the drift between them stays within `margin`. -/
theorem index_of_instant {margin t : ℤ} {n k : ℕ} (hl : train.edge n + margin ≤ t)
    (hu : t ≤ train.edge (n + 1) - margin) (hnear : (|(k : ℤ) - n| + 1) * δ < margin) :
    (train.edge k - t) / P = k - n - 1 := by
  have hδ : 0 ≤ δ := (abs_nonneg _).trans (train.spacing 0)
  have hbounds : ((k : ℤ) - n - 1) * P ≤ train.edge k - t ∧
      train.edge k - t < ((k : ℤ) - n - 1) * P + P := by
    rcases le_or_gt k n with hkn | hnk
    · -- the edge precedes the instant
      rw [abs_of_nonpos (by omega)] at hnear
      obtain ⟨hback, -⟩ := train.drift_bounds hkn
      obtain ⟨-, hahead⟩ := train.drift_bounds (hkn.trans (Nat.le_succ n))
      push_cast at hahead
      constructor <;> linarith
    · rw [abs_of_nonneg (by omega)] at hnear
      obtain ⟨hback, -⟩ := train.drift_bounds (Nat.succ_le_of_lt hnk)
      obtain ⟨-, hahead⟩ := train.drift_bounds hnk.le
      push_cast at hback
      constructor <;> linarith
  have hP : 0 < P := by linarith [hbounds.1.trans_lt hbounds.2]
  refine le_antisymm (Int.le_of_lt_add_one ?_) ?_
  · exact Int.ediv_lt_of_lt_mul hP (by linarith [hbounds.2])
  · exact Int.le_ediv_of_mul_le hP hbounds.1

/-- **Rounding finds a count of periods** that an elapsed time is less than half a period off. -/
theorem nearest_period {P x d : ℤ} (hl : d * P - P / 2 ≤ x) (hu : x < d * P + (P - P / 2))
    (hP : 0 < P) : (x + P / 2) / P = d := by
  refine le_antisymm (Int.le_of_lt_add_one ?_) ?_
  · exact Int.ediv_lt_of_lt_mul hP (by linarith)
  · exact Int.le_ediv_of_mul_le hP (by linarith)

end EdgeTrain
