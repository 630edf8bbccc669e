import Mathlib.Data.List.Basic
import Mathlib.Logic.Function.Basic

/-!
# Machinery/Parity — a fold in which every element counts

    e ─x₀→ · ─x₁→ · ⋯ ─xᵢ→ · ⋯ ─xₙ₋₁→ r        another xᵢ, another r

Where an operation can be cancelled on both sides, the fold of a list determines each element from
the others: no change of a single one goes unnoticed (`foldl_set_ne`).
-/

namespace Parity

variable {α β : Type*} {op : β → α → β}

theorem foldl_injective (hright : ∀ x, Function.Injective fun r => op r x) (xs : List α) :
    Function.Injective fun r => xs.foldl op r := by
  induction xs with
  | nil => exact Function.injective_id
  | cons x xs ih => exact ih.comp (hright x)

/-- **Another element, another result.** -/
theorem foldl_set_ne (hleft : ∀ r, Function.Injective (op r))
    (hright : ∀ x, Function.Injective fun r => op r x) {xs : List α} {i : ℕ} {x y : α}
    (hx : xs[i]? = some x) (hne : y ≠ x) (r : β) :
    (xs.set i y).foldl op r ≠ xs.foldl op r := by
  induction xs generalizing i r with
  | nil => exact absurd hx nofun
  | cons x' xs ih =>
    cases i with
    | zero =>
      obtain rfl := Option.some.inj hx
      exact fun heq => hne (hleft r (foldl_injective hright xs heq))
    | succ i => exact ih hx (op r x')

end Parity
