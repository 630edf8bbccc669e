import Mathlib.Logic.Function.Iterate

/-!
# Machinery/LeadsTo — what one thread gets to by itself

    s ──▸ next s ──▸ next (next s) ──▸ ⋯ ──▸ P

A thread that is left to run **leads to** a property if some number of its own steps gets there.
The steps compose (`Leads.trans`), and a property in which a measure can be brought down leads to
one in which it is zero (`leads_of_measure`).
-/

namespace Machine

variable {σ : Type*} {next : σ → σ} {P Q : σ → Prop} {s : σ}

/-- Some number of steps from `s` gets to `P`. -/
def Leads (next : σ → σ) (P : σ → Prop) (s : σ) : Prop := ∃ n, P (next^[n] s)

theorem Leads.now (h : P s) : Leads next P s := ⟨0, h⟩

theorem Leads.of_next (h : Leads next P (next s)) : Leads next P s := by
  obtain ⟨n, hn⟩ := h
  exact ⟨n + 1, hn⟩

theorem Leads.trans (h : Leads next P s) (hPQ : ∀ s', P s' → Leads next Q s') :
    Leads next Q s := by
  obtain ⟨n, hn⟩ := h
  obtain ⟨m, hm⟩ := hPQ _ hn
  refine ⟨m + n, ?_⟩
  rwa [Function.iterate_add_apply]

theorem Leads.mono (h : Leads next P s) (hPQ : ∀ s', P s' → Q s') : Leads next Q s :=
  h.trans fun s' hs' => .now (hPQ s' hs')

/-- **The descent rule** — where a measure can always be brought down, it can be brought to zero. -/
theorem leads_of_measure (m : σ → ℕ)
    (hdown : ∀ s, P s → m s ≠ 0 → Leads next (fun s' => P s' ∧ m s' < m s) s) (h : P s) :
    Leads next (fun s' => P s' ∧ m s' = 0) s := by
  induction hm : m s using Nat.strongRecOn generalizing s with
  | ind k ih =>
    by_cases hzero : m s = 0
    · exact .now ⟨h, hzero⟩
    · refine (hdown s h hzero).trans fun s' hs' => ?_
      exact ih (m s') (hm ▸ hs'.2) hs'.1 rfl

end Machine
