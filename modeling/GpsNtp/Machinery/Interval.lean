import GpsNtp.Machinery.Run
import Mathlib.Data.List.Chain
import Mathlib.Tactic.Linarith

/-!
# Machinery/Interval — what fires at most once in an interval

    now ──────┬───────────────┬──────────────────┬──────▸
              fires           fires              fires
              └── interval ──▸└─── interval ─────▸

A machine keeps the time of the last firing, with zero for none, and fires again when an interval
has passed since; the interval may be another one each time.  A **timer** says what one step does of
this, and then the firings of a run are spaced (`Timer.spaced`), and the time that passes bounds
their number (`Timer.length_le`).
-/

namespace Machine

variable {σ ε β : Type*} {step : σ → ε → σ} {fired : σ → ε → Option (ℤ × β)} {interval : β → ℤ}
  {last now : σ → ℤ}

/-- The second of two firings keeps the interval that was in force at it. -/
def Spaced (interval : β → ℤ) (a b : ℤ × β) : Prop := a.1 + interval b.2 ≤ b.1

/-- What a step of a timer does: it fires when the interval is over, or for the first time, and then
remembers when; or it leaves the last firing as it is. -/
inductive Timed (interval : β → ℤ) (lastUs nowUs lastUs' nowUs' : ℤ) : Option (ℤ × β) → Prop
  | fires {a : ℤ × β} (due : lastUs = 0 ∨ interval a.2 ≤ a.1 - lastUs) (remembers : lastUs' = a.1)
      (after : nowUs ≤ a.1) (before : a.1 ≤ nowUs') :
      Timed interval lastUs nowUs lastUs' nowUs' (some a)
  | waits (keeps : lastUs' = lastUs) (monotone : nowUs ≤ nowUs') :
      Timed interval lastUs nowUs lastUs' nowUs' none

/-- Every step does what a timer does. -/
def Timer (step : σ → ε → σ) (fired : σ → ε → Option (ℤ × β)) (interval : β → ℤ)
    (last now : σ → ℤ) : Prop :=
  ∀ s e, Timed interval (last s) (now s) (last (step s e)) (now (step s e)) (fired s e)

/-- The firings so far are spaced, and the last one is remembered. -/
structure Fired (interval : β → ℤ) (startUs : ℤ) (firings : List (ℤ × β)) (last now : ℤ) :
    Prop where
  chain : firings.IsChain (Spaced interval)
  recent : (firings = [] ∧ last = 0) ∨ ∃ b, firings.getLast? = some (last, b)
  since : ∀ a ∈ firings, startUs ≤ a.1
  started : startUs ≤ now
  past : last ≤ now

namespace Fired

variable {startUs lastUs nowUs : ℤ} {firings : List (ℤ × β)}

theorem later (h : Fired interval startUs firings lastUs nowUs) {nowUs' : ℤ}
    (hnow : nowUs ≤ nowUs') : Fired interval startUs firings lastUs nowUs' :=
  ⟨h.chain, h.recent, h.since, h.started.trans hnow, h.past.trans hnow⟩

theorem snoc (h : Fired interval startUs firings lastUs nowUs) (hstart : 0 < startUs) {a : ℤ × β}
    (hdue : lastUs = 0 ∨ interval a.2 ≤ a.1 - lastUs) (hafter : nowUs ≤ a.1) :
    Fired interval startUs (firings ++ [a]) a.1 a.1 where
  chain := by
    refine List.isChain_append.mpr ⟨h.chain, .singleton _, ?_⟩
    intro c hc b hb
    obtain rfl : a = b := Option.some.inj hb
    rcases h.recent with ⟨hnil, -⟩ | ⟨b, hb⟩
    · rw [hnil] at hc
      cases hc
    · obtain rfl : c = (lastUs, b) := Option.some.inj (hc.symm.trans hb)
      -- a firing after the start is not taken for none at all
      have hpos : startUs ≤ lastUs := h.since _ (List.mem_of_getLast? hb)
      have hinterval := hdue.resolve_left (by omega)
      show lastUs + interval a.2 ≤ a.1
      omega
  recent := .inr ⟨a.2, by rw [List.getLast?_append, List.getLast?_singleton, Option.some_or]⟩
  since := by
    intro c hc
    rcases List.mem_append.mp hc with hc | hc
    · exact h.since c hc
    · rw [List.mem_singleton.mp hc]
      exact h.started.trans hafter
  started := h.started.trans hafter
  past := le_rfl

/-- Firings that keep their distance need the time for it. -/
theorem length_le_of_chain {d : ℤ} (hd : ∀ b, d ≤ interval b)
    (hchain : firings.IsChain (Spaced interval)) (hsince : ∀ a ∈ firings, startUs ≤ a.1) {a : ℤ × β}
    (hlast : firings.getLast? = some a) : startUs + (firings.length - 1) * d ≤ a.1 := by
  induction firings using List.reverseRecOn generalizing a with
  | nil => cases hlast
  | append_singleton firings b ih =>
    obtain rfl : b = a := by simpa using hlast
    obtain ⟨hfirings, -, hspaced⟩ := List.isChain_append.mp hchain
    rw [List.length_append, List.length_singleton]
    rcases hprev : firings.getLast? with _ | c
    · rw [List.getLast?_eq_none_iff.mp hprev]
      simpa using hsince b (by simp)
    · have hc := ih hfirings (fun a ha => hsince a (List.mem_append_left _ ha)) hprev
      have hcb : c.1 + interval b.2 ≤ b.1 := hspaced c hprev b rfl
      have hinterval := hd b.2
      push_cast
      linarith

/-- The time bounds the number of firings. -/
theorem length_le (h : Fired interval startUs firings lastUs nowUs) {d : ℤ} (hd : 0 < d)
    (hinterval : ∀ b, d ≤ interval b) : (firings.length : ℤ) ≤ (nowUs - startUs) / d + 1 := by
  have hstarted := h.started
  rcases h.recent with ⟨hnil, -⟩ | ⟨b, hb⟩
  · rw [hnil]
    have := Int.ediv_nonneg (sub_nonneg.mpr hstarted) hd.le
    simp only [List.length_nil, Nat.cast_zero]
    omega
  · have hlength := length_le_of_chain hinterval h.chain h.since hb
    have hpast := h.past
    rw [← sub_le_iff_le_add, Int.le_ediv_iff_mul_le hd]
    linarith

end Fired

namespace Timer

variable (htimer : Timer step fired interval last now) {s : σ} (hlast : last s = 0)
  (hnow : 0 < now s)

include htimer hlast hnow

theorem fired_run (evs : List ε) :
    Fired interval (now s) (collected step fired s evs) (last (run step s evs))
      (now (run step s evs)) := by
  induction evs using List.reverseRecOn with
  | nil => exact ⟨.nil, .inl ⟨rfl, hlast⟩, nofun, le_rfl, by rw [run_nil, hlast]; exact hnow.le⟩
  | append_singleton evs e ih =>
    rw [collected_append, run_append, run_cons, run_nil, collected, collected, List.append_nil]
    have hstep := htimer (run step s evs) e
    generalize fired (run step s evs) e = firing at hstep ⊢
    cases hstep with
    | waits hkeeps hmonotone =>
      rw [Option.toList_none, List.append_nil, hkeeps]
      exact ih.later hmonotone
    | fires hdue hremembers hafter hbefore =>
      rw [Option.toList_some, hremembers]
      exact (ih.snoc hnow hdue hafter).later hbefore

/-- **The timer rule** — the firings of a run keep their intervals. -/
theorem spaced (evs : List ε) : (collected step fired s evs).IsChain (Spaced interval) :=
  (htimer.fired_run hlast hnow evs).chain

/-- **The bound on a timer** — a run fires once, and once more for every interval it lasts. -/
theorem length_le {d : ℤ} (hd : 0 < d) (hinterval : ∀ b, d ≤ interval b) (evs : List ε) :
    ((collected step fired s evs).length : ℤ) ≤ (now (run step s evs) - now s) / d + 1 :=
  (htimer.fired_run hlast hnow evs).length_le hd hinterval

end Timer

end Machine
