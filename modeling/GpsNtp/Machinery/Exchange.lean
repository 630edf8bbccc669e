import Mathlib.Algebra.Order.Field.Basic
import Mathlib.Tactic.Linarith

/-!
# Machinery/Exchange — what an exchange of time stamps tells

    client   t₁ ────────┐              ┌────────▸ t₄
    server              └▸ t₂ ──── t₃ ─┘
    truth    sent    receive   transmit    received

Two clocks stamp a request and its answer as each leaves and arrives.  The client reads off the four
stamps how far the server's clock is ahead of its own and how long the network took.  Nothing is
known of how the network divides its time between the two ways, and so half of it is in doubt.
-/

namespace Exchange

variable {K : Type*} [Field K]

/-- How far the server is ahead. -/
def offset (t₁ t₂ t₃ t₄ : K) : K := ((t₂ - t₁) + (t₃ - t₄)) / 2

/-- How long the request and the answer were under way. -/
def delay (t₁ t₂ t₃ t₄ : K) : K := (t₄ - t₁) - (t₃ - t₂)

variable [LinearOrder K] [IsStrictOrderedRing K]

/-- **The stamps are true** up to `ε` at the server and, at the client, up to an error `θ` that does
not change meanwhile. -/
structure Stamped (θ ε t₁ t₂ t₃ t₄ sent receive transmit received : K) : Prop where
  sends : t₁ = sent + θ
  receives : |t₂ - receive| ≤ ε
  transmits : |t₃ - transmit| ≤ ε
  ends : t₄ = received + θ
  forward : sent ≤ receive
  backward : transmit ≤ received

variable {θ ε t₁ t₂ t₃ t₄ sent receive transmit received : K}

/-- Stamps that are nearly those of another exchange. -/
theorem Stamped.near (h : Stamped θ ε t₁ t₂ t₃ t₄ sent receive transmit received) {δ t₂' t₃' : K}
    (h₂ : |t₂' - t₂| ≤ δ) (h₃ : |t₃' - t₃| ≤ δ) :
    Stamped θ (ε + δ) t₁ t₂' t₃' t₄ sent receive transmit received where
  sends := h.sends
  receives := by
    have hreceives := abs_le.mp h.receives
    rw [abs_le] at h₂ ⊢
    exact ⟨by linarith, by linarith⟩
  transmits := by
    have htransmits := abs_le.mp h.transmits
    rw [abs_le] at h₃ ⊢
    exact ⟨by linarith, by linarith⟩
  ends := h.ends
  forward := h.forward
  backward := h.backward

/-- **The offset rule** — the offset is the client's error, but for that of the server and half the
time in the network. -/
theorem Stamped.offset (h : Stamped θ ε t₁ t₂ t₃ t₄ sent receive transmit received) :
    |offset t₁ t₂ t₃ t₄ + θ| ≤ ε + ((receive - sent) + (received - transmit)) / 2 := by
  have hreceives := abs_le.mp h.receives
  have htransmits := abs_le.mp h.transmits
  have hforward := h.forward
  have hbackward := h.backward
  rw [Exchange.offset, h.sends, h.ends, abs_le]
  constructor <;> linarith

/-- **The delay rule** — the delay is the time in the network, but for twice the server's error. -/
theorem Stamped.delay (h : Stamped θ ε t₁ t₂ t₃ t₄ sent receive transmit received) :
    |delay t₁ t₂ t₃ t₄ - ((receive - sent) + (received - transmit))| ≤ 2 * ε := by
  have hreceives := abs_le.mp h.receives
  have htransmits := abs_le.mp h.transmits
  rw [Exchange.delay, h.sends, h.ends, abs_le]
  constructor <;> linarith

end Exchange
