import GpsNtp.Machinery.MachineInt

/-!
# Sdlog/Queue — the lines waiting for the card

    enqueue ──▸ │ line │ line │ ⋯ ──drain──▸        full: dropped + 1

The queue under the mutex of the logger: bounded in bytes, a line that does not fit is refused and
counted, and draining takes the lines together with the count.
-/

namespace GpsNtp.Sdlog

open MachineInt

/-- A formatted log record. -/
abbrev Line := List UInt8

/-- Upper bound on queued text. -/
def QUEUE_MAX_BYTES : ℕ := 16 * 1024

structure Queue where
  lines : List Line
  bytes : ℕ
  /-- Lines refused since the last time the queue was drained. -/
  dropped : ℕ
deriving DecidableEq

namespace Queue

/-- The queue of `SdLogger::new`. -/
def new : Queue := { lines := [], bytes := 0, dropped := 0 }

/-- `SdLogger::enqueue`. -/
def enqueue (q : Queue) (line : Line) : Queue :=
  if q.bytes + line.length > QUEUE_MAX_BYTES then { q with dropped := satSuccU32 q.dropped }
  else { q with bytes := q.bytes + line.length, lines := q.lines ++ [line] }

/-- `SdLogger::drain`: the queue it leaves, the lines and the count. -/
def drain (q : Queue) : Queue × List Line × ℕ :=
  ({ lines := [], bytes := 0, dropped := 0 }, q.lines, q.dropped)

/-- **A line is queued or counted.** -/
theorem enqueue_cases (q : Queue) (line : Line) :
    ((q.enqueue line).lines = q.lines ++ [line] ∧ (q.enqueue line).dropped = q.dropped) ∨
      ((q.enqueue line).lines = q.lines ∧ (q.enqueue line).dropped = satSuccU32 q.dropped) := by
  rw [enqueue]
  split_ifs with hfull
  · exact .inr ⟨rfl, rfl⟩
  · exact .inl ⟨rfl, rfl⟩

end Queue

end GpsNtp.Sdlog
