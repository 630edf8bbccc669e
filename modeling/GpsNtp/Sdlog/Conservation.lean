import GpsNtp.Machinery.Run
import GpsNtp.Sdlog.Queue
import Mathlib.Algebra.Group.Nat.Defs
import Mathlib.Data.List.Nodup

/-!
# Sdlog/Conservation — the queue loses no line uncounted

    enqueued   │ l₁ l₂ ✗ l₃ │ ✗ ✗ l₄ │ l₅ ✗
    drained    │ l₁ l₂ l₃   │ l₄     │            queued  l₅
    reported   │ 1          │ 2      │            dropped 1

The calls on the queue, in the order the mutex lets them in.  What a drain takes and what is left in
the queue are the lines enqueued less the refused ones, and these are reported or still counted.
-/

namespace GpsNtp.Sdlog

open Machine MachineInt

/-! ## Calls -/

/-- A call under the mutex of the queue. -/
inductive Call where
  | enqueue (line : Line)
  | drain
deriving DecidableEq

/-- A call, and what a drain returns. -/
def Queue.call (q : Queue) : Call → Queue × Option (List Line × ℕ)
  | .enqueue line => (q.enqueue line, none)
  | .drain => (q.drain.1, some q.drain.2)

/-- The lines enqueued. -/
def enqueuedLines (calls : List Call) : List Line :=
  calls.filterMap fun
    | .enqueue line => some line
    | .drain => none

/-- The lines of all batches, in the order they were drained. -/
def drainedLines (calls : List Call) : List Line :=
  (transcript Queue.call Queue.new calls).flatMap fun p => (p.2.map Prod.fst).getD []

/-- The counts that the drains returned, added up. -/
def reportedDrops (calls : List Call) : ℕ :=
  ((transcript Queue.call Queue.new calls).map fun p => (p.2.map Prod.snd).getD 0).sum

/-- **The ledger of the queue** after some calls. -/
structure Conserved (calls : List Call) (q : Queue) : Prop where
  bytes : q.bytes = (q.lines.map List.length).sum
  bound : q.bytes ≤ QUEUE_MAX_BYTES
  order : (drainedLines calls ++ q.lines).Sublist (enqueuedLines calls)
  once : (enqueuedLines calls).Nodup → (drainedLines calls ++ q.lines).Nodup
  missing : (enqueuedLines calls).length =
    (drainedLines calls ++ q.lines).length + (reportedDrops calls + q.dropped)

/-! ## One more call -/

theorem enqueuedLines_append_enqueue (calls : List Call) (line : Line) :
    enqueuedLines (calls ++ [.enqueue line]) = enqueuedLines calls ++ [line] :=
  List.filterMap_append

theorem enqueuedLines_append_drain (calls : List Call) :
    enqueuedLines (calls ++ [.drain]) = enqueuedLines calls :=
  List.filterMap_append.trans (List.append_nil _)

theorem drainedLines_append_enqueue (calls : List Call) (line : Line) :
    drainedLines (calls ++ [.enqueue line]) = drainedLines calls := by
  rw [drainedLines, transcript_append, List.flatMap_append]
  exact List.append_nil _

theorem drainedLines_append_drain (calls : List Call) :
    drainedLines (calls ++ [.drain]) =
      drainedLines calls ++ (exec Queue.call Queue.new calls).lines := by
  rw [drainedLines, transcript_append, List.flatMap_append]
  exact congrArg _ (List.append_nil _)

theorem reportedDrops_append_enqueue (calls : List Call) (line : Line) :
    reportedDrops (calls ++ [.enqueue line]) = reportedDrops calls := by
  rw [reportedDrops, transcript_append, List.map_append, List.sum_append]
  rfl

theorem reportedDrops_append_drain (calls : List Call) :
    reportedDrops (calls ++ [.drain]) =
      reportedDrops calls + (exec Queue.call Queue.new calls).dropped := by
  rw [reportedDrops, transcript_append, List.map_append, List.sum_append]
  rfl

/-! ## The ledger stays balanced -/

section

variable {calls : List Call}

/-- A line is queued or counted, as long as the count is not full. -/
theorem Conserved.enqueue (h : Conserved calls (exec Queue.call Queue.new calls)) (line : Line)
    (hlines : (enqueuedLines calls).length < u32Max) :
    Conserved (calls ++ [.enqueue line])
      (exec Queue.call Queue.new (calls ++ [.enqueue line])) := by
  have hmissing := h.missing
  have henqueued := enqueuedLines_append_enqueue calls line
  have hdrained := drainedLines_append_enqueue calls line
  have hreported := reportedDrops_append_enqueue calls line
  rw [exec_append]
  generalize exec Queue.call Queue.new calls = q at h hmissing ⊢
  change Conserved _ (q.enqueue line)
  rw [Queue.enqueue]
  split_ifs with hfull
  · have hdropped : satSuccU32 q.dropped = q.dropped + 1 := min_eq_right (by omega)
    have horder : (drainedLines (calls ++ [.enqueue line]) ++ q.lines).Sublist
        (enqueuedLines (calls ++ [.enqueue line])) := by
      rw [hdrained, henqueued]
      exact h.order.trans (List.sublist_append_left _ _)
    refine ⟨h.bytes, h.bound, horder, horder.nodup, ?_⟩
    rw [hdrained, henqueued, hreported, hdropped, List.length_append, List.length_singleton]
    dsimp only
    omega
  · have horder : (drainedLines (calls ++ [.enqueue line]) ++ (q.lines ++ [line])).Sublist
        (enqueuedLines (calls ++ [.enqueue line])) := by
      rw [hdrained, henqueued, ← List.append_assoc]
      exact h.order.append (List.Sublist.refl _)
    refine ⟨?_, Nat.le_of_not_lt hfull, horder, horder.nodup, ?_⟩
    · simp only [h.bytes, List.map_append, List.sum_append, List.map_singleton, List.sum_singleton]
    · rw [hdrained, henqueued, hreported, ← List.append_assoc, List.length_append,
        @List.length_append _ (drainedLines calls ++ q.lines), List.length_singleton]
      dsimp only
      omega

/-- A drain moves the queue into the batches and the count into the reports. -/
theorem Conserved.drain (h : Conserved calls (exec Queue.call Queue.new calls)) :
    Conserved (calls ++ [.drain]) (exec Queue.call Queue.new (calls ++ [.drain])) := by
  have hmissing := h.missing
  have hnew : exec Queue.call Queue.new (calls ++ [.drain]) = Queue.new := exec_append _ _ _ _
  have hlines : drainedLines (calls ++ [.drain]) ++ Queue.new.lines =
      drainedLines calls ++ (exec Queue.call Queue.new calls).lines :=
    (List.append_nil _).trans (drainedLines_append_drain calls)
  have horder : (drainedLines (calls ++ [.drain]) ++ Queue.new.lines).Sublist
      (enqueuedLines (calls ++ [.drain])) := by
    rw [hlines, enqueuedLines_append_drain]
    exact h.order
  rw [hnew]
  refine ⟨rfl, Nat.zero_le _, horder, horder.nodup, ?_⟩
  rw [hlines, enqueuedLines_append_drain, reportedDrops_append_drain, hmissing]
  rfl

end

/-- **The queue conserves its lines**, in any order of the calls. -/
theorem queue_conserved (calls : List Call) (hlines : (enqueuedLines calls).length < 2 ^ 32) :
    Conserved calls (exec Queue.call Queue.new calls) := by
  induction calls using List.reverseRecOn with
  | nil => exact ⟨rfl, by decide, List.Sublist.refl _, fun h => h, rfl⟩
  | append_singleton calls c ih =>
    cases c with
    | enqueue line =>
      rw [enqueuedLines_append_enqueue, List.length_append, List.length_singleton] at hlines
      exact (ih (by omega)).enqueue line (Nat.lt_of_succ_lt_succ hlines)
    | drain =>
      rw [enqueuedLines_append_drain] at hlines
      exact (ih hlines).drain

/-- Two lines, the second too long for the queue, and a drain between them and a third. -/
theorem queue_conserved_refused :
    Conserved [.enqueue [65, 10], .enqueue (List.replicate 16384 66), .drain, .enqueue [67, 10]]
      (exec Queue.call Queue.new
        [.enqueue [65, 10], .enqueue (List.replicate 16384 66), .drain, .enqueue [67, 10]]) :=
  queue_conserved _ (by decide)

end GpsNtp.Sdlog
