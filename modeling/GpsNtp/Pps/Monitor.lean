import GpsNtp.Machinery.MachineInt
import GpsNtp.Machinery.Seqlock
import Mathlib.Data.Int.ModEq

/-!
# Pps/Monitor — the PPS edge, from the interrupt to the main loop

    ISR     record_edge    seq += 1  ▸  edge_us := now_us  ▸  seq += 1
    main    poll           snapshot (count, edge_us)  ▸  First, Delta, Delta, ⋯

`pps.rs`.  The interrupt and the main loop share two atomics, and every access to one is a step of
a sequentially consistent interleaving.  The pair is a seqlock (`Machinery/Seqlock`), which the
`u32` sequence number refines because fewer than 2³¹ pulses occur (`abs_step`); snapshots are
therefore atomic, and the event stream follows from them call by call.
-/

namespace GpsNtp

open MachineInt Machine Seqlock

/-! ## The monitor -/

/-- `PpsMonitor`: the shared atomics. -/
structure PpsMonitor where
  edgeUs : ℕ
  seq : ℕ
deriving DecidableEq

/-- `PpsPollState`: the last pulse the main loop observed. -/
structure PpsPollState where
  lastCount : ℕ
  lastEdgeUs : ℕ
deriving DecidableEq

/-- `PpsEvent`. -/
inductive PpsEvent where
  | first (edgeUs : ℤ)
  | delta (intervalUs : ℕ) (edgeUs : ℤ)
deriving DecidableEq

/-- `pps_delta_us`: the difference of two `u64` times, in 32 bits. -/
def ppsDeltaUs (currentUs previousUs : ℤ) : ℕ := wrapU32 (wrapU64 (currentUs - previousUs))

/-- `record_edge`, by the atomic step that comes next. -/
inductive RecordEdge where
  | openSeq
  | storeEdge
  | closeSeq
deriving DecidableEq

/-- `snapshot`, by the atomic load that comes next. -/
inductive Snapshot where
  | loadSeq
  | loadEdge (s1 : ℕ)
  | confirmSeq (s1 edge : ℕ)
deriving DecidableEq

namespace PpsMonitor

/-- `PpsMonitor::new`. -/
def new : PpsMonitor := ⟨0, 0⟩

variable (m : PpsMonitor)

/-- `seq.fetch_add(1, _)`. -/
def bumpSeq : PpsMonitor := { m with seq := wrapU32 (m.seq + 1) }

/-- `PpsMonitor::record_edge`, one atomic step of it. -/
def recordEdge (nowUs : ℕ) : RecordEdge → PpsMonitor × RecordEdge
  | .openSeq => (m.bumpSeq, .storeEdge)
  | .storeEdge => ({ m with edgeUs := nowUs }, .closeSeq)
  | .closeSeq => (m.bumpSeq, .openSeq)

/-- `PpsMonitor::snapshot`, one atomic load of it: the load that follows, or
`(pulse_count, edge_us)` in the end. -/
def snapshot : Snapshot → Snapshot ⊕ ℕ × ℕ
  | .loadSeq => .inl (if m.seq &&& 1 = 1 then .loadSeq else .loadEdge m.seq)
  | .loadEdge s1 => .inl (.confirmSeq s1 m.edgeUs)
  | .confirmSeq s1 edge => if s1 = m.seq then .inr (s1 >>> 1, edge) else .inl .loadSeq

end PpsMonitor

namespace PpsPollState

/-- `PpsPollState::default`. -/
def init : PpsPollState := ⟨0, 0⟩

/-- `PpsMonitor::poll`, from its snapshot on. -/
def poll (state : PpsPollState) (currentCount nowUs : ℕ) : PpsPollState × Option PpsEvent :=
  if currentCount ≤ state.lastCount then (state, none)
  else
    let edgeUs := wrapI64 nowUs
    let event :=
      if 0 < state.lastEdgeUs then .delta (ppsDeltaUs nowUs state.lastEdgeUs) edgeUs
      else .first edgeUs
    (⟨currentCount, nowUs⟩, some event)

end PpsPollState

/-! ## The interrupt and the main loop -/

/-- The pulses of a run: `time k` is the timer reading of the `k`-th, a positive `i64`; `time 0` is
the timestamp of a monitor without a pulse. -/
structure PulseTrain where
  count : ℕ
  time : ℕ → ℕ
  time_zero : time 0 = 0
  increasing : ∀ i j, i < j → j ≤ count → time i < time j
  inRange : ∀ k ≤ count, IsI64 (time k)
  few : count < 2147483648

/-- The atomics, the interrupt with the number of `record_edge` calls it has finished, and the main
loop: inside a `poll` call, or `none` between two. -/
structure PpsSystem where
  monitor : PpsMonitor
  isr : RecordEdge
  recorded : ℕ
  poller : Option Snapshot
  pollState : PpsPollState
deriving DecidableEq

/-- What a `poll` call returned, and the snapshot it took. -/
structure PollReturn where
  currentCount : ℕ
  nowUs : ℕ
  event : Option PpsEvent
deriving DecidableEq

namespace PpsSystem

/-- At boot. -/
def init : PpsSystem := ⟨PpsMonitor.new, .openSeq, 0, none, PpsPollState.init⟩

variable (train : PulseTrain) (c : PpsSystem)

/-- The next atomic step of the interrupt, which records the pulses of the train in turn. -/
def isrStep : PpsSystem :=
  if c.recorded < train.count then
    let (monitor, isr) := c.monitor.recordEdge (train.time (c.recorded + 1)) c.isr
    { c with
      monitor := monitor
      isr := isr
      recorded := if c.isr = .closeSeq then c.recorded + 1 else c.recorded }
  else c

/-- The next atomic step of the main loop, which calls `poll` again and again. -/
def pollerStep : PpsSystem × Option PollReturn :=
  match c.poller with
  | none => ({ c with poller := some .loadSeq }, none)
  | some pc =>
    match c.monitor.snapshot pc with
    | .inl pc => ({ c with poller := some pc }, none)
    | .inr (currentCount, nowUs) =>
      let (pollState, event) := c.pollState.poll currentCount nowUs
      ({ c with poller := none, pollState := pollState }, some ⟨currentCount, nowUs, event⟩)

/-- One step of the interleaving. -/
def step (turn : Turn) : PpsSystem × Option PollReturn :=
  match turn with
  | .writer => (c.isrStep train, none)
  | .reader => c.pollerStep

/-- The system after a schedule. -/
def after (turns : List Turn) : PpsSystem := exec (step train) init turns

/-- The events that `poll` returned over a schedule, in order. -/
def events (turns : List Turn) : List PpsEvent :=
  (transcript (step train) c turns).filterMap fun p => p.2.bind PollReturn.event

/-- The record of pulse `k` is complete: the atomics hold it and no `record_edge` is under way. -/
def RecordComplete (k : ℕ) : Prop :=
  c.isr = .openSeq ∧ c.monitor = ⟨train.time k, 2 * k⟩

/-! ## The seqlock underneath -/

/-- Where the interrupt stands as a seqlock writer. -/
def writerPc : RecordEdge → WriterPc
  | .openSeq => .idle
  | .storeEdge => .bumped
  | .closeSeq => .stored

/-- Where the main loop stands as a seqlock reader. -/
def readerPc : Option Snapshot → ReaderPc ℕ
  | none => .idle
  | some .loadSeq => .loadSeq
  | some (.loadEdge s1) => .loadValue s1
  | some (.confirmSeq s1 edge) => .confirm s1 edge

/-- The seqlock a system is. -/
def abs : State ℕ := ⟨c.monitor.seq, c.monitor.edgeUs, writerPc c.isr, readerPc c.poller⟩

/-- The system is its seqlock, and its pulse count the one the sequence number has. -/
structure Refines : Prop where
  inv : Seqlock.Inv train.time train.count c.abs
  recorded : c.recorded = c.monitor.seq / 2

variable {train} {c : PpsSystem}

theorem refines_init : init.Refines train where
  inv := ⟨⟨rfl, train.time_zero.symm⟩, trivial, Nat.zero_le _⟩
  recorded := rfl

/-- **The sequence number does not wrap.** -/
theorem Refines.bumpSeq (h : c.Refines train) (hcount : c.recorded < train.count) :
    c.monitor.bumpSeq = { c.monitor with seq := c.monitor.seq + 1 } := by
  have hfew := train.few
  have hrecorded := h.recorded
  rw [PpsMonitor.bumpSeq, wrapU32, Nat.mod_eq_of_lt (by omega)]

/-- A record under way is one of the train's. -/
theorem Refines.recorded_lt (h : c.Refines train) (hodd : c.monitor.seq % 2 = 1) :
    c.recorded < train.count := by
  have hrecorded := h.recorded
  have hle : c.monitor.seq ≤ 2 * train.count := h.inv.seq_le
  omega

/-- **The interrupt is the seqlock writer.** -/
theorem Refines.isrStep (h : c.Refines train) :
    (c.isrStep train).abs = writerStep train.time train.count c.abs ∧
      (c.isrStep train).recorded = (c.isrStep train).monitor.seq / 2 := by
  have hw : WriterInv train.time c.monitor.seq c.monitor.edgeUs (writerPc c.isr) := h.inv.writer
  have hrecorded := h.recorded
  unfold PpsSystem.isrStep
  cases hisr : c.isr with
  | openSeq =>
    rw [hisr] at hw
    obtain ⟨heven, -⟩ := hw
    have hwriter : c.abs.writer = .idle := congrArg writerPc hisr
    have hguard : c.abs.seq / 2 < train.count ↔ c.recorded < train.count := by
      rw [hrecorded]
      rfl
    rw [writerStep, hwriter]
    dsimp only
    by_cases hcount : c.recorded < train.count
    · rw [if_pos hcount, if_pos (hguard.mpr hcount)]
      dsimp only [PpsMonitor.recordEdge]
      rw [h.bumpSeq hcount]
      exact ⟨rfl, by dsimp only; rw [if_neg nofun]; omega⟩
    · rw [if_neg hcount, if_neg (hguard.not.mpr hcount)]
      exact ⟨rfl, hrecorded⟩
  | storeEdge =>
    rw [hisr] at hw
    have hwriter : c.abs.writer = .bumped := congrArg writerPc hisr
    rw [writerStep, hwriter, if_pos (h.recorded_lt hw.1), hrecorded]
    exact ⟨rfl, rfl⟩
  | closeSeq =>
    rw [hisr] at hw
    have hodd : c.monitor.seq % 2 = 1 := hw.1
    have hwriter : c.abs.writer = .stored := congrArg writerPc hisr
    rw [writerStep, hwriter, if_pos (h.recorded_lt hodd)]
    dsimp only [PpsMonitor.recordEdge]
    rw [h.bumpSeq (h.recorded_lt hodd)]
    exact ⟨rfl, by dsimp only; rw [if_pos rfl]; omega⟩

/-- **The main loop is the seqlock reader**, and hands on what the read returns. -/
theorem pollerStep_abs :
    c.pollerStep.1.abs = (readerStep c.abs).1 ∧
      (readerStep c.abs).2 = c.pollerStep.2.map (fun r => (r.currentCount, r.nowUs)) := by
  unfold pollerStep
  cases hpoller : c.poller with
  | none =>
    have hreader : c.abs.reader = .idle := congrArg readerPc hpoller
    rw [readerStep, hreader]
    exact ⟨rfl, rfl⟩
  | some pc =>
    have hreader : c.abs.reader = readerPc (some pc) := congrArg readerPc hpoller
    rw [readerStep, hreader]
    cases pc with
    | loadSeq =>
      dsimp only [PpsMonitor.snapshot, readerPc]
      rw [Nat.and_one_is_mod]
      by_cases hodd : c.monitor.seq % 2 = 1
      · rw [if_pos hodd, if_pos (show c.abs.seq % 2 = 1 from hodd)]
        exact ⟨rfl, rfl⟩
      · rw [if_neg hodd, if_neg (show ¬c.abs.seq % 2 = 1 from hodd)]
        exact ⟨rfl, rfl⟩
    | loadEdge s1 => exact ⟨rfl, rfl⟩
    | confirmSeq s1 edge =>
      dsimp only [PpsMonitor.snapshot, readerPc]
      by_cases heq : s1 = c.monitor.seq
      · rw [if_pos heq, if_pos (show s1 = c.abs.seq from heq)]
        exact ⟨rfl, rfl⟩
      · rw [if_neg heq, if_neg (show ¬s1 = c.abs.seq from heq)]
        exact ⟨rfl, rfl⟩

/-- **One step of the system is one step of its seqlock.** -/
theorem abs_step (h : c.Refines train) (turn : Turn) :
    (c.step train turn).1.abs = (Seqlock.step train.time train.count c.abs turn).1 ∧
      (Seqlock.step train.time train.count c.abs turn).2 =
        (c.step train turn).2.map fun r => (r.currentCount, r.nowUs) := by
  cases turn with
  | writer => exact ⟨h.isrStep.1, rfl⟩
  | reader => exact pollerStep_abs

theorem pollerStep_recorded : c.pollerStep.1.recorded = c.recorded ∧
    c.pollerStep.1.monitor = c.monitor := by
  unfold pollerStep
  split
  · exact ⟨rfl, rfl⟩
  · split <;> exact ⟨rfl, rfl⟩

theorem Refines.step (h : c.Refines train) (turn : Turn) : (c.step train turn).1.Refines train where
  inv := by
    rw [(abs_step h turn).1]
    exact h.inv.step turn
  recorded := by
    cases turn with
    | writer => exact h.isrStep.2
    | reader =>
      change c.pollerStep.1.recorded = c.pollerStep.1.monitor.seq / 2
      rw [pollerStep_recorded.1, pollerStep_recorded.2, h.recorded]

/-- **A schedule of the system is a schedule of its seqlock.** -/
theorem refines_after (turns : List Turn) :
    (after train turns).Refines train ∧
      (after train turns).abs = Seqlock.after train.time train.count turns := by
  induction turns using List.reverseRecOn with
  | nil =>
    refine ⟨refines_init, ?_⟩
    change (⟨0, 0, .idle, .idle⟩ : State ℕ) = ⟨0, train.time 0, .idle, .idle⟩
    rw [train.time_zero]
  | append_singleton turns turn ih =>
    obtain ⟨hrefines, habs⟩ := ih
    have hafter : after train (turns ++ [turn]) = ((after train turns).step train turn).1 := by
      rw [after, exec_append]
      rfl
    rw [hafter]
    refine ⟨hrefines.step turn, ?_⟩
    rw [(abs_step hrefines turn).1, habs, after_snoc]

/-- A complete publication is a complete record. -/
theorem recordComplete_of_complete {k : ℕ} (h : Complete train.time k c.abs) :
    c.RecordComplete train k := by
  obtain ⟨hwriter, hseq, hvalue⟩ := h
  have hisr : c.isr = .openSeq := by
    have hwriter : writerPc c.isr = .idle := hwriter
    cases hpc : c.isr with
    | openSeq => rfl
    | storeEdge => rw [hpc] at hwriter; exact absurd hwriter nofun
    | closeSeq => rw [hpc] at hwriter; exact absurd hwriter nofun
  have hmonitor : c.monitor = ⟨c.abs.value, c.abs.seq⟩ := rfl
  exact ⟨hisr, by rw [hmonitor, hvalue, hseq]⟩

/-! ## The event stream -/

/-- The cursor of the main loop stands at pulse `k`, or at none when `k = 0`. -/
def CursorAt (train : PulseTrain) (c : PpsSystem) (k : ℕ) : Prop :=
  k ≤ train.count ∧ c.pollState = ⟨k, train.time k⟩

/-- The event reports pulse `k`, the pulse reported before it being `prev`, or none when
`prev = 0`. -/
def Reports (train : PulseTrain) (prev k : ℕ) : PpsEvent → Prop
  | .first edgeUs => prev = 0 ∧ edgeUs = train.time k
  | .delta intervalUs edgeUs => 0 < prev ∧ edgeUs = train.time k ∧ intervalUs < 4294967296 ∧
      (intervalUs : ℤ) ≡ train.time k - train.time prev [ZMOD 4294967296]

/-- `pps_delta_us` is a difference modulo 2³². -/
theorem ppsDeltaUs_modEq (currentUs previousUs : ℤ) :
    ppsDeltaUs currentUs previousUs < 4294967296 ∧
      (ppsDeltaUs currentUs previousUs : ℤ) ≡ currentUs - previousUs [ZMOD 4294967296] := by
  unfold ppsDeltaUs wrapU32 wrapU64 Int.ModEq
  omega

/-- **One `poll` call**: no event and the cursor stays, or an event that reports a later pulse and
the cursor at that pulse. -/
theorem poll_reports (train : PulseTrain) {j k : ℕ} (hk : k ≤ train.count) :
    (PpsPollState.poll ⟨j, train.time j⟩ k (train.time k) = (⟨j, train.time j⟩, none)) ∨
      ∃ event, PpsPollState.poll ⟨j, train.time j⟩ k (train.time k) =
        (⟨k, train.time k⟩, some event) ∧ j < k ∧ Reports train j k event := by
  unfold PpsPollState.poll
  dsimp only
  by_cases hle : k ≤ j
  · exact Or.inl (if_pos hle)
  · have hlt : j < k := not_le.mp hle
    refine Or.inr ⟨_, if_neg hle, hlt, ?_⟩
    rw [wrapI64_of_isI64 (train.inRange k hk)]
    rcases Nat.eq_zero_or_pos j with rfl | hpos
    · rw [if_neg (by rw [train.time_zero]; exact lt_irrefl 0)]
      exact ⟨rfl, rfl⟩
    · have hedge : 0 < train.time j := by
        have := train.increasing 0 j hpos (hlt.le.trans hk)
        rwa [train.time_zero] at this
      rw [if_pos hedge]
      exact ⟨hpos, rfl, ppsDeltaUs_modEq _ _⟩

/-- A step of the main loop leaves the cursor alone, or ends a `poll` call on its snapshot. -/
theorem pollerStep_cases (c : PpsSystem) :
    (c.pollerStep.2 = none ∧ c.pollerStep.1.pollState = c.pollState) ∨
      ∃ k nowUs, c.pollerStep.2 = some ⟨k, nowUs, (c.pollState.poll k nowUs).2⟩ ∧
        c.pollerStep.1.pollState = (c.pollState.poll k nowUs).1 := by
  unfold pollerStep
  split
  · exact Or.inl ⟨rfl, rfl⟩
  · split
    · exact Or.inl ⟨rfl, rfl⟩
    · exact Or.inr ⟨_, _, rfl, rfl⟩

/-- **One step and the cursor**: it stays and nothing is reported, or moves on to the pulse
reported. -/
theorem cursorAt_step (h : c.Refines train) {j : ℕ} (hj : CursorAt train c j) (turn : Turn) :
    ((c.step train turn).2.bind PollReturn.event = none ∧
        CursorAt train (c.step train turn).1 j) ∨
      ∃ k event, (c.step train turn).2.bind PollReturn.event = some event ∧ j < k ∧
        Reports train j k event ∧ CursorAt train (c.step train turn).1 k := by
  obtain ⟨hcount, hcursor⟩ := hj
  cases turn with
  | writer =>
    refine Or.inl ⟨rfl, hcount, hcursor ▸ ?_⟩
    change (c.isrStep train).pollState = c.pollState
    unfold PpsSystem.isrStep
    split <;> rfl
  | reader =>
    have hstep : c.step train .reader = c.pollerStep := rfl
    rw [hstep]
    rcases c.pollerStep_cases with ⟨hnone, hstate⟩ | ⟨k, nowUs, hret, hstate⟩
    · exact Or.inl ⟨by rw [hnone]; rfl, hcount, hstate.trans hcursor⟩
    · have habs := (abs_step h .reader).2
      rw [hstep, hret] at habs
      obtain ⟨hnow, hk, -⟩ := h.inv.returns habs
      have hnow : nowUs = train.time k := hnow
      subst hnow
      rw [hcursor] at hret hstate
      rw [hret]
      rcases @poll_reports train j k hk with hquiet | ⟨event, hevent, hlt, hreports⟩
      · exact Or.inl ⟨congrArg Prod.snd hquiet, hcount, hstate.trans (congrArg Prod.fst hquiet)⟩
      · exact Or.inr ⟨k, event, congrArg Prod.snd hevent, hlt, hreports, hk,
          hstate.trans (congrArg Prod.fst hevent)⟩

/-- **The events of a schedule**, from a cursor at pulse `j`: each reports a pulse later than the
one before. -/
theorem events_reports (h : c.Refines train) {j : ℕ} (hj : CursorAt train c j)
    (turns : List Turn) :
    ∃ ks : List ℕ, (j :: ks).Pairwise (· < ·) ∧ (∀ k ∈ ks, k ≤ train.count) ∧
      List.Forall₂ (fun p => Reports train p.1 p.2) ((j :: ks).zip ks) (c.events train turns) := by
  induction turns generalizing c j with
  | nil => exact ⟨[], List.pairwise_singleton _ _, nofun, List.Forall₂.nil⟩
  | cons turn turns ih =>
    have hevents : c.events train (turn :: turns) =
        ((c.step train turn).2.bind PollReturn.event).toList ++
          (c.step train turn).1.events train turns := by
      rw [events, transcript_cons, List.filterMap_cons]
      dsimp only
      cases (c.step train turn).2.bind PollReturn.event <;> rfl
    rcases cursorAt_step h hj turn with ⟨hnone, hcursor⟩ | ⟨k, event, hsome, hlt, hreport, hcursor⟩
    · obtain ⟨ks, hks⟩ := ih (h.step turn) hcursor
      rw [hevents, hnone]
      exact ⟨ks, hks⟩
    · obtain ⟨ks, hsorted, hle, hall⟩ := ih (h.step turn) hcursor
      rw [hevents, hsome]
      refine ⟨k :: ks, ?_, ?_, List.Forall₂.cons hreport hall⟩
      · refine List.pairwise_cons.mpr ⟨fun i hi => ?_, hsorted⟩
        rcases List.mem_cons.mp hi with rfl | hi
        · exact hlt
        · exact hlt.trans ((List.pairwise_cons.mp hsorted).1 i hi)
      · exact List.forall_mem_cons.mpr ⟨hcursor.1, hle⟩

/-! ## Main theorem -/

variable (train)

/-- **The PPS event stream under interleaving.**  Under every schedule of the interrupt and the
main loop: a `poll` call that returns has taken the snapshot `(k, time k)` of a pulse `k` whose
record was complete at a moment of the call, `k = 0` before any pulse; and the events returned
report pulses of strictly increasing number, the first one as `First` and each later one as a
`Delta` over the time since the pulse reported before it, modulo 2³². -/
theorem poll_stream (turns : List Turn) :
    (∀ before rest r, turns = before ++ .reader :: rest →
      ((after train before).step train .reader).2 = some r →
        r.nowUs = train.time r.currentCount ∧ r.currentCount ≤ train.count ∧
          ∃ start call, before = start ++ call ∧
            (after train start).RecordComplete train r.currentCount ∧
            ∀ part, part <+: call → (after train (start ++ part)).poller ≠ none) ∧
      ∃ ks : List ℕ, (0 :: ks).Pairwise (· < ·) ∧ (∀ k ∈ ks, k ≤ train.count) ∧
        List.Forall₂ (fun p => Reports train p.1 p.2) ((0 :: ks).zip ks)
          (init.events train turns) := by
  constructor
  · intro before rest r _ hret
    obtain ⟨hrefines, habs⟩ := @refines_after train before
    have hread := (abs_step hrefines .reader).2
    rw [hret, habs] at hread
    obtain ⟨hnow, hcount, start, call, rfl, hcomplete, hcall⟩ := read_atomic hread
    refine ⟨hnow, hcount, start, call, rfl, ?_, fun part hpart hidle => ?_⟩
    · exact recordComplete_of_complete ((refines_after start).2.symm ▸ hcomplete)
    · refine hcall part hpart ?_
      rw [← (refines_after (start ++ part)).2]
      exact congrArg readerPc hidle
  · exact events_reports refines_init ⟨Nat.zero_le _, by rw [train.time_zero]; rfl⟩ turns

/-- Two pulses a second apart. -/
def twoPulses : PulseTrain where
  count := 2
  time k := 1000000 * k
  time_zero := rfl
  increasing := by omega
  inRange := by decide
  few := by decide

/-- A schedule whose second `poll` call runs into the second `record_edge`, and is retried. -/
def tornRead : List Turn :=
  [.writer, .writer, .writer, .reader, .reader, .reader, .reader,
    .reader, .reader, .writer, .reader, .writer, .reader, .writer, .reader, .reader, .reader]

theorem poll_stream_tornRead :
    init.events twoPulses tornRead = [.first 1000000, .delta 1000000 2000000] ∧
      ∃ ks : List ℕ, (0 :: ks).Pairwise (· < ·) ∧ (∀ k ∈ ks, k ≤ 2) ∧
        List.Forall₂ (fun p => Reports twoPulses p.1 p.2) ((0 :: ks).zip ks)
          (init.events twoPulses tornRead) :=
  ⟨by decide +kernel, (poll_stream twoPulses tornRead).2⟩

end PpsSystem

end GpsNtp
