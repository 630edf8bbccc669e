import GpsNtp.Ntp.Rejected
import GpsNtp.Pps.Monitor

/-!
# Pps/RangeFilter — what the range filter judges

    edges   e₀ ──────── e₁      gap = e₁ − e₀, up to 2⁶⁴ µs
    poll    Delta { interval_us = gap mod 2³² }  ──▸  800000 ≤ interval_us ≤ 1200000 ?

`PpsMonitor::poll` narrows the 64-bit difference of two edges to 32 bits, and the range filter of
`observe_pps_pulse` sees the narrowed value only.  An outage of 2³² µs (71 min 35 s) and a second
is then reported as one second.  The calls are taken one after the other here, however many edges
fall between two polls; `Pps/Monitor` has the interleaved accesses.
-/

namespace GpsNtp

open MachineInt Machine

/-! ## Calls -/

/-- One call: an edge is recorded, or the main loop polls. -/
inductive PpsCall where
  | recordEdge (nowUs : ℕ)
  | poll
deriving DecidableEq

/-- The monitor and the poll cursor, between two calls. -/
structure PpsCalls where
  monitor : PpsMonitor
  pollState : PpsPollState
deriving DecidableEq

namespace PpsMonitor

variable (m : PpsMonitor)

/-- `PpsMonitor::record_edge`, its three atomic steps in a row. -/
def recordEdgeAlone (nowUs : ℕ) : PpsMonitor :=
  let (m, pc) := m.recordEdge nowUs .openSeq
  let (m, pc) := m.recordEdge nowUs pc
  (m.recordEdge nowUs pc).1

/-- `PpsMonitor::snapshot` while no edge is recorded: at most `loads` loads, from `pc` on. -/
def snapshotAlone : ℕ → Snapshot → Option (ℕ × ℕ)
  | 0, _ => none
  | loads + 1, pc =>
    match m.snapshot pc with
    | .inl pc => snapshotAlone loads pc
    | .inr r => some r

variable {m}

theorem recordEdgeAlone_eq (nowUs : ℕ) :
    m.recordEdgeAlone nowUs = ⟨nowUs, wrapU32 (wrapU32 (m.seq + 1) + 1)⟩ := rfl

/-- **Three loads make a snapshot** when no record is under way. -/
theorem snapshotAlone_eq (h : m.seq % 2 = 0) :
    m.snapshotAlone 3 .loadSeq = some (m.seq >>> 1, m.edgeUs) := by
  have heven : ¬m.seq &&& 1 = 1 := by
    rw [Nat.and_one_is_mod, h]
    decide
  simp only [snapshotAlone, snapshot, if_neg heven, if_pos]

end PpsMonitor

namespace PpsCalls

/-- At boot. -/
def init : PpsCalls := ⟨PpsMonitor.new, PpsPollState.init⟩

/-- A call, and the event it returns. -/
def step (c : PpsCalls) : PpsCall → PpsCalls × Option PpsEvent
  | .recordEdge nowUs => ({ c with monitor := c.monitor.recordEdgeAlone nowUs }, none)
  | .poll =>
    match c.monitor.snapshotAlone 3 .loadSeq with
    | some (currentCount, nowUs) =>
      let (pollState, event) := c.pollState.poll currentCount nowUs
      ({ c with pollState := pollState }, event)
    | none => (c, none)

end PpsCalls

/-- The event as `run` hands it to the server. -/
def PpsEvent.dispatch : PpsEvent → Event
  | .first edgeUs => .observePpsPulse none edgeUs
  | .delta intervalUs edgeUs => .observePpsPulse (some intervalUs) edgeUs

/-! ## Reports

The edges themselves are in the calls, not in the monitor: the transcript says which edge each
event reports, and which was reported before it. -/

/-- A reported event, with the edge it reports and the one reported before it (0 for none). -/
structure Report where
  previousUs : ℕ
  currentUs : ℕ
  event : PpsEvent
deriving DecidableEq

/-- The reports of a transcript, after the edge `latest` was recorded and `previous` reported. -/
def reports : (latest previous : ℕ) → List (PpsCall × Option PpsEvent) → List Report
  | _, _, [] => []
  | _, previous, (.recordEdge nowUs, _) :: rest => reports nowUs previous rest
  | latest, previous, (.poll, none) :: rest => reports latest previous rest
  | latest, previous, (.poll, some event) :: rest =>
    ⟨previous, latest, event⟩ :: reports latest latest rest

/-- **The filter judged the real interval**: if it let a pulse with an interval pass, the two edges
really are so far apart. -/
def Report.JudgedRightly (r : Report) : Prop :=
  ∀ intervalUs edgeUs, r.event = .delta intervalUs edgeUs →
    NtpServer.outOfRange r.event.dispatch = false →
    r.previousUs + 800000 ≤ r.currentUs ∧ r.currentUs ≤ r.previousUs + 1200000

/-- The edge times of the calls. -/
def edgeTimes (calls : List PpsCall) : List ℕ :=
  calls.filterMap fun
    | .recordEdge nowUs => some nowUs
    | .poll => none

/-- The edge times of the calls strictly increase from `startUs` on. -/
structure EdgesFrom (startUs : ℕ) (calls : List PpsCall) : Prop where
  later : ∀ t ∈ edgeTimes calls, startUs < t
  increasing : (edgeTimes calls).Pairwise (· < ·)

theorem EdgesFrom.recordEdge {startUs nowUs : ℕ} {calls : List PpsCall}
    (h : EdgesFrom startUs (.recordEdge nowUs :: calls)) :
    startUs < nowUs ∧ EdgesFrom nowUs calls := by
  have hcons : edgeTimes (.recordEdge nowUs :: calls) = nowUs :: edgeTimes calls := rfl
  obtain ⟨hlater, hincreasing⟩ := h
  rw [hcons] at hlater hincreasing
  rw [List.pairwise_cons] at hincreasing
  exact ⟨hlater nowUs List.mem_cons_self, hincreasing.1, hincreasing.2⟩

theorem EdgesFrom.poll {startUs : ℕ} {calls : List PpsCall}
    (h : EdgesFrom startUs (.poll :: calls)) : EdgesFrom startUs calls := ⟨h.1, h.2⟩

namespace PpsCalls

/-! ## The narrowing -/

/-- The poll about to be made would report a gap of 2³² µs or more that narrows into the range. -/
def aliases (c : PpsCalls) : PpsCall → Bool
  | .recordEdge _ => false
  | .poll =>
    let gapUs := c.monitor.edgeUs - c.pollState.lastEdgeUs
    decide (c.pollState.lastCount < c.monitor.seq >>> 1) && decide (0 < c.pollState.lastEdgeUs) &&
      decide (4294967296 ≤ gapUs) &&
      decide (800000 ≤ gapUs % 4294967296 ∧ gapUs % 4294967296 ≤ 1200000)

/-- `pps_delta_us` of two edges in order. -/
theorem ppsDeltaUs_of_le {currentUs previousUs : ℕ} (h : previousUs ≤ currentUs) :
    ppsDeltaUs currentUs previousUs = (currentUs - previousUs) % 4294967296 := by
  unfold ppsDeltaUs wrapU32 wrapU64
  omega

theorem outOfRange_delta (intervalUs : ℕ) (edgeUs : ℤ) :
    NtpServer.outOfRange (PpsEvent.delta intervalUs edgeUs).dispatch = false ↔
      800000 ≤ intervalUs ∧ intervalUs ≤ 1200000 := by
  simp only [PpsEvent.dispatch, NtpServer.outOfRange, Bool.not_eq_false', decide_eq_true_eq]

/-- **One report is judged rightly** unless the narrowing folds a longer gap into the range. -/
theorem judgedRightly_delta_iff {currentUs previousUs : ℕ} (h : previousUs ≤ currentUs)
    (edgeUs : ℤ) :
    Report.JudgedRightly
        ⟨previousUs, currentUs, .delta (ppsDeltaUs currentUs previousUs) edgeUs⟩ ↔
      ¬(4294967296 ≤ currentUs - previousUs ∧
        800000 ≤ (currentUs - previousUs) % 4294967296 ∧
        (currentUs - previousUs) % 4294967296 ≤ 1200000) := by
  have hjudged : Report.JudgedRightly
      ⟨previousUs, currentUs, .delta (ppsDeltaUs currentUs previousUs) edgeUs⟩ ↔
      (800000 ≤ ppsDeltaUs currentUs previousUs ∧ ppsDeltaUs currentUs previousUs ≤ 1200000 →
        previousUs + 800000 ≤ currentUs ∧ currentUs ≤ previousUs + 1200000) := by
    constructor
    · intro hr hin
      exact hr _ _ rfl ((outOfRange_delta _ _).mpr hin)
    · intro hr intervalUs edgeUs' _ hin
      exact hr ((outOfRange_delta _ _).mp hin)
  rw [hjudged, ppsDeltaUs_of_le h]
  omega

/-- A first pulse carries no interval to judge. -/
theorem judgedRightly_first (previousUs currentUs : ℕ) (edgeUs : ℤ) :
    Report.JudgedRightly ⟨previousUs, currentUs, .first edgeUs⟩ := nofun

/-! ## The run -/

/-- The monitor holds the latest edge and the cursor the one reported last. -/
structure Tracks (c : PpsCalls) (latest previous : ℕ) : Prop where
  edge : c.monitor.edgeUs = latest
  cursor : c.pollState.lastEdgeUs = previous
  even : c.monitor.seq % 2 = 0
  le : previous ≤ latest

theorem tracks_init : init.Tracks 0 0 := ⟨rfl, rfl, rfl, le_rfl⟩

variable {c : PpsCalls} {latest previous : ℕ}

theorem Tracks.recordEdge (h : c.Tracks latest previous) {nowUs : ℕ} (hlt : latest < nowUs) :
    (c.step (.recordEdge nowUs)).1.Tracks nowUs previous where
  edge := rfl
  cursor := h.cursor
  even := by
    have heven := h.even
    change wrapU32 (wrapU32 (c.monitor.seq + 1) + 1) % 2 = 0
    unfold wrapU32
    omega
  le := h.le.trans hlt.le

/-- A poll is the cursor's poll on the latest edge. -/
theorem Tracks.step_poll (h : c.Tracks latest previous) :
    c.step .poll = ({ c with pollState := (c.pollState.poll (c.monitor.seq >>> 1) latest).1 },
      (c.pollState.poll (c.monitor.seq >>> 1) latest).2) := by
  rw [step, PpsMonitor.snapshotAlone_eq h.even, h.edge]

/-- **One poll**: nothing new and the cursor stays, or the latest edge is reported, rightly judged
unless its gap aliases, and the cursor stands at it. -/
theorem Tracks.poll (h : c.Tracks latest previous) :
    ((c.step .poll).2 = none ∧ (c.step .poll).1.Tracks latest previous ∧
        c.aliases .poll = false) ∨
      ∃ event, (c.step .poll).2 = some event ∧ (c.step .poll).1.Tracks latest latest ∧
        (Report.JudgedRightly ⟨previous, latest, event⟩ ↔ c.aliases .poll = false) := by
  have hedge := h.edge
  have hcursor := h.cursor
  rw [h.step_poll]
  simp only [aliases, PpsPollState.poll, hedge, hcursor]
  by_cases hnew : c.monitor.seq >>> 1 ≤ c.pollState.lastCount
  · refine Or.inl ?_
    rw [if_pos hnew, decide_eq_false (not_lt.mpr hnew)]
    exact ⟨rfl, ⟨hedge, hcursor, h.even, h.le⟩, rfl⟩
  · refine Or.inr ⟨_, by rw [if_neg hnew], ?_, ?_⟩
    · rw [if_neg hnew]
      exact ⟨hedge, rfl, h.even, le_rfl⟩
    · rw [decide_eq_true (not_le.mp hnew)]
      by_cases hfirst : 0 < previous
      · rw [if_pos hfirst, judgedRightly_delta_iff h.le, decide_eq_true hfirst]
        simp only [Bool.true_and, Bool.and_eq_false_iff, decide_eq_false_iff_not]
        tauto
      · rw [if_neg hfirst, decide_eq_false hfirst]
        exact iff_of_true (judgedRightly_first previous latest _) rfl

/-- **The run**: every report is judged rightly exactly when no poll meets an aliasing gap. -/
theorem judgedRightly_reports_iff {calls : List PpsCall} (h : c.Tracks latest previous)
    (hedges : EdgesFrom latest calls) :
    (∀ r ∈ reports latest previous (transcript step c calls), r.JudgedRightly) ↔
      Throughout (fun c call => (c.step call).1) (fun c call => c.aliases call = false) c calls := by
  induction calls generalizing c latest previous with
  | nil => exact iff_of_true (fun r hr => absurd hr List.not_mem_nil) trivial
  | cons call calls ih =>
    rw [transcript_cons, Throughout]
    cases call with
    | recordEdge nowUs =>
      obtain ⟨hlt, hrest⟩ := hedges.recordEdge
      exact (ih (h.recordEdge hlt) hrest).trans (and_iff_right rfl).symm
    | poll =>
      rcases h.poll with ⟨hnone, htracks, halias⟩ | ⟨event, hevent, htracks, halias⟩
      · rw [hnone, halias, ← ih htracks hedges.poll]
        exact (and_iff_right rfl).symm
      · rw [hevent, reports, List.forall_mem_cons, halias, ih htracks hedges.poll]

/-- **The range filter judges the real interval, but for one kind of outage.**  On every sequence of
edges with positive strictly increasing times and every placing of polls between them: each
interval that passes the filter is the real distance of the two edges reported, if and only if no
poll finds a new edge 2³² µs or more after the one reported before it, at a distance that is a
second in range modulo 2³². -/
theorem rangeFilter_judges_iff {calls : List PpsCall} (hedges : EdgesFrom 0 calls) :
    (∀ r ∈ reports 0 0 (transcript step init calls), r.JudgedRightly) ↔
      Throughout (fun c call => (c.step call).1) (fun c call => c.aliases call = false) init
        calls :=
  judgedRightly_reports_iff tracks_init hedges

/-- Two edges missed, then one in time: the filter judges both gaps rightly. -/
theorem rangeFilter_judges_iff_missed_edges :
    reports 0 0 (transcript step init [.recordEdge 1000000, .poll, .recordEdge 4000000, .poll,
        .recordEdge 5000010, .poll]) =
      [⟨0, 1000000, .first 1000000⟩, ⟨1000000, 4000000, .delta 3000000 4000000⟩,
        ⟨4000000, 5000010, .delta 1000010 5000010⟩] ∧
      ∀ r ∈ reports 0 0 (transcript step init [.recordEdge 1000000, .poll, .recordEdge 4000000,
        .poll, .recordEdge 5000010, .poll]), r.JudgedRightly :=
  ⟨by decide +kernel, (rangeFilter_judges_iff ⟨by decide, by decide⟩).mpr
    ⟨rfl, rfl, rfl, rfl, rfl, rfl, trivial⟩⟩

/-- **An outage of 2³² µs and a second** is reported, and accepted, as one second. -/
theorem outage_passes_filter :
    let calls : List PpsCall := [.recordEdge 1000000, .poll, .recordEdge 4296967296, .poll]
    EdgesFrom 0 calls ∧
      reports 0 0 (transcript step init calls) =
        [⟨0, 1000000, .first 1000000⟩, ⟨1000000, 4296967296, .delta 1000000 4296967296⟩] ∧
      ¬∀ r ∈ reports 0 0 (transcript step init calls), r.JudgedRightly := by
  intro calls
  have hreports : reports 0 0 (transcript step init calls) =
      [⟨0, 1000000, .first 1000000⟩, ⟨1000000, 4296967296, .delta 1000000 4296967296⟩] := by
    decide +kernel
  refine ⟨⟨by decide, by decide⟩, hreports, fun h => ?_⟩
  rw [hreports] at h
  have hjudged := h _ (List.mem_cons_of_mem _ List.mem_cons_self)
  exact absurd (hjudged _ _ rfl rfl).2 (by decide)

end PpsCalls

end GpsNtp
