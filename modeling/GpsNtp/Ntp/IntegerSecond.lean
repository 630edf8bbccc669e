import GpsNtp.Machinery.EdgeTrain
import GpsNtp.Ntp.Runs
import GpsNtp.Pps.Monitor

/-!
# Ntp/IntegerSecond — the anchor is never off by a second

    edge        e₀ ─────── e₁ ─────── e₂ ─ ✗ ─── e₃ ─────── e₄      UTC u₀ + k at eₖ
    sentence       └ u₀       ✗          └ u₀+2     └ u₀+3

A receiver hands over GPS sentences, each somewhere inside the second it names, and PPS edges; it
may lose any of either.  Two arguments meet at every accepted pulse.  The floor in
`gps_second_at_edge` finds the edge that a fresh sentence belongs to (`gpsSecondAtEdge_eq`).  The
rounding of the prediction finds the number of edges passed since the anchor: drift, nudge and
frequency estimate together stay below half a second (`predictedAt_eq`).  So the two never disagree.
-/

namespace GpsNtp

open MachineInt Machine

/-- PPS edges at their monotonic times, edge `k` at the top of UTC second `u₀ + k`. -/
structure UtcEdges extends EdgeTrain 1000000 500 where
  u₀ : ℤ
  u₀_gt : i64Min < u₀

namespace UtcEdges

variable (edges : UtcEdges)

/-- The instants at which a receiver may hand over the sentence of second `u₀ + n`. -/
def InSecond (n : ℕ) (tUs : ℤ) : Prop :=
  edges.edge n + 10000 ≤ tUs ∧ tUs ≤ edges.edge (n + 1) - 10000

end UtcEdges

namespace NtpServer

variable {s : NtpServer} {edges : UtcEdges}

/-! ## The sentence of an edge -/

/-- **GPS speaks truly**: on the record of second `u₀ + n`, no later than ten seconds past edge `k`,
GPS gives edge `k` the second `u₀ + k` or nothing. -/
theorem gpsSecondAtEdge_eq {n k : ℕ} {tUs g : ℤ} (hgps : s.lastGpsUtcSeconds = some (edges.u₀ + n))
    (hupdate : s.lastGpsUtcUpdateUs = some tUs) (ht : edges.InSecond n tUs) (hn : n ≤ k + 10)
    (hk : IsI64 (edges.u₀ + k)) (hg : s.gpsSecondAtEdge (edges.edge k) = some g) :
    g = edges.u₀ + k := by
  obtain ⟨u, t, hu, ht', hfresh, rfl⟩ := gpsSecondAtEdge_eq_some hg
  obtain rfl := Option.some.inj (hgps.symm.trans hu)
  obtain rfl := Option.some.inj (hupdate.symm.trans ht')
  obtain ⟨htl, htu⟩ := ht
  unfold gpsStaleThresholdUs at hfresh
  -- the record is fresh, so the edge is at most two edges past its second
  have hkn : k ≤ n + 2 := by
    by_contra hlt
    obtain ⟨hdrift, -⟩ := edges.drift_bounds (show n + 1 ≤ k by omega)
    push_cast at hdrift
    omega
  have hwhole : (edges.edge k - tUs) / 1000000 = k - n - 1 :=
    edges.index_of_instant htl htu (by rw [abs_eq_max_neg]; omega)
  have hgap : IsI64 (edges.edge k - tUs) := by
    unfold IsI64 i64Min i64Max
    omega
  have hu₀ := edges.u₀_gt
  obtain ⟨-, hku⟩ := hk
  have hprev : satAdd (edges.u₀ + n) (k - n - 1) = edges.u₀ + k - 1 := by
    rw [satAdd_of_isI64 (by unfold IsI64; omega)]
    ring
  have hsecond : satAdd (edges.u₀ + k - 1) 1 = edges.u₀ + k := by
    rw [satAdd_of_isI64 (by unfold IsI64; omega)]
    ring
  rw [satSub_of_isI64 hgap, microsPerSec, hwhole, nmeaPpsFudgeS, hprev, hsecond]

/-! ## The prediction for an edge -/

/-- **Corrected elapsed time stays within one part in two thousand** of the elapsed time. -/
theorem correctedElapsedUs_mem (hf : |s.freqPpm| ≤ servoMaxFreqPpm) {rawUs : ℤ} (h0 : 0 ≤ rawUs)
    (h1 : rawUs ≤ 1000000000) :
    rawUs - (rawUs / 2000 + 1) ≤ s.correctedElapsedUs rawUs ∧
      s.correctedElapsedUs rawUs ≤ rawUs + (rawUs / 2000 + 1) := by
  have hscaled : rawUs - (rawUs / 2000 + 1) ≤ castI64 (rawUs * (1 - s.freqPpm / 1000000)) ∧
      castI64 (rawUs * (1 - s.freqPpm / 1000000)) ≤ rawUs + (rawUs / 2000 + 1) := by
    have hslope : |(rawUs : ℚ) * s.freqPpm| ≤ rawUs * 500 := by
      rw [abs_mul, abs_of_nonneg (by exact_mod_cast h0)]
      exact mul_le_mul_of_nonneg_left hf (by exact_mod_cast h0)
    have hround : (rawUs : ℚ) / 2000 ≤ ((rawUs / 2000 + 1 : ℤ) : ℚ) := by
      have : rawUs ≤ (rawUs / 2000 + 1) * 2000 := by omega
      rw [div_le_iff₀ (by norm_num)]
      exact_mod_cast this
    obtain ⟨hl, hu⟩ := abs_le.mp hslope
    refine castI64_mem (by unfold IsI64 i64Min i64Max; omega)
      (by unfold IsI64 i64Min i64Max; omega) ?_ ?_
    · push_cast at hround ⊢
      linarith
    · push_cast at hround ⊢
      linarith
  unfold correctedElapsedUs
  split_ifs with hzero
  · omega
  · omega

/-- **The prediction counts edges**: from an anchor at edge `j`, nudged by at most 50 µs, the
second predicted for an edge at most 400 later is the true one. -/
theorem predictedAt_eq {j k : ℕ} {monotonicUs : ℤ} (phaseErrorUs : ℤ)
    (hanchor : |monotonicUs - edges.edge j| ≤ 50) (hjk : j < k) (hk : k ≤ j + 400)
    (hutc : IsI64 (edges.u₀ + k)) :
    s.predictedAt ⟨edges.u₀ + j, monotonicUs⟩ phaseErrorUs (edges.edge k) = edges.u₀ + k := by
  obtain ⟨hl, hu⟩ := edges.drift_bounds hjk.le
  obtain ⟨hal, hau⟩ := abs_le.mp hanchor
  have hraw : satSub (edges.edge k) monotonicUs = edges.edge k - monotonicUs :=
    satSub_of_isI64 (by unfold IsI64 i64Min i64Max; omega)
  let s' : NtpServer := { s with freqPpm := blendFreqPpm s.freqPpm phaseErrorUs }
  obtain ⟨hcl, hcu⟩ := @correctedElapsedUs_mem s' (abs_blendFreqPpm_le _ _)
    (edges.edge k - monotonicUs) (by omega) (by omega)
  have hcount : (s'.correctedElapsedUs (edges.edge k - monotonicUs) + 1000000 / 2) / 1000000 =
      (k - j : ℤ) := by
    refine EdgeTrain.nearest_period ?_ ?_ (by decide)
    · omega
    · omega
  have hwrap : wrapI64 (s'.correctedElapsedUs (edges.edge k - monotonicUs) + 1000000 / 2) =
      s'.correctedElapsedUs (edges.edge k - monotonicUs) + 1000000 / 2 :=
    wrapI64_of_isI64 (by unfold IsI64 i64Min i64Max; omega)
  change satAdd (edges.u₀ + j) (wrapI64 (s'.correctedElapsedUs (satSub (edges.edge k) monotonicUs) +
    1000000 / 2) / 1000000) = _
  rw [hraw, hwrap, hcount]
  have hsum : edges.u₀ + j + (k - j) = edges.u₀ + k := by ring
  rw [satAdd_of_isI64 (hsum ▸ hutc), hsum]

/-- **The nudge is small**: a tenth of a phase error of at most 500 µs. -/
theorem abs_nudge_le {phaseErrorUs edgeUs : ℤ} (hphase : |phaseErrorUs| ≤ 500)
    (hedge : IsI64 edgeUs) :
    |satSub edgeUs (castI64 (phaseErrorUs * servoKp)) - edgeUs| ≤ 50 := by
  obtain ⟨hl, hu⟩ := abs_le.mp hphase
  have hlq : (-500 : ℚ) ≤ phaseErrorUs := by exact_mod_cast hl
  have huq : (phaseErrorUs : ℚ) ≤ 500 := by exact_mod_cast hu
  obtain ⟨hcl, hcu⟩ : -50 ≤ castI64 (phaseErrorUs * servoKp) ∧
      castI64 (phaseErrorUs * servoKp) ≤ 50 := by
    refine castI64_mem (by decide) (by decide) ?_ ?_
    · unfold servoKp
      push_cast
      linarith
    · unfold servoKp
      push_cast
      linarith
  obtain ⟨hel, heu⟩ := hedge
  rw [abs_le]
  unfold satSub satI64 i64Min i64Max at *
  omega

/-- **An interval in range is that of neighbouring edges**, so its phase error is the drift of one
period. -/
theorem abs_phase_le {j k : ℕ} (hjk : j < k) (hk : k ≤ j + 400)
    (hlo : 800000 ≤ ppsDeltaUs (edges.edge k) (edges.edge j))
    (hhi : ppsDeltaUs (edges.edge k) (edges.edge j) ≤ 1200000) :
    |(ppsDeltaUs (edges.edge k) (edges.edge j) : ℤ) - 1000000| ≤ 500 := by
  obtain ⟨hl, hu⟩ := edges.drift_bounds hjk.le
  have hdelta : (ppsDeltaUs (edges.edge k) (edges.edge j) : ℤ) = edges.edge k - edges.edge j := by
    unfold ppsDeltaUs wrapU32 wrapU64
    omega
  have hnext : k = j + 1 := by omega
  subst hnext
  rw [hdelta]
  exact edges.spacing j

end NtpServer

/-! ## The receiver -/

/-- What reaches the server: the sentence of second `u₀ + n` at an instant, edge `k`, or a call that
is neither. -/
inductive Reception where
  | sentence (n : ℕ) (tUs : ℤ)
  | edge (k : ℕ)
  | other (e : Event)
deriving DecidableEq

/-- A server with the edge observed last, the edge accepted last and the sentence parsed last. -/
structure Receiver where
  server : NtpServer
  observed : Option ℕ
  accepted : Option ℕ
  parsed : Option ℕ

namespace Receiver

/-- A fresh server that has received nothing. -/
def fresh : Receiver := ⟨NtpServer.fromSocket, none, none, none⟩

variable (edges : UtcEdges) (r : Receiver)

/-- The call a reception makes: the interval of an edge is that from the edge observed before. -/
def call : Reception → Event
  | .sentence n tUs => .updateGpsUtcSeconds (edges.u₀ + n) tUs
  | .edge k =>
    .observePpsPulse (r.observed.map fun j => ppsDeltaUs (edges.edge k) (edges.edge j))
      (edges.edge k)
  | .other e => e

/-- The reception is an edge that the server accepts. -/
def accepts (e : Reception) : Bool := r.server.accepts (r.call edges e)

/-- One reception. -/
def step (e : Reception) : Receiver where
  server := r.server.step (r.call edges e)
  observed :=
    match e with
    | .edge k => some k
    | _ => r.observed
  accepted :=
    match e with
    | .edge k => if r.accepts edges e then some k else r.accepted
    | _ => r.accepted
  parsed :=
    match e with
    | .sentence n _ => some n
    | _ => r.parsed

/-- The receptions of the environment: a sentence inside the second it names; edges in order, each
at most ten seconds behind the sentence parsed last, two accepted ones at most 400 apart; any other
call but a GPS update or a pulse. -/
def Admissible (r : Receiver) : Reception → Prop
  | .sentence n tUs => edges.InSecond n tUs
  | .edge k => IsI64 (edges.edge k) ∧ IsI64 (edges.u₀ + k) ∧ (∀ j, r.observed = some j → j < k) ∧
      (∀ n, r.parsed = some n → n ≤ k + 10) ∧
      (r.accepts edges (.edge k) = true → ∀ a, r.accepted = some a → k ≤ a + 400)
  | .other (.updateGpsUtcSeconds _ _) | .other (.observePpsPulse _ _) => False
  | .other _ => True

/-! ## The invariant -/

/-- **The invariant**: the record is a sentence inside its second, the anchor of a lock is the edge
accepted last at its second, and nothing is pending. -/
structure OnSecond (r : Receiver) : Prop where
  wellFormed : r.server.WellFormed
  record : ∀ tUs, r.server.lastGpsUtcUpdateUs = some tUs → ∃ n, r.parsed = some n ∧
    r.server.lastGpsUtcSeconds = some (edges.u₀ + n) ∧ edges.InSecond n tUs
  locked_iff : r.server.ppsLocked = true ↔ r.accepted.isSome = true
  accepted_le : ∀ a, r.accepted = some a → ∃ o, r.observed = some o ∧ a ≤ o
  anchor : ∀ a, r.accepted = some a → ∃ monotonicUs,
    r.server.clockAnchor = some ⟨edges.u₀ + a, monotonicUs⟩ ∧ |monotonicUs - edges.edge a| ≤ 50
  pending : r.server.pendingGpsStep = none
  steps : r.server.anchorStepCount = 0

variable {edges} {r : Receiver}

theorem onSecond_fresh : fresh.OnSecond edges where
  wellFormed := NtpServer.wellFormed_fromSocket
  record := nofun
  locked_iff := by decide
  accepted_le := nofun
  anchor := nofun
  pending := rfl
  steps := rfl

/-- GPS gives an edge its true second, under the invariant. -/
theorem OnSecond.gpsSecondAtEdge (h : r.OnSecond edges) {k : ℕ}
    (hk : r.Admissible edges (.edge k)) {g : ℤ}
    (hg : r.server.gpsSecondAtEdge (edges.edge k) = some g) : g = edges.u₀ + k := by
  obtain ⟨-, hutc, -, hparsed, -⟩ := hk
  obtain ⟨_, tUs, -, hupdate, -, -⟩ := NtpServer.gpsSecondAtEdge_eq_some hg
  obtain ⟨n, hn, hgps, ht⟩ := h.record tUs hupdate
  exact NtpServer.gpsSecondAtEdge_eq hgps hupdate ht (hparsed n hn) hutc hg

/-- **Prediction and GPS agree** on an edge at most 400 after the anchored one, so there is nothing
to record. -/
theorem OnSecond.accountAt (h : r.OnSecond edges) {k : ℕ} (hk : r.Admissible edges (.edge k))
    {a : ℕ} {monotonicUs : ℤ} (hnudge : |monotonicUs - edges.edge a| ≤ 50) (hak : a < k)
    (hka : k ≤ a + 400) (phaseErrorUs : ℤ) :
    r.server.accountAt ⟨edges.u₀ + a, monotonicUs⟩ phaseErrorUs (edges.edge k) =
      ⟨edges.u₀ + k, none, 0⟩ := by
  rw [NtpServer.accountAt, h.steps, NtpServer.predictedAt_eq _ hnudge hak hka hk.2.1]
  cases hg : r.server.gpsSecondAtEdge (edges.edge k) with
  | none => exact NtpServer.accountSecond_none _ _ _
  | some g =>
    rw [h.gpsSecondAtEdge hk hg]
    exact NtpServer.accountSecond_self _ _ _

/-- **An accepted edge** leaves the anchor at its own second, with nothing pending and no step. -/
theorem OnSecond.accepted (h : r.OnSecond edges) {k : ℕ} (hk : r.Admissible edges (.edge k))
    (haccepts : r.accepts edges (.edge k) = true) :
    (∃ monotonicUs, (r.step edges (.edge k)).server.clockAnchor =
        some ⟨edges.u₀ + k, monotonicUs⟩ ∧ |monotonicUs - edges.edge k| ≤ 50) ∧
      (r.step edges (.edge k)).server.ppsLocked = true ∧
      (r.step edges (.edge k)).server.pendingGpsStep = none ∧
      (r.step edges (.edge k)).server.anchorStepCount = 0 := by
  have ⟨hedge, _, hobserved, _, hgap⟩ := hk
  have hserver : (r.step edges (.edge k)).server = r.server.observePpsPulse
      (r.observed.map fun j => ppsDeltaUs (edges.edge k) (edges.edge j)) (edges.edge k) := rfl
  rw [hserver, NtpServer.observePpsPulse_eq]
  rcases NtpServer.accepts_cases haccepts with ⟨u, hout⟩ | ⟨anchor, phase, hout⟩
  · -- GPS alone gives the second of a lock
    have hu := h.gpsSecondAtEdge hk (NtpServer.gpsSecondAtEdge_of_aligned hout)
    rw [hout, hu]
    exact ⟨⟨edges.edge k, rfl, by simp⟩, rfl, rfl, h.steps⟩
  · obtain ⟨interval, hinterval, hlo, hhi, rfl, hanchor, hlocked, -⟩ :=
      NtpServer.pulseOutcome_eq_disciplined hout
    obtain ⟨j, hj, rfl⟩ := Option.map_eq_some_iff.mp hinterval
    obtain ⟨a, ha⟩ := Option.isSome_iff_exists.mp (h.locked_iff.mp hlocked)
    obtain ⟨o, ho, hao⟩ := h.accepted_le a ha
    obtain rfl := Option.some.inj (hj.symm.trans ho)
    obtain ⟨monotonicUs, hmono, hnudge⟩ := h.anchor a ha
    obtain rfl := Option.some.inj (hanchor.symm.trans hmono)
    have hjk := hobserved j hj
    have hka := hgap haccepts a ha
    have hphase := NtpServer.abs_phase_le hjk (by omega) hlo hhi
    have haccount := h.accountAt hk hnudge (hao.trans_lt hjk) hka
      ((ppsDeltaUs (edges.edge k) (edges.edge j) : ℤ) - 1000000)
    rw [hout]
    refine ⟨⟨_, ?_, NtpServer.abs_nudge_le hphase hedge⟩, ?_, ?_, ?_⟩
    · exact (NtpServer.discipline_clockAnchor _ _ _).trans (by rw [haccount])
    · exact hlocked
    · exact (NtpServer.discipline_pendingGpsStep _ _ _).trans (by rw [haccount])
    · exact (NtpServer.discipline_anchorStepCount _ _ _).trans (by rw [haccount])

/-- The record of sentences, after one more reception. -/
theorem OnSecond.record_step (h : r.OnSecond edges) {e : Reception} (he : r.Admissible edges e) :
    ∀ tUs, (r.step edges e).server.lastGpsUtcUpdateUs = some tUs →
      ∃ n, (r.step edges e).parsed = some n ∧
        (r.step edges e).server.lastGpsUtcSeconds = some (edges.u₀ + n) ∧
        edges.InSecond n tUs := by
  intro tUs ht
  have hold : (∀ utc nowUs, r.call edges e ≠ .updateGpsUtcSeconds utc nowUs) →
      (r.step edges e).parsed = r.parsed → ∃ n, (r.step edges e).parsed = some n ∧
        (r.step edges e).server.lastGpsUtcSeconds = some (edges.u₀ + n) ∧
        edges.InSecond n tUs := by
    intro hcall hparsed
    have hrecord := @NtpServer.gpsRecord_step r.server _ hcall
    obtain ⟨n, hn, hgps, hin⟩ := h.record tUs (hrecord.1.symm.trans ht)
    exact ⟨n, hparsed.trans hn, hrecord.2.trans hgps, hin⟩
  cases e with
  | sentence n nowUs =>
    have hrecord := @NtpServer.updateGpsUtcSeconds_eq r.server (edges.u₀ + n) nowUs
    obtain rfl : nowUs = tUs := by
      refine Option.some.inj (Eq.trans ?_ ht)
      exact (congrArg NtpServer.lastGpsUtcUpdateUs hrecord).symm
    exact ⟨n, rfl, (congrArg NtpServer.lastGpsUtcSeconds hrecord).trans rfl, he⟩
  | edge k => exact hold (fun _ _ => nofun) rfl
  | other e =>
    refine hold (fun utc nowUs hcall => ?_) rfl
    have hcall : e = .updateGpsUtcSeconds utc nowUs := hcall
    subst hcall
    exact he

/-- A reception that is no accepted edge keeps the invariant. -/
theorem OnSecond.quiet (h : r.OnSecond edges) {e : Reception} (he : r.Admissible edges e)
    (hquiet : r.server.accepts (r.call edges e) = false)
    (haccepted : (r.step edges e).accepted = r.accepted)
    (hobserved : ∀ j, r.observed = some j → ∃ o, (r.step edges e).observed = some o ∧ j ≤ o) :
    (r.step edges e).OnSecond edges := by
  have hsame := NtpServer.sameDiscipline_upto_anchor hquiet
  have hlocked : (r.step edges e).server.ppsLocked = r.server.ppsLocked := hsame.ppsLocked
  refine ⟨h.wellFormed.step _, h.record_step he, ?_, fun a ha => ?_, fun a ha => ?_, ?_, ?_⟩
  · rw [hlocked, haccepted, h.locked_iff]
  · obtain ⟨j, hj, haj⟩ := h.accepted_le a (haccepted.symm.trans ha)
    obtain ⟨o, ho, hjo⟩ := hobserved j hj
    exact ⟨o, ho, haj.trans hjo⟩
  · have ha : r.accepted = some a := haccepted.symm.trans ha
    have hl : r.server.ppsLocked = true := h.locked_iff.mpr (by rw [ha]; rfl)
    obtain ⟨monotonicUs, hanchor, hnudge⟩ := h.anchor a ha
    exact ⟨monotonicUs, (NtpServer.clockAnchor_of_locked hl hquiet).trans hanchor, hnudge⟩
  · exact ((congrArg NtpServer.pendingGpsStep hsame).trans rfl).trans h.pending
  · exact ((congrArg NtpServer.anchorStepCount hsame).trans rfl).trans h.steps

/-- **Every admissible reception keeps the invariant.** -/
theorem OnSecond.step (h : r.OnSecond edges) {e : Reception} (he : r.Admissible edges e) :
    (r.step edges e).OnSecond edges := by
  cases e with
  | sentence n tUs => exact h.quiet he rfl rfl fun j hj => ⟨j, hj, le_rfl⟩
  | edge k =>
    have hjk : ∀ j, r.observed = some j → j < k := he.2.2.1
    cases haccepts : r.accepts edges (.edge k) with
    | false =>
      refine h.quiet he haccepts ?_ fun j hj => ⟨k, rfl, (hjk j hj).le⟩
      exact if_neg (by rw [haccepts]; exact Bool.false_ne_true)
    | true =>
      obtain ⟨hanchor, hlocked, hpending, hsteps⟩ := h.accepted he haccepts
      have haccepted : (r.step edges (.edge k)).accepted = some k := if_pos haccepts
      refine ⟨h.wellFormed.step _, h.record_step he, ?_, fun a ha => ?_, fun a ha => ?_, hpending,
        hsteps⟩
      · rw [hlocked, haccepted]
        exact iff_of_true rfl rfl
      · obtain rfl := Option.some.inj (haccepted.symm.trans ha)
        exact ⟨k, rfl, le_rfl⟩
      · obtain rfl := Option.some.inj (haccepted.symm.trans ha)
        exact hanchor
  | other e =>
    have hquiet : r.server.accepts e = false := by
      cases e with
      | observePpsPulse interval edgeUs => exact absurd he id
      | _ => rfl
    exact h.quiet he hquiet rfl fun j hj => ⟨j, hj, le_rfl⟩

/-! ## Main theorem -/

variable (edges)

/-- **The integer second is correct over whole runs.**  Of a fresh server, over any admissible
reception of sentences, edges and other calls: every edge that locks or updates the anchor leaves
it at the second the edge marks and within 50 µs of it, and no second is ever stepped or about to
be. -/
theorem integer_second_run {es : List Reception}
    (hes : Throughout (step edges) (Admissible edges) fresh es) :
    (∀ received k rest, es = received ++ .edge k :: rest →
      (run (step edges) fresh received).accepts edges (.edge k) = true →
        ∃ monotonicUs,
          (run (step edges) fresh (received ++ [.edge k])).server.clockAnchor =
            some ⟨edges.u₀ + k, monotonicUs⟩ ∧ |monotonicUs - edges.edge k| ≤ 50) ∧
      (run (step edges) fresh es).server.anchorStepCount = 0 ∧
      (run (step edges) fresh es).server.pendingGpsStep = none := by
  have hinv : ∀ {received : List Reception},
      Throughout (step edges) (Admissible edges) fresh received →
        (run (step edges) fresh received).OnSecond edges := fun h =>
    run_throughout (fun _ _ he hr => hr.step he) onSecond_fresh h
  refine ⟨?_, (hinv hes).steps, (hinv hes).pending⟩
  rintro received k rest rfl haccepts
  obtain ⟨hreceived, hk, -⟩ := throughout_append.mp hes
  rw [run_append, run_cons, run_nil]
  exact ((hinv hreceived).accepted hk haccepts).1

/-- Edges exactly a second apart, from the top of second 100 on. -/
def exactEdges : UtcEdges where
  edge k := 1000000 * k
  spacing k := by
    push_cast
    rw [show (1000000 : ℤ) * (k + 1) - 1000000 * k - 1000000 = 0 by ring]
    decide
  u₀ := 100
  u₀_gt := by decide

/-- A lock on edge 2, a pulse missed, edge 4 coalesced and refused, and edge 5 accepted. -/
def coalescedEdge : List Reception :=
  [.other (.seedUtcSeconds 7 0), .sentence 1 1300000, .edge 2, .sentence 3 3200000, .edge 4,
    .edge 5]

theorem integer_second_run_coalescedEdge :
    ∃ monotonicUs, (run (step exactEdges) fresh coalescedEdge).server.clockAnchor =
      some ⟨105, monotonicUs⟩ := by
  have hlock : ∀ k ≤ 5, 3 ≤ k →
      (run (step exactEdges) fresh (coalescedEdge.take k)).accepted = some 2 := by decide +kernel
  have hes : Throughout (step exactEdges) (Admissible exactEdges) fresh coalescedEdge := by
    refine ⟨trivial, ⟨by decide, by decide⟩, ⟨by decide, by decide, nofun, ?_, nofun⟩,
      ⟨by decide, by decide⟩, ⟨by decide, by decide, ?_, ?_, fun _ a ha => ?_⟩,
      ⟨by decide, by decide, ?_, ?_, fun _ a ha => ?_⟩, trivial⟩
    · rintro n ⟨⟩
      decide
    · rintro j ⟨⟩
      decide
    · rintro n ⟨⟩
      decide
    · obtain rfl := Option.some.inj ((hlock 4 (by decide) (by decide)).symm.trans ha)
      decide
    · rintro j ⟨⟩
      decide
    · rintro n ⟨⟩
      decide
    · obtain rfl := Option.some.inj ((hlock 5 (by decide) (by decide)).symm.trans ha)
      decide
  obtain ⟨monotonicUs, hanchor, -⟩ := (integer_second_run exactEdges hes).1
    (coalescedEdge.take 5) 5 [] rfl (by decide +kernel)
  exact ⟨monotonicUs, hanchor⟩

end Receiver

end GpsNtp
