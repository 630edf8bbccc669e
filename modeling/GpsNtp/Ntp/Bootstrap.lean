import GpsNtp.Ntp.Runs

/-!
# Ntp/Bootstrap — the RTC seed interferes with nothing

    run with seeds:     s ──▸ ⋯ ──▸ s'        s, s' : equal but for the anchor,
    run without them:   t ──▸ ⋯ ──▸ t'        and equal outright once GPS has spoken

`seed_utc_seconds` writes the anchor field that the PPS path reads later.  Two servers in
`SeedRelated` differ in that field only, and not at all after a GPS update; every event keeps the
relation, a seed on one side alone as well.
-/

namespace GpsNtp

open MachineInt Machine

/-- The events other than RTC seeds. -/
def Event.notSeed : Event → Bool
  | .seedUtcSeconds _ _ => false
  | _ => true

namespace NtpServer

/-- The server with another anchor. -/
def withAnchor (s : NtpServer) (anchor : Option ClockAnchor) : NtpServer :=
  { s with clockAnchor := anchor }

variable {s t u : NtpServer}

@[simp] theorem withAnchor_self (s : NtpServer) : s.withAnchor s.clockAnchor = s := rfl

/-! ## Serving never reads the anchor to decide -/

section Serving

variable (anchor : Option ClockAnchor)

theorem tryRateLimit_withAnchor (srcIpV4 : Option UInt32) (nowUs : ℤ) :
    (s.withAnchor anchor).tryRateLimit srcIpV4 nowUs =
      ((s.tryRateLimit srcIpV4 nowUs).1.withAnchor anchor,
        (s.tryRateLimit srcIpV4 nowUs).2) :=
  @tryRateLimit_commute (fun s => s.withAnchor anchor) (fun _ => rfl) (fun _ _ => rfl)
    (fun _ _ => rfl) s srcIpV4 nowUs

theorem serveLimited_withAnchor (srcIpV4 : Option UInt32) (clock : PollClock) (sendOk : Bool)
    (refusal : Disposition) (resp resp' : NtpServer → List UInt8) :
    ((s.withAnchor anchor).serveLimited srcIpV4 clock sendOk refusal resp).1 =
        (s.serveLimited srcIpV4 clock sendOk refusal resp').1.withAnchor anchor ∧
      ((s.withAnchor anchor).serveLimited srcIpV4 clock sendOk refusal resp).2.failed =
        (s.serveLimited srcIpV4 clock sendOk refusal resp').2.failed := by
  simp only [serveLimited, tryRateLimit_withAnchor, sendReply]
  split_ifs <;> exact ⟨rfl, rfl⟩

/-- **Serving a datagram under another anchor** ends in the same state, up to that anchor. -/
theorem handleDatagram_withAnchor (gpsFix : Bool) (req : List UInt8) (len : ℕ) (d : Datagram) :
    ((s.withAnchor anchor).handleDatagram gpsFix req len d).1 =
        (s.handleDatagram gpsFix req len d).1.withAnchor anchor ∧
      ((s.withAnchor anchor).handleDatagram gpsFix req len d).2.failed =
        (s.handleDatagram gpsFix req len d).2.failed := by
  have hacl : (s.withAnchor anchor).acl = s.acl := rfl
  simp only [handleDatagram, handleControl, handleTimeRequest, hacl]
  split_ifs <;> first | exact ⟨rfl, rfl⟩ | exact serveLimited_withAnchor anchor ..

theorem pollLoop_withAnchor (gpsFix : Bool) (req : List UInt8) (ds : List Datagram) :
    (pollLoop gpsFix ⟨s.withAnchor anchor, req⟩ ds).1 =
      (pollLoop gpsFix ⟨s, req⟩ ds).1.withAnchor anchor := by
  induction ds generalizing s req with
  | nil => rfl
  | cons d rest ih =>
    obtain ⟨hserver, hfailed⟩ := @handleDatagram_withAnchor s anchor gpsFix
      (recvInto req d.bytes) (min d.bytes.length ntpMaxPacketLen) d
    have hstep : (pollStep gpsFix ⟨s.withAnchor anchor, req⟩ d).1 =
        ⟨(pollStep gpsFix ⟨s, req⟩ d).1.server.withAnchor anchor, recvInto req d.bytes⟩ :=
      congrArg (PollState.mk · _) hserver
    have hcond : (pollStep gpsFix ⟨s.withAnchor anchor, req⟩ d).2.failed =
        (pollStep gpsFix ⟨s, req⟩ d).2.failed := hfailed
    rw [pollLoop_cons_fst, pollLoop_cons_fst, hcond, hstep]
    split_ifs
    · rfl
    · exact ih _

end Serving

/-! ## The relation -/

/-- Equal but for the anchor, and equal outright once there was a GPS update. -/
structure SeedRelated (s t : NtpServer) : Prop where
  left : s.WellFormed
  right : t.WellFormed
  rest : t = s.withAnchor t.clockAnchor
  anchor : s.lastGpsUtcSeconds.isSome = true → t.clockAnchor = s.clockAnchor

theorem SeedRelated.refl (h : s.WellFormed) : SeedRelated s s := ⟨h, h, rfl, fun _ => rfl⟩

theorem SeedRelated.lastGpsUtcSeconds (h : SeedRelated s t) :
    t.lastGpsUtcSeconds = s.lastGpsUtcSeconds :=
  (congrArg NtpServer.lastGpsUtcSeconds h.rest).trans rfl

theorem SeedRelated.symm (h : SeedRelated s t) : SeedRelated t s where
  left := h.right
  right := h.left
  rest := by rw [h.rest]; rfl
  anchor := fun hg => (h.anchor (h.lastGpsUtcSeconds ▸ hg)).symm

theorem SeedRelated.trans (h₁ : SeedRelated s t) (h₂ : SeedRelated t u) : SeedRelated s u where
  left := h₁.left
  right := h₂.right
  rest := by rw [h₂.rest, h₁.rest]; rfl
  anchor := fun hg =>
    (h₂.anchor (h₁.lastGpsUtcSeconds.symm ▸ hg)).trans (h₁.anchor hg)

/-- **After a GPS update related servers are equal.** -/
theorem SeedRelated.eq_of_gps (h : SeedRelated s t) (hg : s.lastGpsUtcSeconds.isSome = true) :
    t = s := by
  rw [h.rest, h.anchor hg, withAnchor_self]

/-- Under a lock related servers are equal. -/
theorem SeedRelated.eq_of_locked (h : SeedRelated s t) (hl : s.ppsLocked = true) : t = s :=
  h.eq_of_gps (h.left.gps_of_locked hl)

/-- Without a lock a pulse does not read the anchor. -/
theorem observePpsPulse_withAnchor (hl : s.ppsLocked = false) (anchor : Option ClockAnchor)
    (interval : Option ℕ) (edgeUs : ℤ) :
    (s.withAnchor anchor).observePpsPulse interval edgeUs = s.observePpsPulse interval edgeUs ∨
      (s.withAnchor anchor).observePpsPulse interval edgeUs = s.withAnchor anchor ∧
        s.observePpsPulse interval edgeUs = s := by
  have hgps : (s.withAnchor anchor).gpsSecondAtEdge edgeUs = s.gpsSecondAtEdge edgeUs :=
    gpsSecondAtEdge_congr rfl rfl edgeUs
  have hfilter : ∀ a : Option ClockAnchor, (a.filter fun _ => s.ppsLocked) = none := fun a => by
    simp [hl]
  have hlocked : (s.withAnchor anchor).ppsLocked = s.ppsLocked := rfl
  rcases interval with _ | interval
  · simp only [observePpsPulse, hgps]
    cases s.gpsSecondAtEdge edgeUs with
    | none => exact Or.inr ⟨rfl, rfl⟩
    | some g => exact Or.inl rfl
  · simp only [observePpsPulse, hgps, hlocked, hfilter]
    split_ifs
    · cases s.gpsSecondAtEdge edgeUs with
      | none => exact Or.inr ⟨rfl, rfl⟩
      | some g => exact Or.inl rfl
    · exact Or.inr ⟨rfl, rfl⟩

/-! ## Every event keeps the relation -/

/-- **Without a lock no event reads the anchor**: it is overwritten, or carried along. -/
theorem step_withAnchor (hl : s.ppsLocked = false) (anchor : Option ClockAnchor) {e : Event}
    (he : e.notSeed = true) :
    (s.withAnchor anchor).step e = s.step e ∨
      (s.withAnchor anchor).step e = (s.step e).withAnchor anchor ∧
        (s.step e).clockAnchor = s.clockAnchor ∧
        (s.step e).lastGpsUtcSeconds = s.lastGpsUtcSeconds := by
  cases e with
  | seedUtcSeconds utc nowUs => exact absurd he Bool.false_ne_true
  | updateGpsUtcSeconds utc nowUs =>
    refine Or.inl ?_
    have hl' : (s.withAnchor anchor).ppsLocked = false := hl
    simp only [NtpServer.step, call, updateGpsUtcSeconds_eq, hl, hl', Bool.false_eq_true, if_false]
    rfl
  | observePpsPulse interval edgeUs =>
    rcases observePpsPulse_withAnchor hl anchor interval edgeUs with h | ⟨h₁, h₂⟩
    · exact Or.inl h
    · have hs : s.step (.observePpsPulse interval edgeUs) = s := h₂
      exact Or.inr ⟨by rw [hs]; exact h₁, by rw [hs], by rw [hs]⟩
  | setLeapIndicator li => exact Or.inr ⟨rfl, rfl, rfl⟩
  | setAcl acl => exact Or.inr ⟨rfl, rfl, rfl⟩
  | poll gpsFix ds =>
    exact Or.inr ⟨pollLoop_withAnchor anchor gpsFix _ ds,
      (congrArg clockAnchor (sameClock_poll gpsFix ds)).trans rfl, (poll_gpsRecord gpsFix ds).2⟩

/-- A seed on one side is not seen by the relation. -/
theorem SeedRelated.seed_left (h : SeedRelated s t) (utc nowUs : ℤ) :
    SeedRelated (s.seedUtcSeconds utc nowUs) t := by
  by_cases hg : s.lastGpsUtcSeconds.isSome = true
  · rwa [seedUtcSeconds_of_isSome (h.left.anchor_of_gps hg)]
  · obtain ⟨anchor, hseed⟩ := @seedUtcSeconds_eq s utc nowUs
    refine ⟨h.left.seedUtcSeconds utc nowUs, h.right, ?_, fun hg' => ?_⟩
    · rw [hseed, h.rest]
      rfl
    · exact absurd ((congrArg (fun s => s.lastGpsUtcSeconds.isSome) hseed).symm.trans hg') hg

/-- **Every other event, on both sides, keeps the relation.** -/
theorem SeedRelated.step (h : SeedRelated s t) {e : Event} (he : e.notSeed = true) :
    SeedRelated (s.step e) (t.step e) := by
  by_cases hl : s.ppsLocked = true
  · rw [h.eq_of_locked hl]
    exact SeedRelated.refl (h.left.step e)
  rcases step_withAnchor (Bool.eq_false_iff.mpr hl) t.clockAnchor he with heq | ⟨heq, ha, hg⟩
  · rw [← h.rest] at heq
    rw [heq]
    exact SeedRelated.refl (h.left.step e)
  · rw [← h.rest] at heq
    refine ⟨h.left.step e, h.right.step e, by rw [heq]; rfl, fun hg' => ?_⟩
    rw [ha, heq]
    exact h.anchor (hg ▸ hg')

/-- A run and the same run without its seeds end in related servers. -/
theorem seedRelated_run_filter (evs : List Event) :
    SeedRelated (run step fromSocket evs) (run step fromSocket (evs.filter Event.notSeed)) := by
  refine run_filter_related (fun s t e he h => h.step he) (fun s t e he h => ?_)
    (SeedRelated.refl wellFormed_fromSocket) evs
  cases e with
  | seedUtcSeconds utc nowUs => exact h.seed_left utc nowUs
  | _ => exact absurd he nofun

/-- Runs that differ in their seeds only end in related servers. -/
theorem seedRelated_run {evs₁ evs₂ : List Event}
    (h : evs₁.filter Event.notSeed = evs₂.filter Event.notSeed) :
    SeedRelated (run step fromSocket evs₁) (run step fromSocket evs₂) := by
  refine (seedRelated_run_filter evs₁).trans ?_
  rw [h]
  exact (seedRelated_run_filter evs₂).symm

/-! ## Non-interference -/

/-- A GPS update in the history is on record. -/
theorem lastGpsUtcSeconds_of_mem {evs : List Event} {utc nowUs : ℤ}
    (h : .updateGpsUtcSeconds utc nowUs ∈ evs) :
    (run step fromSocket evs).lastGpsUtcSeconds.isSome = true := by
  rw [(wellFormed_run evs).gps_record, lastGpsUtcUpdateUs_run]
  induction evs using List.reverseRecOn with
  | nil => exact absurd h List.not_mem_nil
  | append_singleton evs e ih =>
    rw [latestGpsUpdate_snoc]
    rcases List.mem_append.mp h with h | h
    · split
      · rfl
      · exact ih h
    · obtain rfl := List.mem_singleton.mp h
      rfl

theorem SeedRelated.disciplineParams_stratum (h : SeedRelated s t) (gpsFix : Bool) (nowUs : ℤ)
    (reading : ClockReading) :
    (t.disciplineParams gpsFix nowUs reading).stratum
      = (s.disciplineParams gpsFix nowUs reading).stratum := by
  have hlast : t.lastPpsMonotonicUs = s.lastPpsMonotonicUs :=
    (congrArg lastPpsMonotonicUs h.rest).trans rfl
  have hiff : (t.disciplineParams gpsFix nowUs reading).stratum = 1 ↔
      (s.disciplineParams gpsFix nowUs reading).stratum = 1 := by
    rw [stratum_eq_one_iff h.left, stratum_eq_one_iff h.right, hlast]
  rcases @stratum_eq s gpsFix nowUs reading with hs | hs
  · rw [hs, hiff.mpr hs]
  · rcases @stratum_eq t gpsFix nowUs reading with ht | ht
    · exact absurd (hiff.mp ht) (by rw [hs]; decide)
    · rw [hs, ht]

/-- **The RTC seed interferes with nothing.**  Two runs of a fresh server that differ in their
seeds only end equal in every field but the anchor and report the same stratum; from the first GPS
update on, and under a lock, they are equal outright, so that a poll that answers at stratum 1
gives the same replies in both. -/
theorem rtcSeed_noninterference (evs₁ evs₂ : List Event)
    (h : evs₁.filter Event.notSeed = evs₂.filter Event.notSeed) :
    let s := run step fromSocket evs₁
    let t := run step fromSocket evs₂
    t = { s with clockAnchor := t.clockAnchor } ∧
      (∀ gpsFix nowUs reading, (t.disciplineParams gpsFix nowUs reading).stratum
        = (s.disciplineParams gpsFix nowUs reading).stratum) ∧
      ((∃ utc nowUs, .updateGpsUtcSeconds utc nowUs ∈ evs₁) → t = s) ∧
      (s.ppsLocked = true → t = s) ∧
      (∀ gpsFix nowUs reading, (s.disciplineParams gpsFix nowUs reading).stratum = 1 →
        ∀ ds, t.poll gpsFix ds = s.poll gpsFix ds) := by
  intro s t
  have hrel : SeedRelated s t := seedRelated_run h
  refine ⟨hrel.rest, hrel.disciplineParams_stratum, ?_, hrel.eq_of_locked, ?_⟩
  · rintro ⟨utc, nowUs, hmem⟩
    exact hrel.eq_of_gps (lastGpsUtcSeconds_of_mem hmem)
  · intro gpsFix nowUs reading hone ds
    obtain ⟨edgeUs, hlast, -⟩ := (stratum_eq_one_iff hrel.left gpsFix nowUs reading).mp hone
    rw [hrel.eq_of_locked (hrel.left.locked_iff.mpr (by rw [hlast]; rfl))]

/-- A seed before the GPS update, or after it and with another second, leaves one lock. -/
theorem rtcSeed_noninterference_lock :
    run step fromSocket [.updateGpsUtcSeconds 100 1300000, .seedUtcSeconds 7 1400000,
        .observePpsPulse none 2000000]
      = run step fromSocket [.seedUtcSeconds 5 0, .updateGpsUtcSeconds 100 1300000,
        .observePpsPulse none 2000000] :=
  (rtcSeed_noninterference _ _ rfl).2.2.1 ⟨100, 1300000, by decide⟩

end NtpServer

end GpsNtp
