import GpsNtp.App.MainLoop
import GpsNtp.Machinery.Mailbox
import GpsNtp.Machinery.Refine
import GpsNtp.Ntp.Bootstrap
import GpsNtp.Ntp.SyncState

/-!
# App/Feedback — the clock chip and the server do not feed each other

    with fallbacks:     s ──▸ ⋯ ──▸ s'        s, s' : related servers, the same requests
    without them:       t ──▸ ⋯ ──▸ t'

The server takes the chip's time where it has none of its own, and the chip is set to the server's
time.  The loop is open: a write-back needs a lock, under which nothing is left of a time that came
from the chip.  What is queued for the chip passes through a slot of one, in which the newest time
replaces an older one (`taken_newest`).
-/

namespace GpsNtp.App.MainLoop

open Machine

variable {s t : MainLoop}

/-! ## A fallback that makes a difference -/

/-- The event is a fallback that changes the server. -/
def seeds (s : MainLoop) : LoopEvent → Bool
  | .rtcFallback seedDelayUs =>
    decide ((s.maybeApplyRtcFallback seedDelayUs).ntpServer ≠ s.ntpServer)
  | _ => false

theorem isSome_anchor_of_ntpStep {server : NtpServer} (h : server.clockAnchor.isSome = true)
    (e : Event) : (server.step e).clockAnchor.isSome = true := by
  cases hre : server.reanchors e with
  | false => rwa [NtpServer.clockAnchor_of_not_reanchors hre]
  | true =>
    cases e with
    | seedUtcSeconds utc nowUs =>
      rw [NtpServer.reanchors, h, Bool.not_true, Bool.and_false] at hre
      cases hre
    | updateGpsUtcSeconds utc nowUs =>
      rw [NtpServer.reanchors] at hre
      have hstep : server.step (.updateGpsUtcSeconds utc nowUs) = _ :=
        NtpServer.updateGpsUtcSeconds_eq utc nowUs
      rw [hstep, Bool.not_eq_true' _ |>.mp hre]
      rfl
    | observePpsPulse interval edgeUs =>
      have hstep : server.step (.observePpsPulse interval edgeUs) = _ :=
        NtpServer.observePpsPulse_eq interval edgeUs
      rw [hstep]
      cases server.pulseOutcome interval edgeUs with
      | skipped => exact h
      | outlier => exact h
      | aligned unixSeconds => rfl
      | disciplined anchor phaseErrorUs => rfl
    | _ => cases hre

/-- A server that has an anchor keeps one. -/
theorem isSome_anchor_step (h : s.ntpServer.clockAnchor.isSome = true) (e : LoopEvent) :
    (s.step e).ntpServer.clockAnchor.isSome = true := by
  rw [ntpServer_step]
  exact @run_induction _ _ _ (fun server : NtpServer => server.clockAnchor.isSome = true)
    (fun _ e h => isSome_anchor_of_ntpStep h e) _ h _

/-- A fallback changes a server that has no anchor, and gives it one. -/
theorem anchor_of_seeds {e : LoopEvent} (h : s.seeds e = true) :
    s.ntpServer.clockAnchor.isSome = false ∧ (s.step e).ntpServer.clockAnchor.isSome = true := by
  cases e with
  | rtcFallback seedDelayUs =>
    have hchanged : (s.maybeApplyRtcFallback seedDelayUs).ntpServer ≠ s.ntpServer :=
      of_decide_eq_true h
    rw [step, maybeApplyRtcFallback] at *
    cases hsecs : s.fallbackSecs with
    | none =>
      rw [hsecs] at hchanged
      exact absurd rfl hchanged
    | some secs =>
      rw [hsecs] at hchanged
      dsimp only [NtpServer.seedUtcSeconds] at hchanged ⊢
      split_ifs at hchanged ⊢ with hanchor
      · exact absurd rfl hchanged
      · rw [Bool.or_eq_true, not_or, Bool.not_eq_true, Bool.not_eq_true] at hanchor
        exact ⟨hanchor.2, rfl⟩
  | _ => cases h

theorem metCount_seeds_le (evs : List LoopEvent) :
    metCount step seeds s evs ≤ (!s.ntpServer.clockAnchor.isSome).toNat := by
  induction evs generalizing s with
  | nil => exact Nat.zero_le _
  | cons e evs ih =>
    rw [metCount]
    have hrest := @ih (s.step e)
    cases hseeds : s.seeds e with
    | true =>
      obtain ⟨hnone, hsome⟩ := anchor_of_seeds hseeds
      rw [hsome] at hrest
      rw [hnone]
      simpa using hrest
    | false =>
      cases hanchor : s.ntpServer.clockAnchor.isSome with
      | true =>
        rw [isSome_anchor_step hanchor] at hrest
        simpa using hrest
      | false => simpa using hrest.trans (Bool.toNat_le _)

section

variable (acl : Acl) (gps : GpsSnapshot) (rtcPresent : Bool) (bootRtcUnix : Option ℤ) (seedUs : ℤ)
  {startUs : ℤ} (evs : List LoopEvent)

/-- **Fallbacks are at least a second apart**, and at most one of a run changes the server, none if
the server was seeded when the board booted. -/
theorem fallbacks_spaced (hstart : 0 < startUs) :
    (collected step fallbackBy (entered acl gps rtcPresent bootRtcUnix seedUs startUs) evs).IsChain
        (Spaced fun _ => FALLBACK_INTERVAL_US) ∧
      metCount step seeds (entered acl gps rtcPresent bootRtcUnix seedUs startUs) evs ≤
        (!bootRtcUnix.isSome).toNat := by
  refine ⟨timer_fallback.spaced rfl hstart evs, (metCount_seeds_le evs).trans_eq ?_⟩
  cases bootRtcUnix <;> rfl

/-- The chip's time changes after the first fallback, and the server keeps what it has. -/
theorem fallbacks_spaced_outage :
    (collected step fallbackBy (entered .allowAll .default true none 0 5000000)
        [.publishRtc ⟨true, some 1709251200⟩, .rtcFallback 3, .tick 400000, .rtcFallback 3,
          .publishRtc ⟨true, some 1709251202⟩, .tick 600000, .rtcFallback 3]).IsChain
        (Spaced fun _ => FALLBACK_INTERVAL_US) ∧
      metCount step seeds (entered .allowAll .default true none 0 5000000)
        [.publishRtc ⟨true, some 1709251200⟩, .rtcFallback 3, .tick 400000, .rtcFallback 3,
          .publishRtc ⟨true, some 1709251202⟩, .tick 600000, .rtcFallback 3] ≤ 1 :=
  fallbacks_spaced .allowAll .default true none 0 _ (by decide)

end

/-! ## The requests -/

/-- The first setting of the chip has been queued, or is not to be. -/
def Set (s : MainLoop) : Prop := s.rtcPresent = false ∨ s.rtcSeededFromGps = true

theorem Set.step (h : s.Set) (e : LoopEvent) : s.initialBy e = none ∧ (s.step e).Set := by
  cases e with
  | gpsPoll gps calls =>
    rw [gpsPoll_eq]
    exact ⟨rfl, h⟩
  | rtcFallback seedDelayUs =>
    refine ⟨rfl, ?_⟩
    rw [MainLoop.step, maybeApplyRtcFallback]
    split <;> exact h
  | pps ppsIntervalUs edgeUs snapshotDelayUs currentDelayUs reading =>
    refine ⟨rfl, ?_⟩
    rw [MainLoop.step, maybeWritebackRtc]
    split <;> exact h
  | selfCheck =>
    have hnone : s.initialSecs = none := by
      rw [initialSecs, if_neg]
      rcases h with h | h <;> simp [h]
    rw [MainLoop.step, selfCheck, initialBy, hnone]
    exact ⟨rfl, h⟩
  | _ => exact ⟨rfl, h⟩

/-- Queueing the first setting, the loop remembers it. -/
theorem set_of_initialBy {e : LoopEvent} {utc : ℤ} (h : s.initialBy e = some utc) :
    (s.step e).Set := by
  cases e with
  | selfCheck =>
    rw [initialBy] at h
    rw [step, selfCheck, h]
    exact .inr rfl
  | _ => cases h

theorem initials_of_set (h : s.Set) (evs : List LoopEvent) :
    collected step initialBy s evs = [] := by
  induction evs generalizing s with
  | nil => rfl
  | cons e evs ih => rw [collected, (h.step e).1, ih (h.step e).2]; rfl

theorem length_initials_le (evs : List LoopEvent) :
    (collected step initialBy s evs).length ≤ 1 := by
  induction evs generalizing s with
  | nil => exact Nat.zero_le _
  | cons e evs ih =>
    rw [collected]
    cases hinitial : s.initialBy e with
    | none => exact ih
    | some utc => rw [initials_of_set (set_of_initialBy hinitial)]; exact le_rfl

section

variable (acl : Acl) (gps : GpsSnapshot) (rtcPresent : Bool) (bootRtcUnix : Option ℤ) (seedUs : ℤ)
  {startUs : ℤ} (evs : List LoopEvent)

/-- **Write-backs are at least a minute apart**, so that the time a run lasts bounds their number,
and beside them the chip is set at most once, if it came without a time. -/
theorem writebacks_spaced (hstart : 0 < startUs) :
    (collected step writebackBy (entered acl gps rtcPresent bootRtcUnix seedUs startUs) evs).IsChain
        (Spaced fun _ => WRITEBACK_INTERVAL_US) ∧
      (collected step writebackBy (entered acl gps rtcPresent bootRtcUnix seedUs startUs)
          evs).length ≤
        ((run step (entered acl gps rtcPresent bootRtcUnix seedUs startUs) evs).nowUs - startUs) /
          WRITEBACK_INTERVAL_US + 1 ∧
      (collected step initialBy (entered acl gps rtcPresent bootRtcUnix seedUs startUs)
        evs).length ≤ (rtcPresent && !bootRtcUnix.isSome).toNat := by
  refine ⟨timer_writeback.spaced rfl hstart evs,
    timer_writeback.length_le rfl hstart (by decide) (fun _ => le_rfl) evs, ?_⟩
  cases hset : rtcPresent && !bootRtcUnix.isSome with
  | true => exact length_initials_le evs
  | false =>
    have hstarted : (entered acl gps rtcPresent bootRtcUnix seedUs startUs).Set := by
      rw [Set, entered]
      revert hset
      cases rtcPresent <;> cases bootRtcUnix <;> simp
    rw [initials_of_set hstarted]
    exact le_rfl

end

/-- A snapshot with a fix and a time. -/
def fixAt (utc : ℤ) : GpsSnapshot :=
  { GpsSnapshot.default with fix := true, utcUnixSeconds := some utc }

/-- A lock, the first fix, and pulses over more than a minute. -/
def lockedMinute : List LoopEvent :=
  [.gpsPoll (fixAt 1709251199) [(.onFix (fixAt 1709251199), 10)], .tick 700000,
    .pps none 5700000 2 3 ⟨5700002, none⟩, .selfCheck, .tick 1000000,
    .pps (some 1000000) 6700000 2 3 ⟨6700002, none⟩, .tick 59000000,
    .pps (some 1000000) 65700000 2 3 ⟨65700002, none⟩]

theorem writebacks_spaced_lockedMinute :
    (collected step writebackBy (entered .allowAll .default true none 0 5000000)
        lockedMinute).IsChain (Spaced fun _ => WRITEBACK_INTERVAL_US) ∧
      (collected step writebackBy (entered .allowAll .default true none 0 5000000)
          lockedMinute).length ≤
        ((run step (entered .allowAll .default true none 0 5000000) lockedMinute).nowUs - 5000000) /
          WRITEBACK_INTERVAL_US + 1 ∧
      (collected step initialBy (entered .allowAll .default true none 0 5000000)
        lockedMinute).length ≤ 1 :=
  writebacks_spaced .allowAll .default true none 0 lockedMinute (by decide)

/-! ## What they depend on -/

/-- The events that are not about the time of the chip. -/
def notRtc : LoopEvent → Bool
  | .rtcFallback _ | .publishRtc _ | .takeRtcWrite => false
  | _ => true

/-- The servers are related, and the rest of the loop's state is the same but for the feed. -/
structure Related (s t : MainLoop) : Prop where
  ntpServer : NtpServer.SeedRelated s.ntpServer t.ntpServer
  rest : t = { s with
    ntpServer := t.ntpServer
    uiFeed := t.uiFeed
    lastRtcFallbackUs := t.lastRtcFallbackUs }

theorem seedRelated_ntpRun {server server' : NtpServer} (h : NtpServer.SeedRelated server server')
    {evs : List Event} (hevs : ∀ e ∈ evs, e.notSeed = true) :
    NtpServer.SeedRelated (run NtpServer.step server evs) (run NtpServer.step server' evs) := by
  induction evs generalizing server server' with
  | nil => exact h
  | cons e evs ih =>
    exact ih (h.step (hevs e List.mem_cons_self)) fun e' he' =>
      hevs e' (List.mem_cons_of_mem _ he')

/-- Under a lock that is advertised related servers are equal. -/
theorem eq_of_state_locked {server server' : NtpServer}
    (h : NtpServer.SeedRelated server server') {gpsFix : Bool} {nowUs : ℤ} {reading : ClockReading}
    (hstate : (server.disciplineParams gpsFix nowUs reading).state = .locked) :
    server' = server := by
  obtain ⟨-, edgeUs, hlast, -⟩ :=
    (NtpServer.state_eq_locked_iff h.left gpsFix nowUs reading).mp hstate
  exact h.eq_of_locked (h.left.locked_iff.mpr (by rw [hlast]; rfl))

theorem Related.symm (h : Related s t) : Related t s where
  ntpServer := h.ntpServer.symm
  rest := by rw [h.rest]

/-- What related loops write back is the same. -/
theorem Related.writebackSecs_of_some (h : Related s t) {snapshotDelayUs currentDelayUs : ℕ}
    {reading : ClockReading} {secs : ℤ}
    (hsecs : s.writebackSecs snapshotDelayUs currentDelayUs reading = some secs) :
    t.writebackSecs snapshotDelayUs currentDelayUs reading = some secs := by
  obtain ⟨hfix, hstate, hdue, hcurrent⟩ := writebackSecs_eq_some_iff.mp hsecs
  have hserver := eq_of_state_locked h.ntpServer hstate
  rw [writebackSecs_eq_some_iff, h.rest, hserver]
  exact ⟨hfix, hstate, hdue, hcurrent⟩

theorem Related.writebackSecs (h : Related s t) (snapshotDelayUs currentDelayUs : ℕ)
    (reading : ClockReading) :
    t.writebackSecs snapshotDelayUs currentDelayUs reading =
      s.writebackSecs snapshotDelayUs currentDelayUs reading := by
  refine Option.ext fun secs => ⟨fun hsecs => ?_, fun hsecs => ?_⟩
  · exact h.symm.writebackSecs_of_some hsecs
  · exact h.writebackSecs_of_some hsecs

/-- Related loops make the same calls of their servers, seeds apart. -/
theorem Related.ntpEvents (h : Related s t) {e : LoopEvent} (he : notRtc e = true) :
    t.ntpEvents e = s.ntpEvents e ∧ ∀ call ∈ s.ntpEvents e, call.notSeed = true := by
  rw [h.rest]
  cases e with
  | gpsPoll gps calls =>
    refine ⟨rfl, fun call hcall => ?_⟩
    obtain ⟨⟨_ | _ | _ | gps, delayUs⟩, -, hupdate⟩ := List.mem_filterMap.mp hcall
    · cases hupdate
    · cases hupdate
    · cases hupdate
    · obtain ⟨utc, -, rfl⟩ := Option.map_eq_some_iff.mp hupdate
      rfl
  | rtcFallback seedDelayUs => cases he
  | ntpPoll ds => exact ⟨rfl, by simp [MainLoop.ntpEvents, Event.notSeed]⟩
  | pps ppsIntervalUs edgeUs snapshotDelayUs currentDelayUs reading =>
    exact ⟨rfl, by simp [MainLoop.ntpEvents, Event.notSeed]⟩
  | _ => exact ⟨rfl, fun _ hcall => absurd hcall List.not_mem_nil⟩

/-- **Every other event keeps related loops related**, and queues the same in both. -/
theorem Related.step (h : Related s t) {e : LoopEvent} (he : notRtc e = true) :
    Related (s.step e) (t.step e) ∧ t.requestBy e = s.requestBy e := by
  have hserver : NtpServer.SeedRelated (s.step e).ntpServer (t.step e).ntpServer := by
    rw [ntpServer_step, ntpServer_step, (h.ntpEvents he).1]
    exact seedRelated_ntpRun h.ntpServer (h.ntpEvents he).2
  suffices hrest : (t.step e = { s.step e with
      ntpServer := (t.step e).ntpServer
      uiFeed := (t.step e).uiFeed
      lastRtcFallbackUs := (t.step e).lastRtcFallbackUs }) ∧ t.requestBy e = s.requestBy e from
    ⟨⟨hserver, hrest.1⟩, hrest.2⟩
  cases e with
  | gpsPoll gps calls =>
    rw [gpsPoll_eq, gpsPoll_eq, h.rest]
    exact ⟨rfl, rfl⟩
  | pps ppsIntervalUs edgeUs snapshotDelayUs currentDelayUs reading =>
    have hpps : Related (s.observePps ppsIntervalUs edgeUs) (t.observePps ppsIntervalUs edgeUs) :=
      ⟨@NtpServer.SeedRelated.step _ _ h.ntpServer (.observePpsPulse ppsIntervalUs edgeUs) rfl, by
        rw [h.rest]
        rfl⟩
    have hsecs := hpps.writebackSecs snapshotDelayUs currentDelayUs reading
    have hnow : t.nowUs = s.nowUs := by rw [h.rest]
    constructor
    · rw [MainLoop.step, MainLoop.step, maybeWritebackRtc, maybeWritebackRtc, hsecs, hpps.rest]
      split <;> rfl
    · rw [requestBy, requestBy, writebackBy, writebackBy, hsecs, hnow]
      rfl
  | selfCheck =>
    have hsecs : t.initialSecs = s.initialSecs := by rw [h.rest]; rfl
    constructor
    · rw [MainLoop.step, MainLoop.step, selfCheck, selfCheck, hsecs, h.rest]
      dsimp only
      split <;> rfl
    · rw [requestBy, requestBy, initialBy, initialBy, hsecs]
      rfl
  | rtcFallback seedDelayUs => cases he
  | publishRtc snap => cases he
  | takeRtcWrite => cases he
  | _ =>
    rw [h.rest]
    exact ⟨rfl, rfl⟩

/-- The chip's time reaches one of two related loops. -/
theorem Related.step_left (h : Related s t) {e : LoopEvent} (he : notRtc e = false) :
    Related (s.step e) t ∧ s.requestBy e = none := by
  cases e with
  | rtcFallback seedDelayUs =>
    refine ⟨?_, rfl⟩
    rw [MainLoop.step, maybeApplyRtcFallback]
    cases s.fallbackSecs with
    | none => exact h
    | some secs =>
      refine ⟨h.ntpServer.seed_left secs _, ?_⟩
      rw [h.rest]
  | publishRtc snap =>
    refine ⟨⟨h.ntpServer, ?_⟩, rfl⟩
    rw [h.rest]
    rfl
  | takeRtcWrite =>
    refine ⟨⟨h.ntpServer, ?_⟩, rfl⟩
    rw [h.rest]
    rfl
  | _ => cases he

/-- The requests of a run. -/
def requests (s : MainLoop) (evs : List LoopEvent) : List ℤ := collected step requestBy s evs

theorem Related.requests (h : Related s t) (evs : List LoopEvent) :
    requests s evs = MainLoop.requests t (evs.filter notRtc) := by
  have hrefines := @collected_refines _ _ _ _ _ MainLoop.step MainLoop.step Related
    (fun _ => Option.guard notRtc) requestBy requestBy
    (fun s t e h => by
      cases he : notRtc e with
      | true => simpa [Option.guard, he] using (h.step he).1
      | false => simpa [Option.guard, he] using (h.step_left he).1)
    (fun s t e h => by
      cases he : notRtc e with
      | true => simpa [Option.guard, he] using (h.step he).2.symm
      | false => simpa [Option.guard, he] using (h.step_left he).2)
    s t h evs
  rwa [@collected_eq_filterMap _ _ _ MainLoop.step (fun _ => Option.guard notRtc)
    (Option.guard notRtc) evs (fun _ _ _ => rfl) s, List.filterMap_eq_filter] at hrefines

section

variable (acl : Acl) (gps : GpsSnapshot) (rtcPresent : Bool) {boot₁ boot₂ : Option ℤ}
  (seedUs startUs : ℤ)

/-- Boots that find another time in the chip, or the same. -/
theorem related_entered (hboot : boot₁.isSome = boot₂.isSome) :
    Related (entered acl gps rtcPresent boot₁ seedUs startUs)
      (entered acl gps rtcPresent boot₂ seedUs startUs) := by
  have hfresh : (NtpServer.fromSocket.setAcl acl).WellFormed :=
    NtpServer.wellFormed_fromSocket.step (.setAcl acl)
  have hserver : ∀ boot : Option ℤ, NtpServer.SeedRelated (initNtpServer acl boot seedUs)
      (NtpServer.fromSocket.setAcl acl) := by
    intro boot
    cases boot with
    | none => exact .refl hfresh
    | some secs => exact (NtpServer.SeedRelated.refl hfresh).seed_left secs seedUs
  refine ⟨(hserver boot₁).trans (hserver boot₂).symm, ?_⟩
  rw [entered, entered, hboot]

end

/-- What an event does to the slot of one. -/
def slotOp (s : MainLoop) : LoopEvent → Option (Mailbox.Op ℤ)
  | .takeRtcWrite => some .take
  | e => (s.requestBy e).map .store

/-- The time that `sample_sensors` takes out of the slot to write it to the chip. -/
def takenBy (s : MainLoop) : LoopEvent → Option ℤ
  | .takeRtcWrite => if 0 < s.uiFeed.rtcWritePending then some s.uiFeed.rtcWritePending else none
  | _ => none

/-- The pending time stands for a slot, in which none is zero. -/
def Holds (s : MainLoop) (slot : Option ℤ) : Prop := s.uiFeed.rtcWritePending = slot.getD 0

theorem Holds.step {slot : Option ℤ} (h : s.Holds slot) (e : LoopEvent) :
    (s.step e).Holds (run Mailbox.step slot (s.slotOp e).toList) := by
  cases e with
  | gpsPoll gps calls =>
    rw [gpsPoll_eq]
    exact h
  | rtcFallback seedDelayUs =>
    rw [MainLoop.step, maybeApplyRtcFallback]
    split <;> exact h
  | pps ppsIntervalUs edgeUs snapshotDelayUs currentDelayUs reading =>
    simp only [MainLoop.step, maybeWritebackRtc, slotOp, requestBy, writebackBy]
    cases (s.observePps ppsIntervalUs edgeUs).writebackSecs snapshotDelayUs currentDelayUs
        reading with
    | none => exact h
    | some secs => rfl
  | selfCheck =>
    simp only [MainLoop.step, selfCheck, slotOp, requestBy, writebackBy, initialBy]
    cases s.initialSecs with
    | none => exact h
    | some utc => rfl
  | takeRtcWrite => rfl
  | _ => exact h

theorem Holds.takenBy {slot : Option ℤ} (h : s.Holds slot) (e : LoopEvent) :
    s.takenBy e = (s.slotOp e).bind fun op => (Mailbox.taken slot op).filter (0 < ·) := by
  cases e with
  | takeRtcWrite =>
    rw [MainLoop.takenBy, h]
    cases slot with
    | none => rfl
    | some u => simp [slotOp, Mailbox.taken, Option.filter]
  | _ =>
    simp only [MainLoop.takenBy, slotOp]
    cases s.requestBy _ <;> rfl

/-- What is stored into the slot are the requests. -/
theorem stored_slotOps (evs : List LoopEvent) :
    Mailbox.stored (collected step slotOp s evs) = requests s evs := by
  induction evs generalizing s with
  | nil => rfl
  | cons e evs ih =>
    rw [requests, collected, collected, ← requests, ← ih]
    cases e with
    | takeRtcWrite => rfl
    | _ =>
      simp only [slotOp]
      cases s.requestBy _ <;> rfl

/-- **The panel takes the newest request**, once, and one that no other has replaced before: what it
takes is decided by the order of the requests and its visits, and is in their order. -/
theorem taken_newest (acl : Acl) (gps : GpsSnapshot) (rtcPresent : Bool) (bootRtcUnix : Option ℤ)
    (seedUs startUs : ℤ) (evs : List LoopEvent) :
    let s₀ := entered acl gps rtcPresent bootRtcUnix seedUs startUs
    collected step takenBy s₀ evs =
        (Mailbox.delivered (collected step slotOp s₀ evs)).filter (0 < ·) ∧
      (collected step takenBy s₀ evs).Sublist (requests s₀ evs) := by
  intro s₀
  have hrefines := @collected_refines _ _ _ _ _ step Mailbox.step Holds slotOp takenBy
    (fun slot op => (Mailbox.taken slot op).filter (0 < ·)) (fun _ _ e h => h.step e)
    (fun _ _ e h => h.takenBy e) s₀ none rfl evs
  rw [collected_filter, Mailbox.collected_taken] at hrefines
  refine ⟨hrefines, ?_⟩
  rw [hrefines, ← stored_slotOps]
  exact List.filter_sublist.trans (Mailbox.delivered_sublist _)

end GpsNtp.App.MainLoop
