import GpsNtp.Ntp.RateLimit
import GpsNtp.Ntp.Shapes

/-!
# Scripts/Load — a load generator that the limiter lets through

    worker    send ─────────▸ done ── sleep interval ──▸ send ─────────▸ done ── ⋯
    server         handled                                    handled
                      └──────── at least the interval ───────────┘

`worker_main` of `load_ntp.py` against the limiter of the server.  A worker waits for its answer, or
for the timeout, and only then sleeps.  So the requests of one worker are an interval apart where
they are handled, as long as none is delivered after the wait for it, and with the limiter's
interval or more none of them is refused, whatever else the server serves.
-/

namespace GpsNtp.Scripts

open MachineInt Machine NtpServer

/-! ## The worker -/

/-- What one turn of the loop meets, in µs: when its request is handled, if it is, when the client
stops waiting, and how long it oversleeps. -/
structure Turn where
  handledAfter : Option ℕ
  doneAfter : ℕ
  overslept : ℕ
  /-- The network delivers a request while it is waited for, or not at all. -/
  inTime : ∀ t ∈ handledAfter, t ≤ doneAfter

/-- A query of the worker, on the server's timer. -/
structure Query where
  sentUs : ℤ
  handledUs : Option ℤ
  doneUs : ℤ
deriving DecidableEq

/-- The query that a turn makes at `nowUs`. -/
def Turn.query (turn : Turn) (nowUs : ℤ) : Query where
  sentUs := nowUs
  handledUs := turn.handledAfter.map fun (t : ℕ) => nowUs + t
  doneUs := nowUs + turn.doneAfter

/-- `worker_main`, the queries that it makes from `nowUs` on. -/
def workerMain (intervalUs deadlineUs : ℤ) (nowUs : ℤ) : List Turn → List Query
  | [] => []
  | turn :: turns =>
    if nowUs < deadlineUs then
      let query := turn.query nowUs
      let remainingUs := deadlineUs - query.doneUs
      if remainingUs ≤ 0 then [query]
      else
        let wakesUs := query.doneUs + min intervalUs remainingUs + turn.overslept
        query :: workerMain intervalUs deadlineUs wakesUs turns
    else []

/-- When the server handled the queries. -/
def handledTimes (queries : List Query) : List ℤ := queries.flatMap fun q => q.handledUs.toList

theorem workerMain_of_le {intervalUs deadlineUs nowUs : ℤ} (h : deadlineUs ≤ nowUs)
    (turns : List Turn) : workerMain intervalUs deadlineUs nowUs turns = [] := by
  cases turns with
  | nil => rfl
  | cons turn turns => rw [workerMain, if_neg (by omega)]

/-- A query is handled, if at all, between its sending and the end of the wait. -/
theorem mem_handledUs {turn : Turn} {nowUs t : ℤ}
    (h : t ∈ (turn.query nowUs).handledUs.toList) :
    nowUs ≤ t ∧ t ≤ (turn.query nowUs).doneUs := by
  obtain ⟨afterUs, hafter, rfl⟩ := Option.map_eq_some_iff.mp (Option.mem_toList.mp h)
  have hin := turn.inTime afterUs hafter
  dsimp only [Turn.query]
  omega

/-- **The queries of a worker are handled an interval apart**, and none before it starts. -/
theorem pairwise_workerMain {intervalUs deadlineUs : ℤ} (hinterval : 0 ≤ intervalUs)
    (turns : List Turn) (nowUs : ℤ) :
    (handledTimes (workerMain intervalUs deadlineUs nowUs turns)).Pairwise
        (fun t u => t + intervalUs ≤ u) ∧
      ∀ t ∈ handledTimes (workerMain intervalUs deadlineUs nowUs turns), nowUs ≤ t := by
  induction turns generalizing nowUs with
  | nil => exact ⟨.nil, nofun⟩
  | cons turn turns ih =>
    have hsingle :
        (turn.query nowUs).handledUs.toList.Pairwise (fun t u => t + intervalUs ≤ u) := by
      cases (turn.query nowUs).handledUs with
      | none => exact .nil
      | some t => exact List.pairwise_singleton _ _
    have hdone : nowUs ≤ (turn.query nowUs).doneUs := by
      dsimp only [Turn.query]
      omega
    rw [workerMain]
    split_ifs with hnow
    · dsimp only
      split_ifs with hremaining
      · rw [handledTimes, List.flatMap_singleton]
        exact ⟨hsingle, fun t ht => (mem_handledUs ht).1⟩
      · rw [handledTimes, List.flatMap_cons]
        generalize hwakes : (turn.query nowUs).doneUs +
          min intervalUs (deadlineUs - (turn.query nowUs).doneUs) + turn.overslept = wakesUs
        obtain ⟨hrest, hlater⟩ := ih wakesUs
        -- a worker that wakes before the deadline has slept for the whole interval
        have hslept : ∀ t ∈ handledTimes (workerMain intervalUs deadlineUs wakesUs turns),
            (turn.query nowUs).doneUs + intervalUs ≤ t := by
          intro t ht
          have hawake : wakesUs < deadlineUs := by
            by_contra hlate
            rw [workerMain_of_le (not_lt.mp hlate)] at ht
            cases ht
          have hle := hlater t ht
          omega
        refine ⟨List.pairwise_append.mpr ⟨hsingle, hrest, fun t ht u hu => ?_⟩, fun t ht => ?_⟩
        · have hin := (mem_handledUs ht).2
          have hafter := hslept u hu
          omega
        · rcases List.mem_append.mp ht with ht | ht
          · exact (mem_handledUs ht).1
          · have hafter := hslept t ht
            omega
    · exact ⟨.nil, nofun⟩

/-! ## The limiter, one datagram at a time -/

/-- The address has been let through at one of these times, if it is in the table. -/
def Recorded (ip : UInt32) (times : List ℤ) (l : RateLimiter) : Prop :=
  ∀ e, some e ∈ l.table → e.addr = ip → e.lastUs ∈ times

theorem Recorded.mono {ip : UInt32} {times times' : List ℤ} {l : RateLimiter}
    (h : Recorded ip times l) (hsub : times ⊆ times') : Recorded ip times' l :=
  fun e he haddr => hsub (h e he haddr)

/-- A slot of the table after a request is that of the request or an old one. -/
theorem mem_check {l : RateLimiter} {addr : UInt32} {nowUs : ℤ} {e : ClientRecord}
    (h : some e ∈ (l.check addr nowUs).1.table) : e = ⟨addr, nowUs⟩ ∨ some e ∈ l.table := by
  have hslot : ∀ {l₁ l₂ : List (Option ClientRecord)} {x : Option ClientRecord},
      l.table = l₁ ++ x :: l₂ → (l.check addr nowUs).1.table = l₁ ++ some ⟨addr, nowUs⟩ :: l₂ →
      e = ⟨addr, nowUs⟩ ∨ some e ∈ l.table := by
    intro l₁ l₂ x hold hnew
    rw [hnew, List.mem_append, List.mem_cons] at h
    rw [hold, List.mem_append, List.mem_cons]
    rcases h with h | h | h
    · exact .inr (.inl h)
    · exact .inl (Option.some.inj h)
    · exact .inr (.inr (.inr h))
  rcases RateLimiter.check_cases l addr nowUs with
    ⟨l₁, e', l₂, htable, -, ⟨-, hsame, -⟩ | ⟨-, hnew, -⟩⟩ | ⟨-, l₁, x, l₂, htable, hnew, -, -⟩
  · exact .inr (hsame ▸ h)
  · exact hslot htable hnew
  · exact hslot htable hnew

theorem Recorded.check {ip : UInt32} {times : List ℤ} {l : RateLimiter} (h : Recorded ip times l)
    (addr : UInt32) (nowUs : ℤ) (htimes : addr = ip → nowUs ∈ times) :
    Recorded ip times (l.check addr nowUs).1 := by
  intro e he haddr
  rcases mem_check he with rfl | hold
  · exact htimes haddr
  · exact h e hold haddr

/-- **An address that keeps the interval is let through.** -/
theorem Recorded.allowed {ip : UInt32} {times : List ℤ} {l : RateLimiter} (h : Recorded ip times l)
    {nowUs : ℤ} (hspaced : ∀ t ∈ times, t + minPollIntervalUs ≤ nowUs) :
    (l.check ip nowUs).2 = true := by
  rcases RateLimiter.check_cases l ip nowUs with
    ⟨l₁, e, l₂, htable, haddr, ⟨hsoon, -, -⟩ | ⟨-, -, hok⟩⟩ | ⟨-, -, -, -, -, -, hok, -⟩
  · have hlast := hspaced e.lastUs (h e (htable ▸ by simp) haddr)
    have hearly := RateLimiter.tooSoon_iff.mp hsoon
    omega
  · exact hok
  · exact hok

/-- What asking the limiter does: nothing where there is no address, else a `check`. -/
theorem serveLimited_limiter {s : NtpServer} (srcIpV4 : Option UInt32) (clock : PollClock)
    (sendOk : Bool) (refusal : Disposition) (resp : NtpServer → List UInt8) :
    let r := s.serveLimited srcIpV4 clock sendOk refusal resp
    (r.1.rateLimiter = s.rateLimiter ∧ r.2.isLimited = false) ∨
      ∃ ip, srcIpV4 = some ip ∧ r.1.rateLimiter = (s.rateLimiter.check ip clock.rateLimit).1 ∧
        (r.2.isLimited = true → (s.rateLimiter.check ip clock.rateLimit).2 = false) := by
  intro r
  cases srcIpV4 with
  | none => cases sendOk <;> exact .inl ⟨rfl, rfl⟩
  | some ip =>
    refine .inr ⟨ip, rfl, ?_⟩
    by_cases hallowed : (s.rateLimiter.check ip clock.rateLimit).2 = true
    · simp only [r, serveLimited, tryRateLimit, if_pos hallowed]
      cases sendOk <;> exact ⟨rfl, fun h => absurd h Bool.false_ne_true⟩
    · simp only [r, serveLimited, tryRateLimit, if_neg hallowed]
      exact ⟨rfl, fun _ => Bool.eq_false_iff.mpr hallowed⟩

/-- **A datagram asks the limiter once**, or not at all. -/
theorem handleDatagram_limiter {s : NtpServer} (gpsFix : Bool) (req : List UInt8) (len : ℕ)
    (d : Datagram) :
    let r := s.handleDatagram gpsFix req len d
    (r.1.rateLimiter = s.rateLimiter ∧ r.2.isLimited = false) ∨
      ∃ ip, d.peer.srcIpV4 = some ip ∧
        r.1.rateLimiter = (s.rateLimiter.check ip d.clock.rateLimit).1 ∧
        (r.2.isLimited = true → (s.rateLimiter.check ip d.clock.rateLimit).2 = false) := by
  simp only [handleDatagram, handleControl, handleTimeRequest]
  split_ifs <;> first | exact .inl ⟨rfl, rfl⟩ | exact serveLimited_limiter ..

/-! ## Whole runs of the server -/

/-- The datagrams that a call of the server reads. -/
def datagramsOf : Event → List Datagram
  | .poll _ ds => ds
  | _ => []

/-- The datagrams that a run of the server handles, each with what becomes of it. -/
def handled (s : NtpServer) (evs : List Event) : List (Datagram × Disposition) :=
  (transcript call s evs).flatMap fun p => (datagramsOf p.1).zip p.2

/-- When those of one address are handled. -/
def readings (ip : UInt32) (ps : List (Datagram × Disposition)) : List ℤ :=
  ps.flatMap fun p => if p.1.peer.srcIpV4 = some ip then [p.1.clock.rateLimit] else []

/-- None of the datagrams of an address is refused for coming too soon. -/
def Unlimited (ip : UInt32) (ps : List (Datagram × Disposition)) : Prop :=
  ∀ p ∈ ps, p.1.peer.srcIpV4 = some ip → p.2.isLimited = false

theorem unlimited_nil (ip : UInt32) : Unlimited ip [] := fun _ hp => absurd hp List.not_mem_nil

theorem unlimited_append {ip : UInt32} {ps ps' : List (Datagram × Disposition)}
    (h : Unlimited ip ps) (h' : Unlimited ip ps') : Unlimited ip (ps ++ ps') :=
  fun p hp => (List.mem_append.mp hp).elim (h p) (h' p)

/-- What has been handled of an address so far, and what is handled now. -/
theorem readings_append (ip : UInt32) (ps ps' : List (Datagram × Disposition)) :
    readings ip (ps ++ ps') = readings ip ps ++ readings ip ps' := List.flatMap_append

/-- **One datagram**: an address that keeps the interval is let through, and stays on record. -/
theorem handleDatagram_unlimited {ip : UInt32} {s : NtpServer} {times : List ℤ}
    (hrecorded : Recorded ip times s.rateLimiter) {gpsFix : Bool} {req : List UInt8} {len : ℕ}
    {d : Datagram}
    (hspaced : d.peer.srcIpV4 = some ip →
      ∀ t ∈ times, t + minPollIntervalUs ≤ d.clock.rateLimit) :
    (d.peer.srcIpV4 = some ip → (s.handleDatagram gpsFix req len d).2.isLimited = false) ∧
      Recorded ip (times ++ readings ip [(d, (s.handleDatagram gpsFix req len d).2)])
        (s.handleDatagram gpsFix req len d).1.rateLimiter := by
  have hold := hrecorded.mono (List.subset_append_left times
    (readings ip [(d, (s.handleDatagram gpsFix req len d).2)]))
  rcases @handleDatagram_limiter s gpsFix req len d with
    ⟨hlimiter, hnot⟩ | ⟨addr, haddr, hlimiter, hrefused⟩
  · rw [hlimiter]
    exact ⟨fun _ => hnot, hold⟩
  · rw [hlimiter]
    refine ⟨fun hpeer => ?_, hold.check addr _ fun heq => ?_⟩
    · obtain rfl : addr = ip := Option.some.inj (haddr.symm.trans hpeer)
      have hallowed := hrecorded.allowed (hspaced hpeer)
      rw [← Bool.not_eq_true]
      exact fun hlimited => Bool.false_ne_true ((hrefused hlimited).symm.trans hallowed)
    · rw [readings, List.flatMap_singleton, if_pos (haddr.trans (congrArg some heq))]
      exact List.mem_append_right _ (List.mem_singleton_self _)

/-- **One poll** lets an address through that keeps the interval. -/
theorem pollLoop_unlimited {ip : UInt32} {gpsFix : Bool} (ds : List Datagram) {st : PollState}
    {times : List ℤ} (hrecorded : Recorded ip times st.server.rateLimiter)
    (hspaced : (times ++ readings ip (ds.zip (pollLoop gpsFix st ds).2)).Pairwise
      fun t u => t + minPollIntervalUs ≤ u) :
    Unlimited ip (ds.zip (pollLoop gpsFix st ds).2) ∧
      Recorded ip (times ++ readings ip (ds.zip (pollLoop gpsFix st ds).2))
        (pollLoop gpsFix st ds).1.rateLimiter := by
  induction ds generalizing st times with
  | nil =>
    rw [List.zip_nil_left]
    exact ⟨unlimited_nil ip, hrecorded.mono (List.subset_append_left _ _)⟩
  | cons d ds ih =>
    obtain ⟨hserver, hdisposition⟩ := pollStep_eq gpsFix st d
    rw [pollLoop_cons_snd, List.zip_cons_cons, ← List.singleton_append, readings_append,
      ← List.append_assoc] at hspaced ⊢
    rw [pollLoop_cons_fst]
    have hspacedHere : d.peer.srcIpV4 = some ip →
        ∀ t ∈ times, t + minPollIntervalUs ≤ d.clock.rateLimit := by
      intro hpeer t ht
      refine (List.pairwise_append.mp (List.pairwise_append.mp hspaced).1).2.2 t ht _ ?_
      rw [readings, List.flatMap_singleton, if_pos hpeer]
      exact List.mem_singleton_self _
    have hhere := @handleDatagram_unlimited ip st.server times hrecorded gpsFix d.bytes
      (min d.bytes.length ntpMaxPacketLen) d hspacedHere
    rw [← hserver, ← hdisposition] at hhere
    have hrest : Unlimited ip (ds.zip (if (pollStep gpsFix st d).2.failed then []
          else (pollLoop gpsFix (pollStep gpsFix st d).1 ds).2)) ∧
        Recorded ip (times ++ readings ip [(d, (pollStep gpsFix st d).2)] ++
            readings ip (ds.zip (if (pollStep gpsFix st d).2.failed then []
              else (pollLoop gpsFix (pollStep gpsFix st d).1 ds).2)))
          (if (pollStep gpsFix st d).2.failed then (pollStep gpsFix st d).1.server
            else (pollLoop gpsFix (pollStep gpsFix st d).1 ds).1).rateLimiter := by
      split_ifs at hspaced ⊢
      · rw [List.zip_nil_right]
        exact ⟨unlimited_nil ip, hhere.2.mono (List.subset_append_left _ _)⟩
      · exact ih hhere.2 hspaced
    refine ⟨unlimited_append (fun p hp hpeer => ?_) hrest.1, hrest.2⟩
    obtain rfl := List.mem_singleton.mp hp
    exact hhere.1 hpeer

/-- Only a poll asks the limiter. -/
theorem step_limiter {s : NtpServer} {e : Event} (he : ∀ gpsFix ds, e ≠ .poll gpsFix ds) :
    (s.step e).rateLimiter = s.rateLimiter := by
  cases e with
  | seedUtcSeconds utc nowUs =>
    obtain ⟨anchor, hseed⟩ := @seedUtcSeconds_eq s utc nowUs
    exact (congrArg rateLimiter hseed).trans rfl
  | updateGpsUtcSeconds utc nowUs =>
    exact (congrArg rateLimiter (updateGpsUtcSeconds_eq utc nowUs)).trans rfl
  | observePpsPulse interval edgeUs =>
    change (s.observePpsPulse interval edgeUs).rateLimiter = _
    rw [observePpsPulse_eq]
    cases s.pulseOutcome interval edgeUs <;> rfl
  | setLeapIndicator li => rfl
  | setAcl acl => rfl
  | poll gpsFix ds => exact absurd rfl (he gpsFix ds)

/-- **A run** lets an address through that keeps the interval. -/
theorem handled_unlimited {ip : UInt32} (evs : List Event) {s : NtpServer} {times : List ℤ}
    (hrecorded : Recorded ip times s.rateLimiter)
    (hspaced : (times ++ readings ip (handled s evs)).Pairwise
      fun t u => t + minPollIntervalUs ≤ u) :
    Unlimited ip (handled s evs) := by
  induction evs generalizing s times with
  | nil => exact unlimited_nil ip
  | cons e evs ih =>
    have hcons : handled s (e :: evs) =
        (datagramsOf e).zip (s.call e).2 ++ handled (s.step e) evs := List.flatMap_cons
    rw [hcons, readings_append, ← List.append_assoc] at hspaced
    rw [hcons]
    have hstep : Unlimited ip ((datagramsOf e).zip (s.call e).2) ∧
        Recorded ip (times ++ readings ip ((datagramsOf e).zip (s.call e).2))
          (s.step e).rateLimiter := by
      cases e with
      | poll gpsFix ds => exact pollLoop_unlimited ds hrecorded (List.pairwise_append.mp hspaced).1
      | _ =>
        rw [step_limiter fun _ _ => Event.noConfusion]
        exact ⟨unlimited_nil ip, hrecorded.mono (List.subset_append_left _ _)⟩
    exact unlimited_append hstep.1 (ih hstep.2 hspaced)

/-- **A worker never comes too soon.**  Over every run of the server, whatever else it is called
with and serves: if the datagrams that it handles of an address are the queries of one worker, each
delivered while the worker waits for it or not at all, and the worker's interval is no less than the
limiter's, then none of them is refused, whichever of them or of the answers the network loses. -/
theorem worker_unlimited {ip : UInt32} {intervalUs deadlineUs startUs : ℤ} {turns : List Turn}
    (hinterval : minPollIntervalUs ≤ intervalUs) {evs : List Event}
    (hworker : readings ip (handled fromSocket evs) =
      handledTimes (workerMain intervalUs deadlineUs startUs turns)) :
    Unlimited ip (handled fromSocket evs) := by
  have hnew : Recorded ip [] fromSocket.rateLimiter := by
    intro e he
    exact absurd (List.eq_of_mem_replicate he) (Option.some_ne_none e)
  refine handled_unlimited evs hnew ?_
  rw [List.nil_append, hworker]
  have hpos : 0 ≤ minPollIntervalUs := by decide
  exact (pairwise_workerMain (hpos.trans hinterval) turns startUs).1.imp fun h => by omega

/-- A client request of an address, at a time. -/
def requestAt (ip : UInt32) (nowUs : ℤ) : Datagram :=
  { clientRequest with
    peer := .v4 ip 123
    clock := { clientRequest.clock with rateLimit := nowUs } }

/-- A query answered at once, one that is lost and one answered late, and beside them a client that
is refused. -/
theorem worker_unlimited_lostQuery :
    let evs : List Event := [.poll true [requestAt 1 900, requestAt 2 950],
      .poll true [requestAt 2 1950], .poll true [requestAt 1 14001020]]
    ((handled fromSocket evs).map fun p => p.2.isLimited) = [false, false, true, false] ∧
      Unlimited 1 (handled fromSocket evs) := by
  intro evs
  let turns : List Turn := [⟨some 900, 1000, 0, by decide⟩, ⟨none, 5000000, 20, by decide⟩,
    ⟨some 4000000, 5000000, 0, by decide⟩]
  have hworker : readings 1 (handled fromSocket evs) =
      handledTimes (workerMain 2500000 60000000 0 turns) := by decide +kernel
  exact ⟨by decide +kernel, worker_unlimited (by decide) hworker⟩

end GpsNtp.Scripts
