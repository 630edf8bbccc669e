import GpsNtp.Storage.Calls

/-!
# Storage/Usage — free space on the way to the panel

    panel   request_usage_refresh ─▸ flag                            pending ─▸ take_usage
    sd_io                              └─▸ read the card ─▸ last ─▸ pending ┘

The panel never waits for the card: it asks, and later takes what has been read.  Several requests
may be answered by one reading, and a reading not taken is replaced by the next, but what is taken
comes in the order it was read, each reading at most once.
-/

namespace GpsNtp.Storage

open Machine

variable {Client Access Outcome Value Card : Type*}

/-- What is shown for each reading of the card, where the numbers of one that fails are those
before it. -/
def shown (driver : Driver Card Access Outcome) : StorageStatus → List Card → List StorageStatus
  | _, [] => []
  | previous, card :: cards =>
    .refresh driver card previous :: shown driver (.refresh driver card previous) cards

/-- The status after all readings. -/
def latest (driver : Driver Card Access Outcome) (status : StorageStatus) (cards : List Card) :
    StorageStatus :=
  cards.foldl (fun previous card => .refresh driver card previous) status

theorem latest_append (driver : Driver Card Access Outcome) (status : StorageStatus)
    (cards : List Card) (card : Card) :
    latest driver status (cards ++ [card]) = .refresh driver card (latest driver status cards) :=
  List.foldl_append

theorem shown_append (driver : Driver Card Access Outcome) (status : StorageStatus)
    (cards cards' : List Card) :
    shown driver status (cards ++ cards') =
      shown driver status cards ++ shown driver (latest driver status cards) cards' := by
  induction cards generalizing status with
  | nil => rfl
  | cons card cards ih =>
    rw [List.cons_append, shown, shown, ih, List.cons_append]
    rfl

theorem length_shown (driver : Driver Card Access Outcome) (status : StorageStatus)
    (cards : List Card) : (shown driver status cards).length = cards.length := by
  induction cards generalizing status with
  | nil => rfl
  | cons card cards ih => rw [shown, List.length_cons, ih, List.length_cons]

/-- A status that has been read and not published. -/
def Worker.unpublished : Worker Client Access Outcome Value → List StorageStatus
  | .measured status | .remembering status | .publishing status => [status]
  | _ => []

/-- Whether a reading is due. -/
def Worker.due : Worker Client Access Outcome Value → Bool
  | .refreshing _ | .walking _ => true
  | _ => false

/-- Whether an event is a request of the panel. -/
def Event.asks : Event Client Access Outcome Value → Bool
  | .requestUsageRefresh => true
  | _ => false

namespace SdSystem

/-- The card that a step of the worker reads. -/
def readBy (s : SdSystem Client Access Outcome Value Card) :
    Event Client Access Outcome Value → Option Card
  | .worker =>
    match s.guard.watchdog, s.guard.stage, s.worker with
    | .restarted _, _, _ => none
    | _, .resting, .walking _ => some s.card
    | _, _, _ => none
  | _ => none

/-- What `take_usage` gives. -/
def takenBy (s : SdSystem Client Access Outcome Value Card) :
    Event Client Access Outcome Value → Option StorageStatus
  | .takeUsage =>
    match s.guard.watchdog with
    | .restarted _ => none
    | _ => s.pendingUsage
  | _ => none

/-- **The numbers on their way**: what was taken, what may be taken, and what is not published are
among the readings in their order; and every reading goes back to a request. -/
structure Shows (driver : Driver Card Access Outcome) (status : StorageStatus) (cards : List Card)
    (taken : List StorageStatus) (requests : ℕ)
    (s : SdSystem Client Access Outcome Value Card) : Prop where
  order : (taken ++ s.pendingUsage.toList ++ s.worker.unpublished).Sublist
    (shown driver status cards)
  last : match s.worker with
    | .refreshing previous | .walking previous =>
      previous = latest driver status cards ∧ s.lastUsage = latest driver status cards
    | .measured st | .remembering st => st = latest driver status cards
    | .publishing st => st = latest driver status cards ∧ s.lastUsage = latest driver status cards
    | _ => s.lastUsage = latest driver status cards
  count : cards.length + s.worker.due.toNat + s.usageRefresh.toNat ≤ requests

variable [DecidableEq Client] {driver : Driver Card Access Outcome} {status : StorageStatus}
  {cards : List Card} {taken : List StorageStatus} {requests : ℕ}
  {s : SdSystem Client Access Outcome Value Card}

omit [DecidableEq Client] in
theorem shows_mounted (guard : Guard) (card : Card) (ready : Bool) (status : StorageStatus) :
    Shows driver status [] [] 0
      (mounted guard card ready status : SdSystem Client Access Outcome Value Card) :=
  ⟨.slnil, rfl, le_rfl⟩

omit [DecidableEq Client] in
theorem Shows.of_eq (h : Shows driver status cards taken requests s)
    {s' : SdSystem Client Access Outcome Value Card} (hpending : s'.pendingUsage = s.pendingUsage)
    (hworker : s'.worker = s.worker) (hlast : s'.lastUsage = s.lastUsage)
    (hrefresh : s'.usageRefresh = s.usageRefresh) :
    Shows driver status cards taken requests s' := by
  obtain ⟨horder, hl, hcount⟩ := h
  refine ⟨by rwa [hpending, hworker], ?_, by rwa [hworker, hrefresh]⟩
  rw [hworker, hlast]
  exact hl

omit [DecidableEq Client] in
theorem readBy_worker (hrunning : ∀ label, s.guard.watchdog ≠ .restarted label) :
    s.readBy .worker =
      match s.guard.stage, s.worker with
      | .resting, .walking _ => some s.card
      | _, _ => none := by
  rw [readBy]
  cases hw : s.guard.watchdog with
  | restarted label => exact absurd hw (hrunning label)
  | _ => cases s.guard.stage <;> cases s.worker <;> rfl

theorem Shows.work (h : Shows driver status cards taken requests s)
    (hrunning : ∀ label, s.guard.watchdog ≠ .restarted label) :
    Shows driver status (cards ++ (s.readBy .worker).toList) taken requests (s.work driver) := by
  rw [readBy_worker hrunning]
  by_cases hstage : s.guard.stage = .resting
  · rw [SdSystem.work, hstage]
    obtain ⟨horder, hlast, hcount⟩ := h
    cases hworker : s.worker with
    | polling =>
      rw [hworker] at horder hlast hcount
      simp only [Option.toList_none, List.append_nil]
      cases hrefresh : s.usageRefresh with
      | true =>
        rw [hrefresh] at hcount
        cases s.ready with
        | true => exact ⟨horder, ⟨hlast, hlast⟩, hcount⟩
        | false => exact ⟨horder, hlast, (Nat.le_succ _).trans hcount⟩
      | false =>
        rw [hrefresh] at hcount
        exact ⟨horder, hlast, hcount⟩
    | refreshing previous =>
      rw [hworker] at horder hlast hcount
      simp only [Option.toList_none, List.append_nil]
      exact ⟨horder, hlast, hcount⟩
    | walking previous =>
      rw [hworker] at horder hlast hcount
      obtain ⟨rfl, -⟩ := hlast
      simp only [Option.toList_some]
      refine ⟨?_, ?_, ?_⟩
      · rw [shown_append]
        simp only [Worker.unpublished, List.append_nil] at horder
        exact horder.append (.refl _)
      · exact (latest_append driver status cards s.card).symm
      · rw [List.length_append]
        exact hcount
    | measured st =>
      rw [hworker] at horder hlast hcount
      simp only [Option.toList_none, List.append_nil]
      exact ⟨horder, hlast, hcount⟩
    | remembering st =>
      rw [hworker] at horder hlast hcount
      simp only [Option.toList_none, List.append_nil]
      exact ⟨horder, ⟨hlast, hlast⟩, hcount⟩
    | publishing st =>
      rw [hworker] at horder hlast hcount
      simp only [Option.toList_none, List.append_nil]
      refine ⟨?_, hlast.2, hcount⟩
      -- what was pending and not taken is lost
      have hsub : (taken ++ [st]).Sublist (taken ++ s.pendingUsage.toList ++ [st]) :=
        (List.sublist_append_left _ _).append (.refl _)
      simp only [Option.toList_some, Worker.unpublished, List.append_nil]
      exact hsub.trans horder
    | receiving =>
      rw [hworker] at horder hlast hcount
      simp only [Option.toList_none, List.append_nil]
      cases s.jobs with
      | nil => exact ⟨horder, hlast, hcount⟩
      | cons job jobs => exact ⟨horder, hlast, hcount⟩
    | taken job =>
      rw [hworker] at horder hlast hcount
      simp only [Option.toList_none, List.append_nil]
      exact ⟨horder, hlast, hcount⟩
    | running job op stack =>
      rw [hworker] at horder hlast hcount
      simp only [Option.toList_none, List.append_nil]
      cases op with
      | done value =>
        cases stack with
        | nil => exact ⟨horder, hlast, hcount⟩
        | cons frame stack => exact ⟨horder, hlast, hcount⟩
      | access a next => exact ⟨horder, hlast, hcount⟩
      | call label inner next => exact ⟨horder, hlast, hcount⟩
    | replied label =>
      rw [hworker] at horder hlast hcount
      simp only [Option.toList_none, List.append_nil]
      exact ⟨horder, hlast, hcount⟩
  · have hnone : (match s.guard.stage, s.worker with
        | .resting, .walking _ => some s.card
        | _, _ => none) = none := by
      split
      · next hresting _ => exact absurd hresting hstage
      · rfl
    rw [hnone, Option.toList_none, List.append_nil, s.work_proceed driver hstage]
    exact h.of_eq rfl rfl rfl rfl

theorem Shows.step (h : Shows driver status cards taken requests s)
    (e : Event Client Access Outcome Value) :
    Shows driver status (cards ++ (s.readBy e).toList) (taken ++ (s.takenBy e).toList)
      (requests + e.asks.toNat) (s.step driver e) := by
  have hmore : Shows driver status cards taken (requests + e.asks.toNat) s :=
    ⟨h.order, h.last, h.count.trans (Nat.le_add_right _ _)⟩
  rcases s.step_cases driver e with ⟨label, hlabel, hstep⟩ | ⟨hrunning, hstep⟩
  · have hread : s.readBy e = none := by
      cases e with
      | worker => simp only [readBy, hlabel]
      | _ => rfl
    have htaken : s.takenBy e = none := by
      cases e with
      | takeUsage => simp only [takenBy, hlabel]
      | _ => rfl
    rw [hstep, hread, htaken]
    simpa using hmore
  · rw [hstep]
    cases e with
    | call c label op =>
      simp only [readBy, takenBy, Option.toList_none, List.append_nil]
      rw [act]
      cases s.callers c <;> exact hmore.of_eq rfl rfl rfl rfl
    | recv c =>
      simp only [readBy, takenBy, Option.toList_none, List.append_nil]
      rw [act]
      cases s.callers c <;> exact hmore.of_eq rfl rfl rfl rfl
    | requestUsageRefresh =>
      simp only [readBy, takenBy, Option.toList_none, List.append_nil]
      refine ⟨h.order, h.last, ?_⟩
      have hcount := h.count
      simp only [act, Event.asks, Bool.toNat_true]
      omega
    | takeUsage =>
      have htaken :
          s.takenBy (.takeUsage : Event Client Access Outcome Value) = s.pendingUsage := by
        rw [takenBy]
        split
        · next label hlabel => exact absurd hlabel (hrunning label)
        · rfl
      rw [htaken]
      simp only [readBy, Option.toList_none, List.append_nil]
      exact ⟨by simpa [act] using h.order, h.last, h.count⟩
    | worker =>
      simp only [takenBy, Option.toList_none, List.append_nil]
      exact h.work hrunning
    | monitor =>
      simp only [readBy, takenBy, Option.toList_none, List.append_nil]
      exact hmore.of_eq rfl rfl rfl rfl
    | tick us =>
      simp only [readBy, takenBy, Option.toList_none, List.append_nil]
      exact hmore.of_eq rfl rfl rfl rfl

section

variable (driver) (guard : Guard) (card : Card) (ready : Bool) (status : StorageStatus)
  (evs : List (Event Client Access Outcome Value))

/-- The states of the card that were read, in order. -/
def readings : List Card :=
  collected (step driver) readBy (mounted guard card ready status) evs

/-- What the panel has taken, in order. -/
def takenUsage : List StorageStatus :=
  collected (step driver) takenBy (mounted guard card ready status) evs

theorem shows_run :
    Shows driver status (readings driver guard card ready status evs)
      (takenUsage driver guard card ready status evs) (evs.countP Event.asks)
      (run (step driver) (mounted guard card ready status) evs) := by
  induction evs using List.reverseRecOn with
  | nil => exact shows_mounted guard card ready status
  | append_singleton evs e ih =>
    have hstep := ih.step e
    rw [readings, takenUsage, collected_append, collected_append, run_append, List.countP_append]
    have hone : [e].countP Event.asks = e.asks.toNat := by
      cases h : e.asks <;> simp [h]
    rw [hone]
    simpa [collected, readings, takenUsage] using hstep

/-- **What the panel takes** are readings of the card, each at most once and in order, with the
numbers of a reading that fails kept from the one before; and no reading is made that was not asked
for. -/
theorem takenUsage_sublist :
    (takenUsage driver guard card ready status evs).Sublist
        (shown driver status (readings driver guard card ready status evs)) ∧
      (takenUsage driver guard card ready status evs).length ≤ evs.countP Event.asks := by
  obtain ⟨horder, -, hcount⟩ := shows_run driver guard card ready status evs
  rw [List.append_assoc] at horder
  have hsub := (List.sublist_append_left _ _).trans horder
  refine ⟨hsub, hsub.length_le.trans ?_⟩
  rw [length_shown]
  omega

end

end SdSystem

end GpsNtp.Storage
