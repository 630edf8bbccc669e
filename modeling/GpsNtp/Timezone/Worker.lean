import GpsNtp.Machinery.Mpsc
import GpsNtp.Machinery.Run

/-!
# Timezone/Worker — the lookup thread and the main loop

    main loop   try_request ──requests──▸ receive
                                          look up        worker thread, which may end at any point
                poll        ◂──results─── send

The main loop keeps one request pending, and each result answers it.  A poll that finds the worker
gone clears the pending request as its answer; with none pending it answers again, at every poll
(`protocol_law_iff`).
-/

namespace GpsNtp.Timezone

open Machine Mpsc

variable {Coords Answer : Type*}

/-! ## The two sides -/

/-- Where the worker thread stands. -/
inductive Thread (Coords Answer : Type*) where
  | receiving
  | looking (coords : Coords)
  | sending (coords : Coords) (answer : Answer)
  | ended

/-- `TimezoneWorker` and its thread.  A result travels with the coordinates it is for, which the
source does not send. -/
structure TimezoneWorker (Coords Answer : Type*) where
  requests : Channel Coords
  results : Channel (Coords × Answer)
  pending : Bool
  thread : Thread Coords Answer

/-- What `poll` returns: a lookup's `Ok` or `Err`, or its own error that the worker is gone. -/
inductive Polled (Coords Answer : Type*) where
  | looked (coords : Coords) (answer : Answer)
  | disconnected

namespace TimezoneWorker

/-- `TimezoneWorker::spawn`. -/
def spawn : TimezoneWorker Coords Answer where
  requests := .new
  results := .new
  pending := false
  thread := .receiving

/-- `TimezoneWorker::try_request`. -/
def tryRequest (w : TimezoneWorker Coords Answer) (coords : Coords) :
    TimezoneWorker Coords Answer × Bool :=
  if w.pending then (w, false)
  else
    match w.requests.send coords with
    | (requests, true) => ({ w with requests, pending := true }, true)
    | (requests, false) => ({ w with requests }, false)

/-- `TimezoneWorker::poll`. -/
def poll (w : TimezoneWorker Coords Answer) :
    TimezoneWorker Coords Answer × Option (Polled Coords Answer) :=
  match w.results.tryRecv with
  | (results, .received (coords, answer)) =>
    ({ w with results, pending := false }, some (.looked coords answer))
  | (results, .empty) => ({ w with results }, none)
  | (results, .disconnected) => ({ w with results, pending := false }, some .disconnected)

/-- The worker takes a request, if there is one to take. -/
def receive (w : TimezoneWorker Coords Answer) : TimezoneWorker Coords Answer :=
  match w.thread, w.requests.tryRecv with
  | .receiving, (requests, .received coords) => { w with requests, thread := .looking coords }
  | _, _ => w

/-- The worker's lookup ends. -/
def finish (w : TimezoneWorker Coords Answer) (answer : Answer) : TimezoneWorker Coords Answer :=
  match w.thread with
  | .looking coords => { w with thread := .sending coords answer }
  | _ => w

/-- The worker sends its result, and leaves its loop where nobody is there to receive it. -/
def send (w : TimezoneWorker Coords Answer) : TimezoneWorker Coords Answer :=
  match w.thread with
  | .sending coords answer =>
    match w.results.send (coords, answer) with
    | (results, true) => { w with results, thread := .receiving }
    | (results, false) => { w with results, thread := .ended }
  | _ => w

end TimezoneWorker

/-- What can happen next.  A thread that has ended drops its two ends one after the other. -/
inductive Event (Coords Answer : Type*) where
  | tryRequest (coords : Coords)
  | poll
  | receive
  | finish (answer : Answer)
  | send
  | terminate
  | dropRequests
  | dropResults

namespace TimezoneWorker

def step (w : TimezoneWorker Coords Answer) : Event Coords Answer → TimezoneWorker Coords Answer
  | .tryRequest coords => (w.tryRequest coords).1
  | .poll => w.poll.1
  | .receive => w.receive
  | .finish answer => w.finish answer
  | .send => w.send
  | .terminate => { w with thread := .ended }
  | .dropRequests =>
    match w.thread with
    | .ended => { w with requests := w.requests.dropReceiver }
    | _ => w
  | .dropResults =>
    match w.thread with
    | .ended => { w with results := w.results.dropSender }
    | _ => w

/-- The request that an event has accepted. -/
def acceptedBy (w : TimezoneWorker Coords Answer) : Event Coords Answer → Option Coords
  | .tryRequest coords => if (w.tryRequest coords).2 then some coords else none
  | _ => none

/-- What an event has returned from a poll. -/
def polledBy (w : TimezoneWorker Coords Answer) :
    Event Coords Answer → Option (Polled Coords Answer)
  | .poll => w.poll.2
  | _ => none

/-! ## What a step can do -/

section

variable (w : TimezoneWorker Coords Answer)

theorem tryRequest_cases (coords : Coords) :
    (w.pending = false ∧
      w.tryRequest coords =
        ({ w with
          requests := { w.requests with queue := w.requests.queue ++ [coords] }
          pending := true }, true)) ∨
      w.tryRequest coords = (w, false) := by
  obtain ⟨⟨queue, sender, receiver⟩, results, pending, thread⟩ := w
  cases pending with
  | true => exact .inr rfl
  | false =>
    cases receiver with
    | true => exact .inl ⟨rfl, rfl⟩
    | false => exact .inr rfl

theorem poll_cases :
    (∃ coords answer rest, w.results.queue = (coords, answer) :: rest ∧
      w.poll =
        ({ w with results := { w.results with queue := rest }, pending := false },
          some (.looked coords answer))) ∨
      (w.results.queue = [] ∧ w.results.sender = true ∧ w.poll = (w, none)) ∨
      (w.results.queue = [] ∧ w.results.sender = false ∧
        w.poll = ({ w with pending := false }, some .disconnected)) := by
  rw [poll, Channel.tryRecv]
  cases hqueue : w.results.queue with
  | cons result rest => exact .inl ⟨result.1, result.2, rest, rfl, rfl⟩
  | nil =>
    cases hsender : w.results.sender with
    | true => exact .inr (.inl ⟨rfl, rfl, rfl⟩)
    | false => exact .inr (.inr ⟨rfl, rfl, rfl⟩)

theorem receive_cases :
    (∃ coords rest, w.thread = .receiving ∧ w.requests.queue = coords :: rest ∧
      w.receive =
        { w with requests := { w.requests with queue := rest }, thread := .looking coords }) ∨
      w.receive = w := by
  rw [receive, Channel.tryRecv]
  cases hthread : w.thread with
  | receiving =>
    cases hqueue : w.requests.queue with
    | cons coords rest => exact .inl ⟨coords, rest, rfl, rfl, rfl⟩
    | nil =>
      refine .inr ?_
      cases w.requests.sender <;> rfl
  | _ => exact .inr rfl

theorem finish_cases (answer : Answer) :
    (∃ coords, w.thread = .looking coords ∧
      w.finish answer = { w with thread := .sending coords answer }) ∨ w.finish answer = w := by
  rw [finish]
  cases hthread : w.thread with
  | looking coords => exact .inl ⟨coords, rfl, rfl⟩
  | _ => exact .inr rfl

/-! The worker leaves `pending` alone. -/

theorem pending_receive : w.receive.pending = w.pending := by
  obtain ⟨⟨queue, sender, receiver⟩, results, pending, thread⟩ := w
  cases thread <;> cases queue <;> cases sender <;> rfl

theorem pending_finish (answer : Answer) : (w.finish answer).pending = w.pending := by
  obtain ⟨requests, results, pending, thread⟩ := w
  cases thread <;> rfl

theorem pending_send : w.send.pending = w.pending := by
  obtain ⟨requests, ⟨queue, sender, receiver⟩, pending, thread⟩ := w
  cases thread <;> cases receiver <;> rfl

variable {w}

/-- The main loop keeps its end of the results, so that sending succeeds. -/
theorem send_cases (hreceiver : w.results.receiver = true) :
    (∃ coords answer, w.thread = .sending coords answer ∧
      w.send =
        { w with
          results := { w.results with queue := w.results.queue ++ [(coords, answer)] }
          thread := .receiving }) ∨ w.send = w := by
  obtain ⟨requests, ⟨queue, sender, receiver⟩, pending, thread⟩ := w
  obtain rfl : receiver = true := hreceiver
  cases thread with
  | sending coords answer => exact .inl ⟨coords, answer, rfl, rfl⟩
  | _ => exact .inr rfl

end

end TimezoneWorker

/-! ## The law of the protocol -/

section

open TimezoneWorker

/-- The requests for which `try_request` returned true. -/
def accepted (evs : List (Event Coords Answer)) : List Coords :=
  collected step acceptedBy spawn evs

/-- Everything that `poll` returned. -/
def polled (evs : List (Event Coords Answer)) : List (Polled Coords Answer) :=
  collected step polledBy spawn evs

/-- The coordinates that a returned result is for. -/
def Polled.coords? : Polled Coords Answer → Option Coords
  | .looked coords _ => some coords
  | .disconnected => none

/-- The requests whose results were returned. -/
def answered (evs : List (Event Coords Answer)) : List Coords :=
  (polled evs).filterMap Polled.coords?

/-- An event as the main loop keeps account of it: a request accepted, or an answer to the oldest
one. -/
def accountedBy (w : TimezoneWorker Coords Answer) (e : Event Coords Answer) :
    Option (Option Coords) :=
  match w.acceptedBy e with
  | some coords => some (some coords)
  | none => if (w.polledBy e).isSome then some none else none

/-- The requests left open by one more entry of the account. -/
def settle (requests : List Coords) : Option Coords → List Coords
  | some coords => requests ++ [coords]
  | none => requests.tail

/-- The requests accepted and not answered yet. -/
def outstanding (evs : List (Event Coords Answer)) : List Coords :=
  (collected step accountedBy spawn evs).foldl settle []

/-- **The law of the protocol** at the end of a run. -/
structure ProtocolLaw (evs : List (Event Coords Answer)) : Prop where
  one : (outstanding evs).length ≤ 1
  inOrder : answered evs <+: accepted evs
  counted : (polled evs).length ≤ (accepted evs).length

/-- A poll that finds the worker gone although no request waits for an answer. -/
def AnswersAgain (w : TimezoneWorker Coords Answer) (e : Event Coords Answer) : Prop :=
  e = .poll ∧ w.pending = false ∧ w.results.queue = [] ∧ w.results.sender = false

end

/-! ## What the worker has in hand -/

/-- The request in the hands of the worker thread. -/
def Thread.inHand : Thread Coords Answer → List Coords
  | .receiving | .ended => []
  | .looking coords | .sending coords _ => [coords]

/-- While the thread lives, a pending request is in one place. -/
structure Live (w : TimezoneWorker Coords Answer) (answered accepted : List Coords) : Prop where
  alive : w.thread ≠ .ended
  sender : w.results.sender = true
  load : w.results.queue.length + w.thread.inHand.length + w.requests.queue.length =
    w.pending.toNat
  flow : answered ++ (w.results.queue.map Prod.fst ++ (w.thread.inHand ++ w.requests.queue)) =
    accepted

/-- Once it has ended, only what it sent can still be returned. -/
structure Ended (w : TimezoneWorker Coords Answer) (answered accepted : List Coords) : Prop where
  ended : w.thread = .ended
  load : w.results.queue.length ≤ w.pending.toNat
  flow : answered ++ w.results.queue.map Prod.fst <+: accepted

/-- **The state follows the account** of what was accepted and answered. -/
structure Follows (w : TimezoneWorker Coords Answer) (answered accepted outstanding : List Coords) :
    Prop where
  receiver : w.results.receiver = true
  thread : Live w answered accepted ∨ Ended w answered accepted
  outstanding : outstanding.length = w.pending.toNat

section

variable {w : TimezoneWorker Coords Answer} {a r o : List Coords}

theorem Live.ended (h : Live w a r) : Ended { w with thread := .ended } a r where
  ended := rfl
  load := by
    have hload := h.load
    dsimp only
    omega
  flow := by
    rw [← h.flow, ← List.append_assoc]
    exact List.prefix_append _ _

/-- A request waits for the worker. -/
theorem Live.requested (h : Live w a r) (hpending : w.pending = false) (coords : Coords) :
    Live { w with
      requests := { w.requests with queue := w.requests.queue ++ [coords] }
      pending := true } a (r ++ [coords]) where
  alive := h.alive
  sender := h.sender
  load := by
    have hload := h.load
    rw [hpending, Bool.toNat_false] at hload
    rw [Bool.toNat_true, List.length_append, List.length_singleton]
    dsimp only
    omega
  flow := by
    rw [← h.flow]
    simp only [List.append_assoc]

/-- A request that no worker is there to take. -/
theorem Ended.requested (h : Ended w a r) (coords : Coords) :
    Ended { w with
      requests := { w.requests with queue := w.requests.queue ++ [coords] }
      pending := true } a (r ++ [coords]) where
  ended := h.ended
  load := Nat.le_trans h.load w.pending.toNat_le
  flow := h.flow.trans (List.prefix_append _ _)

section Received

variable {coords : Coords} {answer : Answer} {rest : List (Coords × Answer)}

/-- A result is returned, and was the only one there. -/
theorem Live.received (h : Live w a r) (hqueue : w.results.queue = (coords, answer) :: rest) :
    Live { w with results := { w.results with queue := rest }, pending := false }
      (a ++ [coords]) r where
  alive := h.alive
  sender := h.sender
  load := by
    have hload := h.load
    have hpending := w.pending.toNat_le
    rw [hqueue, List.length_cons] at hload
    rw [Bool.toNat_false]
    dsimp only
    omega
  flow := by
    rw [← h.flow, hqueue, List.append_assoc]
    rfl

/-- What an ended worker has sent is returned too. -/
theorem Ended.received (h : Ended w a r) (hqueue : w.results.queue = (coords, answer) :: rest) :
    Ended { w with results := { w.results with queue := rest }, pending := false }
      (a ++ [coords]) r where
  ended := h.ended
  load := by
    have hload := h.load
    have hpending := w.pending.toNat_le
    rw [hqueue, List.length_cons] at hload
    rw [Bool.toNat_false]
    dsimp only
    omega
  flow := by
    have hflow := h.flow
    rw [hqueue] at hflow
    rw [List.append_assoc]
    exact hflow

end Received

theorem Follows.tryRequest (h : Follows w a r o) (coords : Coords) :
    Follows (w.tryRequest coords).1
      a (r ++ (w.acceptedBy (.tryRequest coords)).toList)
      ((accountedBy w (.tryRequest coords)).toList.foldl settle o) := by
  have hout := h.outstanding
  rw [accountedBy, TimezoneWorker.acceptedBy]
  rcases w.tryRequest_cases coords with ⟨hpending, htry⟩ | htry
  · rw [htry, if_pos rfl]
    rw [hpending, Bool.toNat_false, List.length_eq_zero_iff] at hout
    exact ⟨h.receiver, h.thread.imp (·.requested hpending coords) (·.requested coords),
      by rw [hout]; rfl⟩
  · rw [htry, if_neg Bool.false_ne_true, Option.toList_none, List.append_nil]
    exact h

theorem Follows.poll (h : Follows w a r o) :
    Follows w.poll.1 (a ++ (w.poll.2.bind Polled.coords?).toList) r
      ((accountedBy w .poll).toList.foldl settle o) := by
  have hout := h.outstanding
  have htail : o.tail.length = 0 := by
    rw [List.length_tail, hout]
    cases w.pending <;> rfl
  rw [show accountedBy w .poll = if w.poll.2.isSome then some none else none from rfl]
  rcases w.poll_cases with
    ⟨coords, answer, rest, hqueue, hpoll⟩ | ⟨-, -, hpoll⟩ | ⟨hqueue, hsender, hpoll⟩
  · rw [hpoll]
    exact ⟨h.receiver, h.thread.imp (·.received hqueue) (·.received hqueue), htail⟩
  · rw [hpoll, Option.bind_none, Option.toList_none, List.append_nil]
    exact ⟨h.receiver, h.thread, hout⟩
  · rw [hpoll, Option.bind_some, Polled.coords?, Option.toList_none, List.append_nil]
    refine ⟨h.receiver, ?_, htail⟩
    rcases h.thread with hlive | hended
    · exact absurd (hsender.symm.trans hlive.sender) Bool.false_ne_true
    · refine .inr ⟨hended.ended, ?_, hended.flow⟩
      rw [hqueue]
      exact Nat.zero_le _

theorem Follows.receive (h : Follows w a r o) : Follows w.receive a r o := by
  rcases w.receive_cases with ⟨coords, rest, hthread, hqueue, heq⟩ | heq
  · rw [heq]
    refine ⟨h.receiver, ?_, h.outstanding⟩
    rcases h.thread with hlive | hended
    · have hload := hlive.load
      have hflow := hlive.flow
      rw [hthread, hqueue] at hload hflow
      refine .inl ⟨nofun, hlive.sender, ?_, hflow⟩
      rw [← hload]
      simp only [Thread.inHand, List.length_nil, List.length_cons]
      omega
    · cases hthread.symm.trans hended.ended
  · rwa [heq]

theorem Follows.finish (h : Follows w a r o) (answer : Answer) :
    Follows (w.finish answer) a r o := by
  rcases w.finish_cases answer with ⟨coords, hthread, heq⟩ | heq
  · rw [heq]
    refine ⟨h.receiver, ?_, h.outstanding⟩
    rcases h.thread with hlive | hended
    · have hload := hlive.load
      have hflow := hlive.flow
      rw [hthread] at hload hflow
      exact .inl ⟨nofun, hlive.sender, hload, hflow⟩
    · cases hthread.symm.trans hended.ended
  · rwa [heq]

theorem Follows.send (h : Follows w a r o) : Follows w.send a r o := by
  rcases TimezoneWorker.send_cases h.receiver with ⟨coords, answer, hthread, heq⟩ | heq
  · rw [heq]
    refine ⟨h.receiver, ?_, h.outstanding⟩
    rcases h.thread with hlive | hended
    · have hload := hlive.load
      have hflow := hlive.flow
      rw [hthread] at hload hflow
      refine .inl ⟨nofun, hlive.sender, ?_, ?_⟩
      · rw [← hload, List.length_append]
        rfl
      · rw [← hflow, List.map_append, List.append_assoc]
        rfl
    · cases hthread.symm.trans hended.ended
  · rwa [heq]

theorem Follows.ended (h : Follows w a r o) (hthread : w.thread = .ended) : Ended w a r :=
  h.thread.resolve_left fun hlive => hlive.alive hthread

/-- **Every step keeps the account.** -/
theorem Follows.step (h : Follows w a r o) (e : Event Coords Answer) :
    Follows (w.step e) (a ++ ((w.polledBy e).bind Polled.coords?).toList)
      (r ++ (w.acceptedBy e).toList) ((accountedBy w e).toList.foldl settle o) := by
  have hsame : ∀ {w' : TimezoneWorker Coords Answer}, Follows w' a r o →
      Follows w' (a ++ []) (r ++ []) o := fun h' => by
    rwa [List.append_nil, List.append_nil]
  cases e with
  | tryRequest coords =>
    rw [show (w.polledBy (.tryRequest coords)).bind Polled.coords? = none from rfl,
      Option.toList_none, List.append_nil]
    exact h.tryRequest coords
  | poll =>
    rw [show w.acceptedBy .poll = none from rfl, Option.toList_none, List.append_nil]
    exact h.poll
  | receive => exact hsame h.receive
  | finish answer => exact hsame (h.finish answer)
  | send => exact hsame h.send
  | terminate =>
    refine hsame ⟨h.receiver, .inr ?_, h.outstanding⟩
    rcases h.thread with hlive | hended
    · exact hlive.ended
    · exact ⟨rfl, hended.load, hended.flow⟩
  | dropRequests =>
    refine hsame ?_
    rw [TimezoneWorker.step]
    cases hthread : w.thread with
    | ended =>
      have hended := h.ended hthread
      exact ⟨h.receiver, .inr ⟨rfl, hended.load, hended.flow⟩, h.outstanding⟩
    | _ => exact h
  | dropResults =>
    refine hsame ?_
    rw [TimezoneWorker.step]
    cases hthread : w.thread with
    | ended =>
      have hended := h.ended hthread
      exact ⟨h.receiver, .inr ⟨rfl, hended.load, hended.flow⟩, h.outstanding⟩
    | _ => exact h

theorem Follows.queue_le (h : Follows w a r o) : w.results.queue.length ≤ w.pending.toNat := by
  rcases h.thread with hlive | hended
  · have hload := hlive.load
    omega
  · exact hended.load

/-- **What is returned and what is pending answers what was accepted**, but for a repeated
answer. -/
theorem Follows.balance (h : Follows w a r o) {e : Event Coords Answer}
    (hguard : ¬AnswersAgain w e) :
    (w.polledBy e).toList.length + (w.step e).pending.toNat =
      w.pending.toNat + (w.acceptedBy e).toList.length := by
  cases e with
  | tryRequest coords =>
    rw [TimezoneWorker.acceptedBy, TimezoneWorker.step]
    rcases w.tryRequest_cases coords with ⟨hpending, htry⟩ | htry
    · rw [htry, hpending]
      rfl
    · rw [htry]
      exact Nat.add_comm _ _
  | poll =>
    rw [TimezoneWorker.polledBy, TimezoneWorker.step]
    rcases w.poll_cases with
      ⟨coords, answer, rest, hqueue, hpoll⟩ | ⟨-, -, hpoll⟩ | ⟨hqueue, hsender, hpoll⟩
    · have hload := h.queue_le
      have hpending := w.pending.toNat_le
      rw [hqueue, List.length_cons] at hload
      rw [hpoll, show w.pending.toNat = 1 by omega]
      rfl
    · rw [hpoll]
      exact Nat.add_comm _ _
    · have hpending : w.pending = true :=
        Bool.of_not_eq_false fun hpending => hguard ⟨rfl, hpending, hqueue, hsender⟩
      rw [hpoll, hpending]
      rfl
  | receive =>
    rw [TimezoneWorker.step, w.pending_receive]
    exact Nat.add_comm _ _
  | finish answer =>
    rw [TimezoneWorker.step, w.pending_finish]
    exact Nat.add_comm _ _
  | send =>
    rw [TimezoneWorker.step, w.pending_send]
    exact Nat.add_comm _ _
  | terminate => exact Nat.add_comm _ _
  | dropRequests =>
    rw [TimezoneWorker.step]
    cases w.thread <;> exact Nat.add_comm _ _
  | dropResults =>
    rw [TimezoneWorker.step]
    cases w.thread <;> exact Nat.add_comm _ _

/-- A repeated answer is one too many. -/
theorem AnswersAgain.polledBy_eq {e : Event Coords Answer} (h : AnswersAgain w e) :
    w.polledBy e = some .disconnected ∧ w.acceptedBy e = none := by
  obtain ⟨rfl, -, hqueue, hsender⟩ := h
  refine ⟨?_, rfl⟩
  rw [TimezoneWorker.polledBy]
  rcases w.poll_cases with ⟨_, _, _, hcons, -⟩ | ⟨-, hsender', -⟩ | ⟨-, -, hpoll⟩
  · exact absurd (hqueue.symm.trans hcons) (List.cons_ne_nil _ _).symm
  · exact absurd (hsender.symm.trans hsender') Bool.false_ne_true
  · rw [hpoll]

end

/-! ## Runs -/

section

open TimezoneWorker

theorem accepted_append (evs : List (Event Coords Answer)) (e : Event Coords Answer) :
    accepted (evs ++ [e]) = accepted evs ++ ((run step spawn evs).acceptedBy e).toList := by
  rw [accepted, collected_append]
  exact congrArg _ (List.append_nil _)

theorem polled_append (evs : List (Event Coords Answer)) (e : Event Coords Answer) :
    polled (evs ++ [e]) = polled evs ++ ((run step spawn evs).polledBy e).toList := by
  rw [polled, collected_append]
  exact congrArg _ (List.append_nil _)

/-- **A run keeps its account.** -/
theorem follows_run (evs : List (Event Coords Answer)) :
    Follows (run step spawn evs) (answered evs) (accepted evs) (outstanding evs) := by
  induction evs using List.reverseRecOn with
  | nil => exact ⟨rfl, .inl ⟨nofun, rfl, rfl, rfl⟩, rfl⟩
  | append_singleton evs e ih =>
    have hanswered : answered (evs ++ [e]) =
        answered evs ++ (((run step spawn evs).polledBy e).bind Polled.coords?).toList := by
      rw [answered, polled_append, List.filterMap_append]
      refine congrArg _ ?_
      cases hpolled : (run step spawn evs).polledBy e with
      | none => rfl
      | some p => cases p <;> rfl
    have houtstanding : outstanding (evs ++ [e]) =
        (accountedBy (run step spawn evs) e).toList.foldl settle (outstanding evs) := by
      rw [outstanding, collected_append, List.foldl_append]
      exact congrArg (List.foldl settle _) (List.append_nil _)
    rw [run_append, hanswered, houtstanding, accepted_append]
    exact ih.step e

/-- Without a repeated answer, what was accepted is answered or pending. -/
theorem balance_run {evs : List (Event Coords Answer)}
    (h : Throughout step (fun w e => ¬AnswersAgain w e) spawn evs) :
    (polled evs).length + (run step spawn evs).pending.toNat = (accepted evs).length := by
  induction evs using List.reverseRecOn with
  | nil => rfl
  | append_singleton evs e ih =>
    obtain ⟨hbefore, hguard, -⟩ := throughout_append.mp h
    have hstep := (follows_run evs).balance hguard
    have hih := ih hbefore
    rw [run_append, polled_append, accepted_append, List.length_append, List.length_append]
    change _ + ((run step spawn evs).step e).pending.toNat = _
    omega

/-- One request at a time, and results in order, in every run. -/
theorem one_inOrder (evs : List (Event Coords Answer)) :
    (outstanding evs).length ≤ 1 ∧ answered evs <+: accepted evs := by
  have hfollows := follows_run evs
  refine ⟨hfollows.outstanding.trans_le (run step spawn evs).pending.toNat_le, ?_⟩
  rcases hfollows.thread with hlive | hended
  · exact ⟨_, hlive.flow⟩
  · exact (List.prefix_append _ _).trans hended.flow

/-- **The protocol keeps its law exactly as long as no answer is repeated**, and all but its count
in any case. -/
theorem protocol_law_iff (evs : List (Event Coords Answer)) :
    ((outstanding evs).length ≤ 1 ∧ answered evs <+: accepted evs) ∧
      ((∀ pre, pre <+: evs → ProtocolLaw pre) ↔
        Throughout step (fun w e => ¬AnswersAgain w e) spawn evs) := by
  refine ⟨one_inOrder evs, ?_⟩
  constructor
  · intro h
    induction evs using List.reverseRecOn with
    | nil => trivial
    | append_singleton evs e ih =>
      have hbefore := ih fun pre hpre => h pre (hpre.trans (List.prefix_append _ _))
      refine throughout_append.mpr ⟨hbefore, fun hagain => ?_, trivial⟩
      have hcounted := (h _ List.prefix_rfl).counted
      have hbalance := balance_run hbefore
      obtain ⟨hpolled, haccepted⟩ := hagain.polledBy_eq
      rw [hagain.2.1, Bool.toNat_false] at hbalance
      rw [polled_append, accepted_append, hpolled, haccepted, List.length_append,
        List.length_append] at hcounted
      simp only [Option.toList_some, Option.toList_none, List.length_singleton,
        List.length_nil] at hcounted
      omega
  · rintro h pre ⟨post, rfl⟩
    have hbalance := balance_run (throughout_append.mp h).1
    obtain ⟨hone, hinOrder⟩ := one_inOrder pre
    exact ⟨hone, hinOrder, by omega⟩

/-- A lookup that ends the thread, and two polls after it. -/
theorem dead_worker_reported_twice :
    ¬∀ evs : List (Event ℕ ℕ), ProtocolLaw evs := by
  intro h
  have hcounted := (h [.tryRequest 0, .receive, .terminate, .dropRequests, .dropResults, .poll,
    .poll]).counted
  exact absurd hcounted (by decide)

end

end GpsNtp.Timezone
