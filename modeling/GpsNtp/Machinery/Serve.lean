import GpsNtp.Machinery.Run
import Mathlib.Logic.Function.Basic

/-!
# Machinery/Serve — many callers, one server

    callers ──send──▸ │ a │ b │ c │ ──serve──▸ device
       ▴                               │
       └───────────collect─────────────┘

Each caller hands over one request at a time and waits, and the server carries the requests out on a
device that it alone touches.  Whatever the interleaving, a caller collects what it would be
answered if the requests were carried out one after the other, in the order they were sent
(`collected_prefix_answers`).
-/

namespace Serve

open Machine

variable {Client Op Res Dev : Type*}

/-- A caller, from its request to the answer it collects. -/
inductive Caller (Res : Type*) where
  | idle
  | waiting
  | answered (res : Res)

/-- A device, the requests for it, and those who wait. -/
structure Server (Client Op Res Dev : Type*) where
  dev : Dev
  queue : List (Client × Op)
  callers : Client → Caller Res

inductive Event (Client Op : Type*) where
  | send (c : Client) (op : Op)
  | serve
  | collect (c : Client)

/-- Nobody waits. -/
def start (dev : Dev) : Server Client Op Res Dev := ⟨dev, [], fun _ => .idle⟩

/-! ## One after the other -/

section

variable (exec : Dev → Op → Dev × Res)

/-- The device after a list of requests. -/
def final (dev : Dev) (requests : List (Client × Op)) : Dev :=
  requests.foldl (fun dev request => (exec dev request.2).1) dev

/-- What each request of a list is answered. -/
def answers : Dev → List (Client × Op) → List (Client × Res)
  | _, [] => []
  | dev, (c, op) :: requests => (c, (exec dev op).2) :: answers (exec dev op).1 requests

@[simp] theorem final_append (dev : Dev) (requests requests' : List (Client × Op)) :
    final exec dev (requests ++ requests') = final exec (final exec dev requests) requests' :=
  List.foldl_append

@[simp] theorem answers_append (dev : Dev) (requests requests' : List (Client × Op)) :
    answers exec dev (requests ++ requests') =
      answers exec dev requests ++ answers exec (final exec dev requests) requests' := by
  induction requests generalizing dev with
  | nil => rfl
  | cons request requests ih =>
    rw [List.cons_append, answers, answers, ih, List.cons_append]
    rfl

end

/-! ## All at once -/

section

variable [DecidableEq Client] (exec : Dev → Op → Dev × Res)

def step (s : Server Client Op Res Dev) : Event Client Op → Server Client Op Res Dev
  | .send c op =>
    match s.callers c with
    | .idle =>
      { s with
        queue := s.queue ++ [(c, op)]
        callers := Function.update s.callers c .waiting }
    | _ => s
  | .serve =>
    match s.queue with
    | [] => s
    | (c, op) :: queue =>
      { dev := (exec s.dev op).1
        queue
        callers := Function.update s.callers c (.answered (exec s.dev op).2) }
  | .collect c =>
    match s.callers c with
    | .answered _ => { s with callers := Function.update s.callers c .idle }
    | _ => s

omit [DecidableEq Client] in
/-- The request that an event hands over. -/
def sentBy (s : Server Client Op Res Dev) : Event Client Op → Option (Client × Op)
  | .send c op =>
    match s.callers c with
    | .idle => some (c, op)
    | _ => none
  | _ => none

omit [DecidableEq Client] in
/-- The answer that an event collects. -/
def collectedBy (s : Server Client Op Res Dev) : Event Client Op → Option (Client × Res)
  | .collect c =>
    match s.callers c with
    | .answered res => some (c, res)
    | _ => none
  | _ => none

/-! ## What a step can do -/

section

variable {exec} {s : Server Client Op Res Dev}

theorem send_cases (c : Client) (op : Op) :
    (s.callers c = .idle ∧ sentBy s (.send c op) = some (c, op) ∧
      step exec s (.send c op) =
        { s with
          queue := s.queue ++ [(c, op)]
          callers := Function.update s.callers c .waiting }) ∨
      (sentBy s (.send c op) = none ∧ step exec s (.send c op) = s) := by
  rw [sentBy, step]
  cases hc : s.callers c with
  | idle => exact .inl ⟨rfl, rfl, rfl⟩
  | waiting => exact .inr ⟨rfl, rfl⟩
  | answered res => exact .inr ⟨rfl, rfl⟩

theorem collect_cases (c : Client) :
    (∃ res, s.callers c = .answered res ∧
      collectedBy s (.collect c : Event Client Op) = some (c, res) ∧
      step exec s (.collect c) = { s with callers := Function.update s.callers c .idle }) ∨
      (collectedBy s (.collect c : Event Client Op) = none ∧ step exec s (.collect c) = s) := by
  rw [collectedBy, step]
  cases hc : s.callers c with
  | idle => exact .inr ⟨rfl, rfl⟩
  | waiting => exact .inr ⟨rfl, rfl⟩
  | answered res => exact .inl ⟨res, rfl, rfl, rfl⟩

end

/-! ## All at once is one after the other -/

/-- The answer that waits for a caller. -/
def Caller.ready (caller : Caller Res) (c : Client) : List (Client × Res) :=
  match caller with
  | .answered res => [(c, res)]
  | _ => []

/-- **The state follows the sequential run** of the requests served so far. -/
structure Follows (dev : Dev) (sent : List (Client × Op)) (got : List (Client × Res))
    (s : Server Client Op Res Dev) (served : List (Client × Op)) : Prop where
  sent_eq : sent = served ++ s.queue
  dev_eq : s.dev = final exec dev served
  got_eq : ∀ c, (answers exec dev served).filter (fun p => p.1 = c) =
    got.filter (fun p => p.1 = c) ++ (s.callers c).ready c
  waiting : ∀ c, s.callers c = .waiting ↔ c ∈ s.queue.map Prod.fst
  distinct : (s.queue.map Prod.fst).Nodup

variable {exec} {dev : Dev} {sent served : List (Client × Op)} {got : List (Client × Res)}
  {s : Server Client Op Res Dev}

theorem Follows.start (dev : Dev) :
    Follows exec dev ([] : List (Client × Op)) ([] : List (Client × Res)) (Serve.start dev) [] where
  sent_eq := rfl
  dev_eq := rfl
  got_eq _ := rfl
  waiting c := by simp [Serve.start]
  distinct := List.nodup_nil

theorem Follows.send (h : Follows exec dev sent got s served) {c : Client} (op : Op)
    (hc : s.callers c = .idle) :
    Follows exec dev (sent ++ [(c, op)]) got
      { s with
        queue := s.queue ++ [(c, op)]
        callers := Function.update s.callers c .waiting } served where
  sent_eq := by rw [h.sent_eq, List.append_assoc]
  dev_eq := h.dev_eq
  got_eq c' := by
    rw [h.got_eq c']
    dsimp only
    by_cases hc' : c' = c
    · rw [hc', Function.update_self, hc]
      rfl
    · rw [Function.update_of_ne hc']
  waiting c' := by
    rw [List.map_append, List.mem_append, ← h.waiting c']
    by_cases hc' : c' = c
    · simp [hc']
    · simp [hc']
  distinct := by
    have hnew : c ∉ s.queue.map Prod.fst := fun hmem => by
      have := (h.waiting c).mpr hmem
      rw [hc] at this
      cases this
    rw [List.map_append, List.nodup_append]
    refine ⟨h.distinct, by simp, ?_⟩
    rintro a ha b hb rfl
    obtain rfl : a = c := List.mem_singleton.mp hb
    exact hnew ha

theorem Follows.serve (h : Follows exec dev sent got s served) {c : Client} {op : Op}
    {queue : List (Client × Op)} (hqueue : s.queue = (c, op) :: queue) :
    Follows exec dev sent got
      { dev := (exec s.dev op).1
        queue
        callers := Function.update s.callers c (.answered (exec s.dev op).2) }
      (served ++ [(c, op)]) where
  sent_eq := by rw [h.sent_eq, hqueue, List.append_assoc, List.singleton_append]
  dev_eq := by
    rw [final_append, ← h.dev_eq]
    rfl
  got_eq c' := by
    rw [answers_append, List.filter_append, h.got_eq c', ← h.dev_eq]
    by_cases hc' : c' = c
    · have hwaiting : s.callers c = .waiting := by simp [h.waiting, hqueue]
      subst hc'
      simp [answers, Caller.ready, hwaiting]
    · simp [answers, Function.update_of_ne hc', Ne.symm hc']
  waiting c' := by
    have hdistinct := h.distinct
    rw [hqueue, List.map_cons, List.nodup_cons] at hdistinct
    by_cases hc' : c' = c
    · simpa [hc'] using hdistinct.1
    · dsimp only
      rw [Function.update_of_ne hc', h.waiting c', hqueue, List.map_cons, List.mem_cons]
      exact or_iff_right hc'
  distinct := by
    have hdistinct := h.distinct
    rw [hqueue, List.map_cons, List.nodup_cons] at hdistinct
    exact hdistinct.2

theorem Follows.collect (h : Follows exec dev sent got s served) {c : Client} {res : Res}
    (hc : s.callers c = .answered res) :
    Follows exec dev sent (got ++ [(c, res)])
      { s with callers := Function.update s.callers c .idle } served where
  sent_eq := h.sent_eq
  dev_eq := h.dev_eq
  got_eq c' := by
    rw [h.got_eq c', List.filter_append]
    by_cases hc' : c' = c
    · subst hc'
      simp [Caller.ready, hc]
    · simp [Function.update_of_ne hc', Ne.symm hc']
  waiting c' := by
    rw [← h.waiting c']
    dsimp only
    by_cases hc' : c' = c
    · simp [hc', hc]
    · rw [Function.update_of_ne hc']
  distinct := h.distinct

theorem Follows.step (h : Follows exec dev sent got s served) (e : Event Client Op) :
    ∃ served', Follows exec dev (sent ++ (sentBy s e).toList) (got ++ (collectedBy s e).toList)
      (Serve.step exec s e) served' := by
  cases e with
  | send c op =>
    rw [show collectedBy s (.send c op) = none from rfl, Option.toList_none, List.append_nil]
    rcases send_cases c op with ⟨hc, hsent, hstep⟩ | ⟨hsent, hstep⟩
    · rw [hsent, hstep]
      exact ⟨served, h.send op hc⟩
    · rw [hsent, hstep, Option.toList_none, List.append_nil]
      exact ⟨served, h⟩
  | serve =>
    rw [show sentBy s (.serve) = none from rfl, show collectedBy s (.serve) = none from rfl,
      Option.toList_none, List.append_nil, Option.toList_none, List.append_nil, Serve.step]
    cases hqueue : s.queue with
    | nil => exact ⟨served, h⟩
    | cons request queue => exact ⟨served ++ [request], h.serve hqueue⟩
  | collect c =>
    rw [show sentBy s (.collect c) = none from rfl, Option.toList_none, List.append_nil]
    rcases collect_cases c with ⟨res, hc, hgot, hstep⟩ | ⟨hgot, hstep⟩
    · rw [hgot, hstep]
      exact ⟨served, h.collect hc⟩
    · rw [hgot, hstep, Option.toList_none, List.append_nil]
      exact ⟨served, h⟩

variable (exec)

theorem follows_run (dev : Dev) (evs : List (Event Client Op)) :
    ∃ served, Follows exec dev (collected (Serve.step exec) sentBy (Serve.start dev) evs)
      (collected (Serve.step exec) collectedBy (Serve.start dev) evs)
      (run (Serve.step exec) (Serve.start dev) evs) served := by
  induction evs using List.reverseRecOn with
  | nil => exact ⟨[], Follows.start dev⟩
  | append_singleton evs e ih =>
    obtain ⟨served, h⟩ := ih
    obtain ⟨served', h'⟩ := h.step e
    refine ⟨served', ?_⟩
    rw [collected_append, collected_append, run_append]
    simpa [collected] using h'

/-- **The order of service** — what a caller collects is what it is answered, in that order, if the
requests are carried out one after the other as they were sent. -/
theorem collected_prefix_answers (dev : Dev) (evs : List (Event Client Op)) (c : Client) :
    (collected (Serve.step exec) collectedBy (Serve.start dev) evs).filter (fun p => p.1 = c) <+:
      (answers exec dev (collected (Serve.step exec) sentBy (Serve.start dev) evs)).filter
        (fun p => p.1 = c) := by
  obtain ⟨served, h⟩ := follows_run exec dev evs
  rw [h.sent_eq, answers_append, List.filter_append, h.got_eq c, List.append_assoc]
  exact List.prefix_append _ _

end

end Serve
