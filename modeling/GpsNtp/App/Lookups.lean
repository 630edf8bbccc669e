import GpsNtp.Machinery.Interval
import GpsNtp.Timezone.Cache
import GpsNtp.Timezone.Worker

/-!
# App/Lookups — when the main loop asks for the timezone

    fix ──▸ due? ──▸ try_request ──▸ worker thread ──▸ poll ──▸ apply the result
             ▴                                                        │
             └──────────────── tz_initialized, last lookup ◂──────────┘

A lookup is due every 5 minutes until a zone is known, and every 6 hours after that.  Two lookups
are never closer than the interval in force at the second one, whatever the fixes, the answers and
the thread do, so that the time that has passed bounds their number (`lookups_spaced`).
-/

namespace GpsNtp.App

open Machine Timezone Timezone.ZoneSystem

/-- Retry interval while no timezone has been resolved yet (5 minutes). -/
def LOOKUP_RETRY_US : ℤ := 300000000

/-- Refresh interval for cached timezone lookups (6 hours). -/
def LOOKUP_REFRESH_US : ℤ := 21600000000

/-- `lookup_interval_us`. -/
def lookupIntervalUs (tzInitialized : Bool) : ℤ :=
  if tzInitialized then LOOKUP_REFRESH_US else LOOKUP_RETRY_US

/-- What a lookup answers: a name, nothing usable, or an error. -/
abbrev LookupAnswer : Type := Except Unit (Option (List Char))

variable {Coords Tz : Type*}

/-- The part of the main loop that keeps the timezone. -/
structure LookupLoop (Coords Tz : Type*) where
  worker : TimezoneWorker Coords LookupAnswer
  system : ZoneSystem Tz
  lastTzLookupUs : ℤ
  nowUs : ℤ

/-- What happens to it: a sentence with a fix, a pass of the loop over `poll`, a step of the worker
thread, or time. -/
inductive LookupEvent (Coords : Type*) where
  | fix (coords : Coords)
  | poll (faults : WriteFaults)
  | thread (e : Timezone.Event Coords LookupAnswer)
  | tick (us : ℕ)

namespace LookupLoop

variable (fromStr : List Char → Option Tz)

/-- When `run` enters its loop. -/
def entered (system : ZoneSystem Tz) (nowUs : ℤ) : LookupLoop Coords Tz where
  worker := .spawn
  system
  lastTzLookupUs := 0
  nowUs

/-- Whether `maybe_schedule_timezone_lookup` asks. -/
def due (s : LookupLoop Coords Tz) : Bool :=
  decide (s.lastTzLookupUs = 0 ∨
    lookupIntervalUs s.system.zone.initialized ≤ s.nowUs - s.lastTzLookupUs) && !s.worker.pending

/-- `maybe_schedule_timezone_lookup`. -/
def maybeScheduleTimezoneLookup (s : LookupLoop Coords Tz) (coords : Coords) :
    LookupLoop Coords Tz :=
  if s.due then
    match s.worker.tryRequest coords with
    | (worker, true) => { s with worker, lastTzLookupUs := s.nowUs }
    | (worker, false) => { s with worker }
  else s

/-- The pass over `poll`, where a worker that is gone counts as a failed lookup. -/
def pollWorker (s : LookupLoop Coords Tz) (faults : WriteFaults) : LookupLoop Coords Tz :=
  match s.worker.poll with
  | (worker, some (.looked _ answer)) =>
    { s with worker, system := s.system.step fromStr (.resolved answer faults) }
  | (worker, some .disconnected) =>
    { s with worker, system := s.system.step fromStr (.resolved (.error ()) faults) }
  | (worker, none) => { s with worker }

def step (s : LookupLoop Coords Tz) : LookupEvent Coords → LookupLoop Coords Tz
  | .fix coords => s.maybeScheduleTimezoneLookup coords
  | .poll faults => s.pollWorker fromStr faults
  | .thread e =>
    match e with
    -- these are the main loop's
    | .tryRequest _ | .poll => s
    | _ => { s with worker := s.worker.step e }
  | .tick us => { s with nowUs := s.nowUs + us }

/-- The time of a lookup that an event starts, and whether a zone is known by then. -/
def lookupBy (s : LookupLoop Coords Tz) : LookupEvent Coords → Option (ℤ × Bool)
  | .fix coords =>
    if s.due && (s.worker.tryRequest coords).2 then some (s.nowUs, s.system.zone.initialized)
    else none
  | _ => none

/-! ## What a step can do -/

/-- A lookup waits for its interval. -/
theorem timer_lookup (fromStr : List Char → Option Tz) :
    Timer (step fromStr) (@lookupBy Coords Tz) lookupIntervalUs lastTzLookupUs nowUs := by
  intro s e
  cases e with
  | fix coords =>
    rw [step, maybeScheduleTimezoneLookup, lookupBy]
    cases hdue : s.due with
    | false => exact .waits rfl le_rfl
    | true =>
      rw [due, Bool.and_eq_true, decide_eq_true_eq] at hdue
      rcases s.worker.tryRequest coords with ⟨worker, _ | _⟩
      · exact .waits rfl le_rfl
      · exact .fires hdue.1 rfl le_rfl le_rfl
  | poll faults =>
    rw [step, pollWorker]
    rcases s.worker.poll with ⟨worker, _ | ⟨coords, answer⟩ | _⟩ <;> exact .waits rfl le_rfl
  | thread e => cases e <;> exact .waits rfl le_rfl
  | tick us => exact .waits rfl (le_add_of_nonneg_right (Int.natCast_nonneg us))

/-! ## The lookups of a run -/

variable (system : ZoneSystem Tz) (startUs : ℤ) (evs : List (LookupEvent Coords))

/-- The lookups that a run starts, each with whether a zone was known. -/
def lookups : List (ℤ × Bool) :=
  collected (step fromStr) lookupBy (entered system startUs) evs

/-- **Two lookups are never closer than the interval in force at the second**, so that a run makes
at most one lookup, and one more for every five minutes it lasts. -/
theorem lookups_spaced (hstart : 0 < startUs) :
    (lookups fromStr system startUs evs).IsChain (Spaced lookupIntervalUs) ∧
      (lookups fromStr system startUs evs).length ≤
        ((run (step fromStr) (entered system startUs : LookupLoop Coords Tz) evs).nowUs - startUs) /
          LOOKUP_RETRY_US + 1 :=
  ⟨(timer_lookup fromStr).spaced rfl hstart evs,
    (timer_lookup fromStr).length_le rfl hstart (by decide) (fun known => by cases known <;> decide)
      evs⟩

/-- A fix every minute for eleven minutes, with a worker that answers nothing usable. -/
theorem lookups_spaced_retries :
    let evs : List (LookupEvent ℕ) := (List.replicate 11
      [.fix 1, .thread .receive, .thread (.finish (.ok none)), .thread .send,
        .poll ⟨false, none⟩, .tick 60000000]).flatten
    (lookups twoZones (.booted twoZones ⟨none, none⟩ true true ⟨false, false⟩) 5000000
        evs).IsChain (Spaced lookupIntervalUs) ∧
      (lookups twoZones (.booted twoZones ⟨none, none⟩ true true ⟨false, false⟩) 5000000
        evs).length ≤
        ((run (step twoZones) (entered (.booted twoZones ⟨none, none⟩ true true ⟨false, false⟩)
          5000000 : LookupLoop ℕ ℕ) evs).nowUs - 5000000) / LOOKUP_RETRY_US + 1 :=
  lookups_spaced twoZones _ 5000000 _ (by decide)

end LookupLoop

end GpsNtp.App
