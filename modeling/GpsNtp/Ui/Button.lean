import GpsNtp.Machinery.Interval
import GpsNtp.Machinery.Refine
import GpsNtp.Ui.Pages

/-!
# Ui/Button — what the button task makes of a line and a clock

    edges, level ──pass──▸ press?  blank?  redraw? ──▸ script ──go──▸ UiState
                                                                        ▴
                                                        panel ──────────┘

A pass over the loop of `button_task_main` reads the edge counter, the line and the clock, and
decides what it does to the page, the backlight and the request count.  These accesses are the
**script** of the pass, in the events of `Ui/Pages`: they come one at a time, with the panel between
them.  Presses are taken at intervals (`presses_spaced`), and a line that is held is one press
(`held_is_one_press`).
-/

namespace GpsNtp.Ui

open Machine MachineInt

def SCREEN_BLANK_US : ℤ := 15000000
def DRAW_INTERVAL_US : ℤ := 5000000
def BUTTON_DEBOUNCE_US : ℤ := 200000
def PULLUP_REFRESH_US : ℤ := 1000000
def BUTTON_HELD_RECOVER_US : ℤ := 500000
def DISPLAY_DEBUG_ALWAYS_ON : Bool := false

/-- The variables of `button_task_main`. -/
structure ButtonTask where
  lastEdges : ℕ
  lastLevelPressed : Bool
  lastActionUs : ℤ
  lastInteractionUs : ℤ
  lastRedrawReqUs : ℤ
  lowSince : ℤ
  lastRecoverUs : ℤ
deriving DecidableEq

/-- The button task in the middle of its script, the tasks' shared state, and the edge counter. -/
structure ButtonSystem where
  task : ButtonTask
  script : List UiState.Event
  ui : UiState
  buttonEdges : ℕ
  nowUs : ℤ
deriving DecidableEq

/-- What can happen next: an edge on the line, a pass of the button task that finds the line high or
low and may provoke edges in repairing it, the next access of its script, or of the panel task, or
time. -/
inductive ButtonEvent where
  | edge
  | pass (isHigh : Bool) (staleEdges : ℕ)
  | go
  | panel
  | tick (us : ℕ)
deriving DecidableEq

namespace ButtonSystem

/-- When the button task begins. -/
def start (buttonEdges : ℕ) (nowUs : ℤ) : ButtonSystem where
  task :=
    { lastEdges := buttonEdges
      lastLevelPressed := false
      lastActionUs := 0
      lastInteractionUs := nowUs
      lastRedrawReqUs := nowUs
      lowSince := 0
      lastRecoverUs := 0 }
  script := []
  ui := .start
  buttonEdges
  nowUs

section

variable (s : ButtonSystem)

/-- What the script will have made of the page and the backlight. -/
def settled : UiState := run UiState.step s.ui s.script

/-- Whether a pass sees a press. -/
def sees (isHigh : Bool) : Bool :=
  s.buttonEdges != s.task.lastEdges || (!isHigh && !s.task.lastLevelPressed)

/-- Whether the input is repaired: the line has been low for long, and not just been repaired. -/
def repairs (isHigh : Bool) : Bool :=
  !isHigh && decide (s.task.lowSince ≠ 0 ∧
    BUTTON_HELD_RECOVER_US ≤ satSub s.nowUs s.task.lowSince ∧
    PULLUP_REFRESH_US ≤ satSub s.nowUs s.task.lastRecoverUs)

/-- The line is read, and repaired; what the repair provokes is consumed. -/
def watch (isHigh : Bool) (staleEdges : ℕ) : ButtonSystem :=
  let buttonEdges :=
    if s.repairs isHigh then wrapU32 (s.buttonEdges + staleEdges) else s.buttonEdges
  { s with
    buttonEdges
    task := { s.task with
      lastEdges := buttonEdges
      lastLevelPressed := !isHigh
      lowSince := if isHigh then 0 else if s.task.lowSince = 0 then s.nowUs else s.task.lowSince
      lastRecoverUs := if s.repairs isHigh then s.nowUs else s.task.lastRecoverUs } }

/-- A press wakes a dark screen, and turns the page of a lit one. -/
def pressScript (screenOn : Bool) : List UiState.Event :=
  if screenOn then [.press, .button, .button, .button] else [.press, .button, .button]

def press : ButtonSystem :=
  { s with
    script := s.script ++ pressScript s.settled.screenOn
    task := { s.task with
      lastActionUs := s.nowUs
      lastInteractionUs := s.nowUs
      lastRedrawReqUs := s.nowUs } }

/-- The screen has been idle. -/
def blank : ButtonSystem :=
  if !DISPLAY_DEBUG_ALWAYS_ON && s.settled.screenOn &&
      decide (SCREEN_BLANK_US ≤ satSub s.nowUs s.task.lastInteractionUs) then
    { s with script := s.script ++ [.idle, .button] }
  else s

/-- A redraw is due. -/
def redraw : ButtonSystem :=
  if s.settled.screenOn && decide (DRAW_INTERVAL_US ≤ satSub s.nowUs s.task.lastRedrawReqUs) then
    { s with
      script := s.script ++ [.redrawDue, .button]
      task := { s.task with lastRedrawReqUs := s.nowUs } }
  else s

/-- Whether a pass takes a press: it sees one, and the last one is long enough ago. -/
def takes (isHigh : Bool) : Bool :=
  s.sees isHigh && decide (BUTTON_DEBOUNCE_US ≤ satSub s.nowUs s.task.lastActionUs)

/-- One pass over the loop of `button_task_main`. -/
def pass (isHigh : Bool) (staleEdges : ℕ) : ButtonSystem :=
  let watched := s.watch isHigh staleEdges
  (if s.takes isHigh then watched.press else watched).blank.redraw

/-- One step; the next pass begins once the script of the last one is done. -/
def step : ButtonEvent → ButtonSystem
  | .edge => { s with buttonEdges := wrapU32 (s.buttonEdges + 1) }
  | .pass isHigh staleEdges => if s.script = [] then s.pass isHigh staleEdges else s
  | .go =>
    match s.script with
    | [] => s
    | e :: script => { s with script, ui := s.ui.step e }
  | .panel => { s with ui := s.ui.step .panel }
  | .tick us => { s with nowUs := s.nowUs + us }

/-- The press that an event takes: its time, and whether it finds the screen lit. -/
def pressBy : ButtonEvent → Option (ℤ × Bool)
  | .pass isHigh _ =>
    if s.script = [] ∧ s.takes isHigh = true then some (s.nowUs, s.settled.screenOn) else none
  | _ => none

end

variable {s : ButtonSystem}

/-! ## What a pass leaves -/

/-- Blanking and redrawing touch the script, and when a redraw was last due. -/
theorem blank_redraw_eq : ∃ script lastRedrawReqUs,
    s.blank.redraw = { s with script, task := { s.task with lastRedrawReqUs } } := by
  rw [redraw]
  split
  · rw [blank]
    split <;> exact ⟨_, _, rfl⟩
  · rw [blank]
    split <;> exact ⟨_, _, rfl⟩

/-- What a pass remembers of the presses. -/
theorem task_pass (isHigh : Bool) (staleEdges : ℕ) :
    (s.pass isHigh staleEdges).nowUs = s.nowUs ∧
      (s.pass isHigh staleEdges).task.lastActionUs =
        (if s.takes isHigh then s.nowUs else s.task.lastActionUs) ∧
      (s.pass isHigh staleEdges).task.lastInteractionUs =
        (if s.takes isHigh then s.nowUs else s.task.lastInteractionUs) ∧
      (s.pass isHigh staleEdges).task.lastLevelPressed = (!isHigh) ∧
      (s.pass isHigh staleEdges).task.lastEdges = (s.pass isHigh staleEdges).buttonEdges := by
  rw [pass]
  cases s.takes isHigh with
  | true =>
    obtain ⟨script, lastRedrawReqUs, heq⟩ := @blank_redraw_eq (s.watch isHigh staleEdges).press
    rw [if_pos rfl, heq]
    exact ⟨rfl, rfl, rfl, rfl, rfl⟩
  | false =>
    obtain ⟨script, lastRedrawReqUs, heq⟩ := @blank_redraw_eq (s.watch isHigh staleEdges)
    rw [if_neg Bool.false_ne_true, heq]
    exact ⟨rfl, rfl, rfl, rfl, rfl⟩

/-! ## Presses keep their distance -/

theorem timer_press : Timer step pressBy (fun _ => BUTTON_DEBOUNCE_US)
    (fun s => s.task.lastActionUs) nowUs := by
  intro s e
  cases e with
  | pass isHigh staleEdges =>
    obtain ⟨hnow, haction, -⟩ := s.task_pass isHigh staleEdges
    rw [step, pressBy]
    by_cases hscript : s.script = []
    · rw [if_pos hscript]
      cases htakes : s.takes isHigh with
      | false =>
        rw [htakes, if_neg Bool.false_ne_true] at haction
        rw [if_neg (by simp)]
        exact .waits haction hnow.ge
      | true =>
        rw [htakes, if_pos rfl] at haction
        rw [if_pos ⟨hscript, rfl⟩]
        rw [takes, Bool.and_eq_true, decide_eq_true_eq] at htakes
        exact .fires (.inr ((le_satSub_iff (by decide) (by decide)).mp htakes.2)) haction le_rfl
          hnow.ge
    · rw [if_neg hscript, if_neg fun h => hscript h.1]
      exact .waits rfl le_rfl
  | go =>
    rw [step]
    split <;> exact .waits rfl le_rfl
  | tick us => exact .waits rfl (le_add_of_nonneg_right (Int.natCast_nonneg us))
  | _ => exact .waits rfl le_rfl

/-- The presses that a run takes. -/
def presses (s : ButtonSystem) (evs : List ButtonEvent) : List (ℤ × Bool) :=
  collected step pressBy s evs

/-- **Presses are at least 200 ms apart**, so that the time a run lasts bounds their number. -/
theorem presses_spaced (buttonEdges : ℕ) {startUs : ℤ} (hstart : 0 < startUs)
    (evs : List ButtonEvent) :
    (presses (start buttonEdges startUs) evs).IsChain (Spaced fun _ => BUTTON_DEBOUNCE_US) ∧
      (presses (start buttonEdges startUs) evs).length ≤
        ((run step (start buttonEdges startUs) evs).nowUs - startUs) / BUTTON_DEBOUNCE_US + 1 :=
  ⟨timer_press.spaced rfl hstart evs,
    timer_press.length_le rfl hstart (by decide) (fun _ => le_rfl) evs⟩

/-- Contacts that bounce for 30 ms. -/
def bounce : List ButtonEvent :=
  [.edge, .pass false 0] ++
    (List.replicate 3 [.go, .go, .go, .go, .tick 10000, .edge, .pass true 0]).flatten

theorem presses_spaced_bounce :
    (presses (start 0 9000000) bounce).IsChain (Spaced fun _ => BUTTON_DEBOUNCE_US) ∧
      (presses (start 0 9000000) bounce).length ≤
        ((run step (start 0 9000000) bounce).nowUs - 9000000) / BUTTON_DEBOUNCE_US + 1 :=
  presses_spaced 0 (by decide) bounce

/-! ## A line that is held -/

/-- The line is low, and no edge is waiting. -/
def Held (s : ButtonSystem) : Prop :=
  s.task.lastLevelPressed = true ∧ s.buttonEdges = s.task.lastEdges

/-- The event does not let go of the line, nor is it a press. -/
def holds : ButtonEvent → Bool
  | .edge => false
  | .pass isHigh _ => !isHigh
  | _ => true

theorem held_pass (staleEdges : ℕ) : (s.pass false staleEdges).Held := by
  obtain ⟨-, -, -, hlevel, hedges⟩ := s.task_pass false staleEdges
  exact ⟨hlevel, hedges.symm⟩

theorem Held.step (h : s.Held) {e : ButtonEvent} (he : holds e = true) :
    (s.step e).Held ∧ s.pressBy e = none := by
  cases e with
  | edge => cases he
  | pass isHigh staleEdges =>
    obtain rfl : isHigh = false := by simpa [holds] using he
    have htakes : s.takes false = false := by
      rw [takes, sees, h.1, h.2]
      simp
    rw [ButtonSystem.step, pressBy, htakes]
    refine ⟨?_, if_neg (by simp)⟩
    split
    · exact held_pass staleEdges
    · exact h
  | go =>
    rw [ButtonSystem.step]
    split <;> exact ⟨h, rfl⟩
  | panel => exact ⟨h, rfl⟩
  | tick us => exact ⟨h, rfl⟩

/-- **A line that is held is one press**: after a pass that has found the line low none is taken
until it is let go or another edge is counted, however long it is held and whatever edges are
provoked in repairing it. -/
theorem held_is_one_press (h : s.script = []) (staleEdges : ℕ) {evs : List ButtonEvent}
    (hevs : ∀ e ∈ evs, holds e = true) :
    presses (s.step (.pass false staleEdges)) evs = [] := by
  have hheld : (s.step (.pass false staleEdges)).Held := by
    rw [step, if_pos h]
    exact held_pass staleEdges
  generalize s.step (.pass false staleEdges) = s' at hheld
  induction evs generalizing s' with
  | nil => rfl
  | cons e evs ih =>
    obtain ⟨hnext, hnone⟩ := hheld.step (hevs e List.mem_cons_self)
    rw [presses, collected, hnone]
    exact ih (fun e' he' => hevs e' (List.mem_cons_of_mem _ he')) _ hnext

/-- Held for three seconds, and repaired with an edge to be consumed. -/
theorem held_is_one_press_repaired :
    presses ((start 0 9000000).step (.pass false 0))
      (List.replicate 30 [ButtonEvent.go, .tick 100000, .pass false 1]).flatten = [] :=
  held_is_one_press rfl 0 (by decide +kernel)

end ButtonSystem

end GpsNtp.Ui
