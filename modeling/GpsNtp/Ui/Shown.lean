import GpsNtp.Machinery.LeadsTo
import GpsNtp.Ui.Button

/-!
# Ui/Shown — what presses come to

    presses ──▸ page, backlight ──▸ panel left to run ──▸ the page is shown

The page and the backlight at the end of a script are decided by the presses taken and the clock
(`page_and_light`), whatever the panel does meanwhile.  A panel that is left to run while the screen
is lit shows that page within two rounds (`page_shown`).
-/

namespace GpsNtp.Ui

open Machine MachineInt

/-! ## The panel's steps are not seen by the button task -/

namespace UiState

/-- What the button task reads is the same. -/
structure Alike (s t : UiState) : Prop where
  page : t.page = s.page
  screenOn : t.screenOn = s.screenOn
  button : t.button = s.button

variable {s t : UiState}

theorem alike_panelStep (s : UiState) : Alike s s.panelStep := by
  rw [panelStep]
  cases s.panel with
  | asked req =>
    dsimp only
    split_ifs <;> exact ⟨rfl, rfl, rfl⟩
  | deciding req page pageNow reqNow =>
    dsimp only
    split_ifs <;> exact ⟨rfl, rfl, rfl⟩
  | _ => exact ⟨rfl, rfl, rfl⟩

theorem Alike.step (h : Alike s t) {e : UiState.Event} (he : e ≠ .panel) :
    Alike (s.step e) (t.step e) := by
  obtain ⟨hpage, hscreen, hbutton⟩ := h
  obtain ⟨page, screenOn, renderReq, button, panel, lastDrawn, shown⟩ := s
  obtain ⟨page', screenOn', renderReq', button', panel', lastDrawn', shown'⟩ := t
  obtain rfl : page' = page := hpage
  obtain rfl : screenOn' = screenOn := hscreen
  obtain rfl : button' = button := hbutton
  cases e with
  | panel => exact absurd rfl he
  | button => cases button' <;> exact ⟨rfl, rfl, rfl⟩
  | press =>
    simp only [UiState.step]
    split_ifs <;> exact ⟨rfl, rfl, rfl⟩
  | idle =>
    simp only [UiState.step]
    split_ifs <;> exact ⟨rfl, rfl, rfl⟩
  | redrawDue =>
    simp only [UiState.step]
    split_ifs <;> exact ⟨rfl, rfl, rfl⟩

theorem Alike.run (h : Alike s t) {script : List UiState.Event}
    (hscript : ∀ e ∈ script, e ≠ .panel) :
    Alike (Machine.run UiState.step s script) (Machine.run UiState.step t script) := by
  induction script generalizing s t with
  | nil => exact h
  | cons e script ih =>
    exact ih (h.step (hscript e List.mem_cons_self)) fun e' he' =>
      hscript e' (List.mem_cons_of_mem _ he')

end UiState

/-! ## What the parts of a pass settle -/

namespace ButtonSystem

variable {s : ButtonSystem}

theorem settled_append {s' : ButtonSystem} {script : List UiState.Event} (hui : s'.ui = s.ui)
    (hscript : s'.script = s.script ++ script) :
    s'.settled = run UiState.step s.settled script := by
  rw [settled, hui, hscript, run_append, settled]

/-- A press is over, the screen is lit, and the page is turned if it was lit before. -/
theorem settled_press (h : s.settled.button = .between) :
    s.press.settled.button = .between ∧ s.press.settled.screenOn = true ∧
      s.press.settled.current =
        if s.settled.screenOn then s.settled.current.next else s.settled.current := by
  rw [@settled_append s s.press _ rfl rfl]
  generalize s.settled = u at h
  obtain ⟨page, screenOn, renderReq, button, panel, lastDrawn, shown⟩ := u
  obtain rfl : button = .between := h
  cases screenOn with
  | false => exact ⟨rfl, rfl, rfl⟩
  | true =>
    refine ⟨rfl, rfl, ?_⟩
    show Page.fromIndex (Page.fromIndex page).next.index = (Page.fromIndex page).next
    cases Page.fromIndex page <;> rfl

theorem settled_blank (h : s.settled.button = .between) :
    s.blank.settled.button = .between ∧
      s.blank.settled.screenOn = (s.settled.screenOn &&
        !decide (SCREEN_BLANK_US ≤ satSub s.nowUs s.task.lastInteractionUs)) ∧
      s.blank.settled.current = s.settled.current := by
  rw [blank]
  split
  next hblank =>
    rw [Bool.and_eq_true, Bool.and_eq_true] at hblank
    obtain ⟨⟨-, hlit⟩, hidle⟩ := hblank
    rw [@settled_append s { s with script := s.script ++ [.idle, .button] } _ rfl rfl, hlit, hidle]
    generalize s.settled = u at h hlit
    obtain ⟨page, screenOn, renderReq, button, panel, lastDrawn, shown⟩ := u
    obtain rfl : button = .between := h
    obtain rfl : screenOn = true := hlit
    exact ⟨rfl, rfl, rfl⟩
  next hblank =>
    refine ⟨h, ?_, rfl⟩
    cases hlit : s.settled.screenOn with
    | false => rfl
    | true =>
      cases hidle : decide (SCREEN_BLANK_US ≤ satSub s.nowUs s.task.lastInteractionUs) with
      | false => rfl
      | true =>
        rw [hlit, hidle] at hblank
        exact absurd rfl hblank

theorem settled_redraw (h : s.settled.button = .between) :
    s.redraw.settled.button = .between ∧ s.redraw.settled.screenOn = s.settled.screenOn ∧
      s.redraw.settled.current = s.settled.current := by
  rw [redraw]
  split
  next hdue =>
    rw [Bool.and_eq_true] at hdue
    have hlit := hdue.1
    rw [@settled_append s { s with
      script := s.script ++ [.redrawDue, .button]
      task := { s.task with lastRedrawReqUs := s.nowUs } } _ rfl rfl]
    generalize s.settled = u at h hlit
    obtain ⟨page, screenOn, renderReq, button, panel, lastDrawn, shown⟩ := u
    obtain rfl : button = .between := h
    obtain rfl : screenOn = true := hlit
    exact ⟨rfl, rfl, rfl⟩
  next hdue => exact ⟨h, rfl, rfl⟩

/-! ## What holds between passes -/

/-- **The invariant of the button task**: its script leaves it between two presses, and a screen
that is dark has been idle. -/
structure Ready (s : ButtonSystem) : Prop where
  quiet : ∀ e ∈ s.script, e ≠ .panel
  between : s.settled.button = .between
  dark : s.settled.screenOn = false →
    SCREEN_BLANK_US ≤ satSub s.nowUs s.task.lastInteractionUs

/-- A pass appends to the script accesses of the button task. -/
theorem quiet_pass (hquiet : ∀ e ∈ s.script, e ≠ .panel) (isHigh : Bool) (staleEdges : ℕ) :
    ∀ e ∈ (s.pass isHigh staleEdges).script, e ≠ .panel := by
  have happend : ∀ script script' : List UiState.Event, (∀ e ∈ script, e ≠ .panel) →
      (∀ e ∈ script', e ≠ .panel) → ∀ e ∈ script ++ script', e ≠ .panel := by
    intro script script' h h' e he
    exact (List.mem_append.mp he).elim (h e) (h' e)
  have hblank : ∀ s : ButtonSystem, (∀ e ∈ s.script, e ≠ .panel) →
      ∀ e ∈ s.blank.script, e ≠ .panel := by
    intro s hs
    rw [blank]
    split
    · exact happend _ _ hs (by simp)
    · exact hs
  have hredraw : ∀ s : ButtonSystem, (∀ e ∈ s.script, e ≠ .panel) →
      ∀ e ∈ s.redraw.script, e ≠ .panel := by
    intro s hs
    rw [redraw]
    split
    · exact happend _ _ hs (by simp)
    · exact hs
  rw [pass]
  refine hredraw _ (hblank _ ?_)
  split
  · refine happend _ _ hquiet ?_
    rw [pressScript]
    split <;> simp
  · exact hquiet

/-- **What a pass settles**: the page is turned by a press on a lit screen, and the screen is lit if
the last press is not too long ago. -/
theorem Ready.settled_pass (h : s.Ready) (isHigh : Bool) (staleEdges : ℕ) :
    (s.pass isHigh staleEdges).settled.button = .between ∧
      (s.pass isHigh staleEdges).settled.screenOn =
        !decide (SCREEN_BLANK_US ≤
          satSub s.nowUs (if s.takes isHigh then s.nowUs else s.task.lastInteractionUs)) ∧
      (s.pass isHigh staleEdges).settled.current =
        if s.takes isHigh && s.settled.screenOn then s.settled.current.next
        else s.settled.current := by
  rw [pass]
  cases s.takes isHigh with
  | false =>
    rw [if_neg Bool.false_ne_true, if_neg Bool.false_ne_true, Bool.false_and,
      if_neg Bool.false_ne_true]
    have hwatch : (s.watch isHigh staleEdges).settled.button = .between := h.between
    obtain ⟨hblank, hlit, hpage⟩ := settled_blank hwatch
    obtain ⟨hbetween, hlit', hpage'⟩ := settled_redraw hblank
    refine ⟨hbetween, ?_, hpage'.trans hpage⟩
    rw [hlit', hlit]
    show (s.settled.screenOn && !decide (SCREEN_BLANK_US ≤
      satSub s.nowUs s.task.lastInteractionUs)) = _
    cases hdark : s.settled.screenOn with
    | true => rfl
    | false => rw [decide_eq_true (h.dark hdark)]; rfl
  | true =>
    rw [if_pos rfl, if_pos rfl, Bool.true_and]
    have hwatch : (s.watch isHigh staleEdges).settled.button = .between := h.between
    obtain ⟨hpress, hon, hturned⟩ := settled_press hwatch
    obtain ⟨hblank, hlit, hpage⟩ := settled_blank hpress
    obtain ⟨hbetween, hlit', hpage'⟩ := settled_redraw hblank
    refine ⟨hbetween, ?_, (hpage'.trans hpage).trans hturned⟩
    rw [hlit', hlit, hon, Bool.true_and]
    rfl

/-- What a press leaves of the page and of the time of the last interaction. -/
def afterPress (before : Page × ℤ) (press : ℤ × Bool) : Page × ℤ :=
  (if press.2 then before.1.next else before.1, press.1)

/-- The page, and the time of the last interaction. -/
def seen (s : ButtonSystem) : Page × ℤ := (s.settled.current, s.task.lastInteractionUs)

/-- **Every step keeps the invariant**, and does what the press it takes says. -/
theorem Ready.step (h : s.Ready) (e : ButtonEvent) :
    (s.step e).Ready ∧ (s.step e).seen = (s.pressBy e).toList.foldl afterPress s.seen := by
  cases e with
  | edge => exact ⟨⟨h.quiet, h.between, h.dark⟩, rfl⟩
  | tick us =>
    refine ⟨⟨h.quiet, h.between, fun hdark => (h.dark hdark).trans ?_⟩, rfl⟩
    exact satSub_mono_left _ (le_add_of_nonneg_right (Int.natCast_nonneg us))
  | panel =>
    have hsame : UiState.Alike s.settled (s.step .panel).settled :=
      (UiState.alike_panelStep s.ui).run h.quiet
    refine ⟨⟨h.quiet, hsame.button.trans h.between, fun hdark => ?_⟩, ?_⟩
    · exact h.dark (hsame.screenOn.symm.trans hdark)
    · exact Prod.ext (congrArg Page.fromIndex hsame.page) rfl
  | go =>
    rw [ButtonSystem.step]
    split
    · exact ⟨h, rfl⟩
    next e script hscript =>
      have hsettled : ButtonSystem.settled { s with script, ui := s.ui.step e } = s.settled := by
        rw [settled, settled, hscript, run_cons]
      refine ⟨⟨fun e' he' => h.quiet e' ?_, by rw [hsettled]; exact h.between, ?_⟩, ?_⟩
      · rw [hscript]
        exact List.mem_cons_of_mem _ he'
      · rw [hsettled]
        exact h.dark
      · exact Prod.ext (congrArg UiState.current hsettled) rfl
  | pass isHigh staleEdges =>
    rw [ButtonSystem.step, pressBy]
    by_cases hscript : s.script = []
    · rw [if_pos hscript]
      obtain ⟨hnow, -, hinteraction, -⟩ := s.task_pass isHigh staleEdges
      obtain ⟨hbetween, hlit, hpage⟩ := h.settled_pass isHigh staleEdges
      refine ⟨⟨quiet_pass h.quiet isHigh staleEdges, hbetween, fun hdark => ?_⟩, ?_⟩
      · rw [hnow, hinteraction]
        rw [hlit] at hdark
        exact of_decide_eq_true (by simpa using hdark)
      · rw [seen, hpage, hinteraction]
        cases s.takes isHigh with
        | false => simp [seen]
        | true => cases s.settled.screenOn <;> simp [hscript, afterPress, seen]
    · rw [if_neg hscript, if_neg fun h => hscript h.1]
      exact ⟨h, rfl⟩

theorem ready_start (buttonEdges : ℕ) (startUs : ℤ) : (start buttonEdges startUs).Ready where
  quiet := nofun
  between := rfl
  dark := nofun

/-! ## The page, the light and the presses -/

theorem foldl_afterPress (taken : List (ℤ × Bool)) (page : Page) (us : ℤ) :
    taken.foldl afterPress (page, us) =
      (Page.next^[taken.countP Prod.snd] page, taken.getLast?.elim us Prod.fst) := by
  induction taken using List.reverseRecOn with
  | nil => rfl
  | append_singleton taken press ih =>
    rw [List.foldl_append, ih, List.countP_append, List.getLast?_append]
    rcases press with ⟨pressUs, _ | _⟩
    · rfl
    · refine Prod.ext ?_ rfl
      exact (Function.iterate_succ_apply' Page.next _ page).symm

section

variable (buttonEdges : ℕ) (startUs : ℤ)

/-- A run leaves what its presses come to. -/
theorem seen_run (evs : List ButtonEvent) :
    (run step (start buttonEdges startUs) evs).Ready ∧
      (run step (start buttonEdges startUs) evs).seen =
        (Page.next^[(presses (start buttonEdges startUs) evs).countP Prod.snd] .time,
          (presses (start buttonEdges startUs) evs).getLast?.elim startUs Prod.fst) := by
  have hfold := @run_eq_foldl _ _ _ step _ Ready seen afterPress pressBy
    (fun s e h => h.step e) _ (ready_start buttonEdges startUs) evs
  refine ⟨run_induction (fun s e h => (h.step e).1) (ready_start buttonEdges startUs) evs, ?_⟩
  rw [hfold, ← presses, ← foldl_afterPress]
  rfl

/-- **The page and the light are what the presses come to**: the page is turned by every press that
found the screen lit, and after a pass the screen is lit exactly if the last press, or the start,
was less than 15 s ago, whatever the panel does and wherever it stands. -/
theorem page_and_light {evs : List ButtonEvent}
    (h : (run step (start buttonEdges startUs) evs).script = []) (isHigh : Bool) (staleEdges : ℕ) :
    let evs' := evs ++ [.pass isHigh staleEdges]
    let s := run step (start buttonEdges startUs) evs'
    let taken := presses (start buttonEdges startUs) evs'
    s.settled.current = Page.next^[taken.countP Prod.snd] .time ∧
      (s.settled.screenOn = true ↔
        s.nowUs - taken.getLast?.elim startUs Prod.fst < SCREEN_BLANK_US) := by
  intro evs' s taken
  obtain ⟨hpage, hinteraction⟩ := Prod.ext_iff.mp (seen_run buttonEdges startUs evs').2
  refine ⟨hpage, ?_⟩
  rw [← show s.task.lastInteractionUs = taken.getLast?.elim startUs Prod.fst from hinteraction]
  have hready := (seen_run buttonEdges startUs evs).1
  have hs : s = (run step (start buttonEdges startUs) evs).pass isHigh staleEdges := by
    rw [show s = run step (start buttonEdges startUs) (evs ++ [.pass isHigh staleEdges]) from rfl,
      run_append, run_cons, run_nil, step, if_pos h]
  rw [hs]
  obtain ⟨hnow, -, hlast, -⟩ :=
    (run step (start buttonEdges startUs) evs).task_pass isHigh staleEdges
  obtain ⟨-, hlit, -⟩ := hready.settled_pass isHigh staleEdges
  rw [hlit, hnow, hlast, Bool.not_eq_true', decide_eq_false_iff_not,
    le_satSub_iff (by decide) (by decide), not_le]

/-- Two presses, and then fifteen seconds. -/
theorem page_and_light_blanked :
    let evs' := [ButtonEvent.edge, .pass true 0, .go, .go, .go, .go, .tick 300000, .edge,
      .pass true 0, .go, .go, .go, .go, .tick 15000000] ++ [.pass true 0]
    let s := run step (start 0 9000000) evs'
    let taken := presses (start 0 9000000) evs'
    s.settled.current = Page.next^[taken.countP Prod.snd] .time ∧
      (s.settled.screenOn = true ↔
        s.nowUs - taken.getLast?.elim 9000000 Prod.fst < SCREEN_BLANK_US) :=
  page_and_light 0 9000000 (by decide) true 0

end

end ButtonSystem

/-! ## The panel shows it -/

namespace UiState

variable {s : UiState}

/-- How far the panel is from its next round. -/
def stepsToTop : PanelAt → ℕ
  | .top => 0
  | .resting => 1
  | .deciding .. => 2
  | .rereading .. => 3
  | .drawn .. => 4
  | .drawing .. => 5
  | .lit _ => 6
  | .asked _ => 7

theorem stepsToTop_panelStep (h : stepsToTop s.panel ≠ 0) :
    stepsToTop s.panelStep.panel < stepsToTop s.panel := by
  rw [panelStep]
  cases hat : s.panel with
  | top => exact absurd (by rw [hat]; rfl) h
  | asked req =>
    dsimp only
    split_ifs <;> simp [stepsToTop]
  | deciding req page pageNow reqNow =>
    dsimp only
    split_ifs <;> simp [stepsToTop]
  | _ => simp [stepsToTop]

/-- What the panel's steps keep while the button task rests. -/
structure Resting (t s : UiState) : Prop where
  inv : s.Inv
  alike : Alike t s
  lit : s.screenOn = true
  between : s.button = .between

theorem Resting.panelStep {t : UiState} (h : Resting t s) : Resting t s.panelStep := by
  have hsame := alike_panelStep s
  exact ⟨h.inv.panelStep, ⟨hsame.page.trans h.alike.page, hsame.screenOn.trans h.alike.screenOn,
    hsame.button.trans h.alike.button⟩, hsame.screenOn.trans h.lit, hsame.button.trans h.between⟩

/-- A panel at the top of its round gets to show the page. -/
theorem leads_shown_of_top {t : UiState} (h : Resting t s) (htop : s.panel = .top) :
    Leads panelStep (fun s' => s'.shown = some t.current) s := by
  have hcurrent : s.current = t.current := congrArg Page.fromIndex h.alike.page
  by_cases hdrawn : s.lastDrawn = s.renderReq
  · refine .now ?_
    have hshown := (h.inv.upToDate hdrawn).resolve_right (by rw [h.between]; decide)
    rw [hshown, hcurrent]
  · refine ⟨4, ?_⟩
    obtain ⟨page, screenOn, renderReq, button, panel, lastDrawn, shown⟩ := s
    obtain rfl : panel = .top := htop
    obtain rfl : screenOn = true := h.lit
    have hask : (true && renderReq != lastDrawn) = true := by
      rw [Bool.true_and, bne_iff_ne]
      exact fun heq => hdrawn heq.symm
    show (UiState.panelStep^[4] _).shown = _
    rw [← hcurrent]
    simp only [Function.iterate_succ_apply, Function.iterate_zero_apply, UiState.panelStep]
    rw [if_pos hask]
    rfl

/-- **A lit panel that is left to run shows the page selected.** -/
theorem leads_shown (h : s.Inv) (hlit : s.screenOn = true) (hbetween : s.button = .between) :
    Leads panelStep (fun s' => s'.shown = some s.current) s := by
  have hresting : Resting s s := ⟨h, ⟨rfl, rfl, rfl⟩, hlit, hbetween⟩
  have hround := @leads_of_measure _ panelStep (Resting s) s (fun s' => stepsToTop s'.panel)
    (fun s' hs' hne => .of_next (.now ⟨hs'.panelStep, stepsToTop_panelStep hne⟩)) hresting
  refine hround.trans fun s' hs' => leads_shown_of_top hs'.1 ?_
  have hzero := hs'.2
  revert hzero
  cases s'.panel <;> simp [stepsToTop]

end UiState

namespace ButtonSystem

/-- The access to the shared state that an event is. -/
def uiEvent (s : ButtonSystem) : ButtonEvent → Option UiState.Event
  | .go => s.script.head?
  | .panel => some .panel
  | _ => none

theorem ui_pass {s : ButtonSystem} (isHigh : Bool) (staleEdges : ℕ) :
    (s.pass isHigh staleEdges).ui = s.ui := by
  obtain ⟨script, lastRedrawReqUs, heq⟩ := @blank_redraw_eq
    (if s.takes isHigh then (s.watch isHigh staleEdges).press else s.watch isHigh staleEdges)
  rw [pass, heq]
  dsimp only
  split <;> rfl

/-- **The two tasks make a run of `Ui/Pages`.** -/
theorem ui_run (buttonEdges : ℕ) (startUs : ℤ) (evs : List ButtonEvent) :
    (run step (start buttonEdges startUs) evs).ui =
      run UiState.step .start (collected step uiEvent (start buttonEdges startUs) evs) := by
  refine @run_refines _ _ _ _ step UiState.step (fun s u => s.ui = u) uiEvent ?_ _ _ rfl evs
  rintro s _ e rfl
  cases e with
  | go =>
    rw [step, uiEvent]
    cases s.script <;> rfl
  | pass isHigh staleEdges =>
    rw [step]
    split
    · exact ui_pass isHigh staleEdges
    · rfl
  | _ => rfl

/-- **The page that presses selected is shown**: where no script is under way and the screen is lit,
a panel that is left to run gets to show the first page turned by every press that found the screen
lit. -/
theorem page_shown {buttonEdges : ℕ} {startUs : ℤ} {evs : List ButtonEvent}
    (hscript : (run step (start buttonEdges startUs) evs).script = [])
    (hlit : (run step (start buttonEdges startUs) evs).ui.screenOn = true)
    (hcount : UiState.requestCount (collected step uiEvent (start buttonEdges startUs) evs) <
      2 ^ 32) :
    Leads (fun s => step s .panel)
      (fun s => s.ui.shown =
        some (Page.next^[(presses (start buttonEdges startUs) evs).countP Prod.snd] .time))
      (run step (start buttonEdges startUs) evs) := by
  obtain ⟨hready, hseen⟩ := seen_run buttonEdges startUs evs
  have hinv := (UiState.inv_run _ hcount).1
  rw [← ui_run] at hinv
  generalize run step (start buttonEdges startUs) evs = s at *
  have hsettled : s.settled = s.ui := by rw [settled, hscript, run_nil]
  have hpage := (Prod.ext_iff.mp hseen).1
  rw [seen, hsettled] at hpage
  obtain ⟨n, hn⟩ := UiState.leads_shown hinv hlit (hsettled ▸ hready.between)
  have hui : Function.Semiconj ui (fun s => step s .panel) UiState.panelStep := fun _ => rfl
  refine ⟨n, ?_⟩
  show ((fun s => step s .panel)^[n] s).ui.shown = _
  rw [(hui.iterate_right n).eq, hn]
  exact congrArg some hpage

/-- A press while the panel draws the first page. -/
theorem page_shown_press_during_draw :
    Leads (fun s => step s .panel)
      (fun s => s.ui.shown = some (Page.next^[(presses (start 0 9000000)
        [.panel, .panel, .panel, .edge, .pass true 0, .go, .go, .panel, .go, .go]).countP Prod.snd]
          .time))
      (run step (start 0 9000000)
        [.panel, .panel, .panel, .edge, .pass true 0, .go, .go, .panel, .go, .go]) :=
  page_shown (by decide) (by decide) (by decide)

end ButtonSystem

end GpsNtp.Ui
