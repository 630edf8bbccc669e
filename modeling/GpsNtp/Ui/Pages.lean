import GpsNtp.Machinery.MachineInt
import GpsNtp.Machinery.Run

/-!
# Ui/Pages — no page press is lost

    button   read screen_on ─ read page ─ store page' ─ render_req + 1
    panel    read render_req ─ read screen_on ─ read page ─ draw ─ read page, render_req ─ last_drawn

Two tasks over three atomics, interleaved step by step.  The page is stored before the request is
counted, so a panel that drew for the newest request drew the newest page, unless that page's own
request is still to come (`Inv`).
-/

namespace GpsNtp.Ui

open Machine MachineInt

/-! ## Pages -/

/-- `Page`. -/
inductive Page where
  | time
  | location
  | resources
  | battery
  | ntp
  | network
deriving DecidableEq

namespace Page

/-- `Page::next`. -/
def next : Page → Page
  | time => location
  | location => resources
  | resources => battery
  | battery => ntp
  | ntp => network
  | network => time

/-- `Page::index`. -/
def index : Page → UInt8
  | time => 0
  | location => 1
  | resources => 2
  | battery => 3
  | ntp => 4
  | network => 5

/-- `Page::from_index`. -/
def fromIndex (index : UInt8) : Page :=
  match index.toNat % 6 with
  | 0 => time
  | 1 => location
  | 2 => resources
  | 3 => battery
  | 4 => ntp
  | _ => network

end Page

/-! ## The tasks -/

/-- Where the button task stands. -/
inductive ButtonAt where
  | between
  /-- In a press on a dark screen, about to store `screen_on`. -/
  | waking
  /-- In a press on a lit screen, about to read the page. -/
  | turning
  /-- About to store the next page. -/
  | storing (page : Page)
  /-- About to count the request of a press. -/
  | requesting
  /-- Idle for long, about to turn the screen off. -/
  | blanking
  /-- About to count the request of a periodic redraw. -/
  | redrawing
deriving DecidableEq

/-- Where the panel task stands, with what it has read in this round. -/
inductive PanelAt where
  | top
  /-- About to read `screen_on`. -/
  | asked (req : ℕ)
  /-- About to read the page. -/
  | lit (req : ℕ)
  | drawing (req : ℕ) (page : Page)
  /-- About to read the page again. -/
  | drawn (req : ℕ) (page : Page)
  /-- About to read the request count again. -/
  | rereading (req : ℕ) (page pageNow : Page)
  | deciding (req : ℕ) (page pageNow : Page) (reqNow : ℕ)
  /-- Reading sensors until the next round. -/
  | resting
deriving DecidableEq

/-- `UiControl`, the two tasks over it, and the page on the panel. -/
structure UiState where
  page : UInt8
  screenOn : Bool
  renderReq : ℕ
  button : ButtonAt
  panel : PanelAt
  lastDrawn : ℕ
  shown : Option Page
deriving DecidableEq

namespace UiState

/-- The tasks before their first steps. -/
def start : UiState where
  page := Page.time.index
  screenOn := true
  renderReq := 1
  button := .between
  panel := .top
  lastDrawn := 0
  shown := none

/-- The page selected. -/
def current (s : UiState) : Page := .fromIndex s.page

/-- `fetch_add` on the request count, with the step that follows it. -/
def request (s : UiState) : UiState :=
  { s with renderReq := wrapU32 (s.renderReq + 1), button := .between }

/-- The button task's next step. -/
def buttonStep (s : UiState) : UiState :=
  match s.button with
  | .between => s
  | .waking => { s with screenOn := true, button := .requesting }
  | .turning => { s with button := .storing s.current.next }
  | .storing page => { s with page := page.index, button := .requesting }
  | .requesting => s.request
  | .blanking => { s with screenOn := false, button := .between }
  | .redrawing => s.request

/-- The panel task's next step. -/
def panelStep (s : UiState) : UiState :=
  match s.panel with
  | .top => { s with panel := .asked s.renderReq }
  | .asked req =>
    if s.screenOn && req != s.lastDrawn then { s with panel := .lit req }
    else { s with panel := .resting }
  | .lit req => { s with panel := .drawing req s.current }
  | .drawing req page => { s with shown := some page, panel := .drawn req page }
  | .drawn req page => { s with panel := .rereading req page s.current }
  | .rereading req page pageNow => { s with panel := .deciding req page pageNow s.renderReq }
  | .deciding req page pageNow reqNow =>
    if pageNow = page ∧ reqNow = req then { s with lastDrawn := req, panel := .resting }
    else { s with panel := .resting }
  -- what is read here decides about sensors only
  | .resting => { s with panel := .top }

/-- What can happen next: the button task begins a press, finds the screen idle or a redraw due, or
goes on; or the panel task goes on. -/
inductive Event where
  | press
  | idle
  | redrawDue
  | button
  | panel
deriving DecidableEq

def step (s : UiState) : Event → UiState
  | .press =>
    if s.button = .between then { s with button := if s.screenOn then .turning else .waking } else s
  | .idle => if s.button = .between ∧ s.screenOn then { s with button := .blanking } else s
  | .redrawDue => if s.button = .between ∧ s.screenOn then { s with button := .redrawing } else s
  | .button => s.buttonStep
  | .panel => s.panelStep

/-- Whether a press has begun and is not over. -/
def midPress (s : UiState) : Bool :=
  match s.button with
  | .waking | .turning | .storing _ | .requesting => true
  | .between | .blanking | .redrawing => false

/-- Whether an event counts a request. -/
def requests (s : UiState) (e : Event) : Bool :=
  e = .button && (s.button = .requesting || s.button = .redrawing)

/-- The redraw requests of a run: that of the first frame, and those counted since. -/
def requestCount (evs : List Event) : ℕ := 1 + metCount step requests start evs

/-! ## The invariant -/

/-- The panel has read this request and not drawn for it yet. -/
def Sampling (s : UiState) (req : ℕ) : Prop := s.lastDrawn < req ∧ req ≤ s.renderReq

/-- A page drawn for this request is the one selected, unless a newer request is to come. -/
def Newest (s : UiState) (req : ℕ) (page : Page) : Prop :=
  req = s.renderReq → page = s.current ∨ s.button = .requesting

/-- What the panel has read so far is in order. -/
def PanelOk (s : UiState) : PanelAt → Prop
  | .top | .resting => True
  | .asked req => s.lastDrawn ≤ req ∧ req ≤ s.renderReq
  | .lit req => s.Sampling req
  | .drawing req page => s.Sampling req ∧ s.Newest req page
  | .drawn req page | .rereading req page _ | .deciding req page _ _ =>
    s.Sampling req ∧ s.Newest req page ∧ s.shown = some page

/-- **The invariant of the two tasks.** -/
structure Inv (s : UiState) : Prop where
  behind : s.lastDrawn ≤ s.renderReq
  panel : s.PanelOk s.panel
  upToDate : s.lastDrawn = s.renderReq → s.shown = some s.current ∨ s.button = .requesting

section

variable {s s' : UiState}

/-- **What the panel has read stays in order** while the button task moves on. -/
theorem PanelOk.mono {p : PanelAt} (h : s.PanelOk p) (hdrawn : s'.lastDrawn = s.lastDrawn)
    (hshown : s'.shown = s.shown) (hreq : s.renderReq ≤ s'.renderReq)
    (hnewest : ∀ req page, req ≤ s.renderReq → s.Newest req page → s'.Newest req page) :
    s'.PanelOk p := by
  have hsampling : ∀ {req}, s.Sampling req → s'.Sampling req := fun ⟨hlt, hle⟩ =>
    ⟨hdrawn ▸ hlt, hle.trans hreq⟩
  cases p with
  | top => trivial
  | resting => trivial
  | asked req => exact ⟨hdrawn ▸ h.1, h.2.trans hreq⟩
  | lit req => exact hsampling h
  | drawing req page => exact ⟨hsampling h.1, hnewest req page h.1.2 h.2⟩
  | drawn req page =>
    exact ⟨hsampling h.1, hnewest req page h.1.2 h.2.1, hshown.trans h.2.2⟩
  | rereading req page pageNow =>
    exact ⟨hsampling h.1, hnewest req page h.1.2 h.2.1, hshown.trans h.2.2⟩
  | deciding req page pageNow reqNow =>
    exact ⟨hsampling h.1, hnewest req page h.1.2 h.2.1, hshown.trans h.2.2⟩

/-- A step of the button task that neither stores a page nor counts a request. -/
theorem Inv.moves (h : s.Inv) (hrequesting : s.button ≠ .requesting) (screenOn : Bool)
    (button : ButtonAt) : ({ s with screenOn, button } : UiState).Inv where
  behind := h.behind
  panel := h.panel.mono rfl rfl le_rfl fun _ _ _ hnewest heq =>
    .inl ((hnewest heq).resolve_right hrequesting)
  upToDate heq := .inl ((h.upToDate heq).resolve_right hrequesting)

/-- A page is stored: its request is to come. -/
theorem Inv.stores (h : s.Inv) (page : UInt8) :
    ({ s with page, button := .requesting } : UiState).Inv where
  behind := h.behind
  panel := h.panel.mono rfl rfl le_rfl fun _ _ _ _ _ => .inr rfl
  upToDate _ := .inr rfl

/-- A request is counted: the panel is behind it. -/
theorem Inv.request (h : s.Inv) (hwrap : s.renderReq + 1 < 2 ^ 32) : s.request.Inv := by
  have hreq : s.request.renderReq = s.renderReq + 1 := Nat.mod_eq_of_lt hwrap
  have hbehind := h.behind
  have hdrawn : s.request.lastDrawn = s.lastDrawn := rfl
  refine ⟨by omega, h.panel.mono rfl rfl (by omega) fun req _ hle _ heq => ?_, fun heq => ?_⟩
  · omega
  · omega

theorem Inv.buttonStep (h : s.Inv) (hwrap : s.requests .button = true → s.renderReq + 1 < 2 ^ 32) :
    s.buttonStep.Inv := by
  have hneq : ∀ b, s.button = b → b ≠ .requesting → s.button ≠ .requesting := fun b hb hb' =>
    hb ▸ hb'
  rw [UiState.buttonStep]
  cases hbutton : s.button with
  | between => exact h
  | waking => exact h.moves (hneq _ hbutton (by decide)) true .requesting
  | turning => exact h.moves (hneq _ hbutton (by decide)) s.screenOn _
  | storing page => exact h.stores page.index
  | requesting => exact h.request (hwrap (by simp [requests, hbutton]))
  | blanking => exact h.moves (hneq _ hbutton (by decide)) false .between
  | redrawing => exact h.request (hwrap (by simp [requests, hbutton]))

theorem Inv.panelStep (h : s.Inv) : s.panelStep.Inv := by
  have hpanel := h.panel
  rw [UiState.panelStep]
  cases hat : s.panel with
  | top => exact ⟨h.behind, ⟨h.behind, le_rfl⟩, h.upToDate⟩
  | asked req =>
    rw [hat] at hpanel
    dsimp only
    split_ifs with hdraw
    · rw [Bool.and_eq_true, bne_iff_ne] at hdraw
      exact ⟨h.behind, ⟨lt_of_le_of_ne hpanel.1 hdraw.2.symm, hpanel.2⟩, h.upToDate⟩
    · exact ⟨h.behind, trivial, h.upToDate⟩
  | lit req =>
    rw [hat] at hpanel
    exact ⟨h.behind, ⟨hpanel, fun _ => .inl rfl⟩, h.upToDate⟩
  | drawing req page =>
    rw [hat] at hpanel
    refine ⟨h.behind, ⟨hpanel.1, hpanel.2, rfl⟩, fun heq => ?_⟩
    have hlt : s.lastDrawn < s.renderReq := hpanel.1.1.trans_le hpanel.1.2
    exact absurd heq hlt.ne
  | drawn req page =>
    rw [hat] at hpanel
    exact ⟨h.behind, hpanel, h.upToDate⟩
  | rereading req page pageNow =>
    rw [hat] at hpanel
    exact ⟨h.behind, hpanel, h.upToDate⟩
  | deciding req page pageNow reqNow =>
    rw [hat] at hpanel
    obtain ⟨⟨-, hle⟩, hnewest, hshown⟩ := hpanel
    dsimp only
    split_ifs with hsame
    · refine ⟨hle, trivial, fun heq => ?_⟩
      rcases hnewest heq with hpage | hrequesting
      · exact .inl (hshown.trans (congrArg some hpage))
      · exact .inr hrequesting
    · exact ⟨h.behind, trivial, h.upToDate⟩
  | resting => exact ⟨h.behind, trivial, h.upToDate⟩

theorem Inv.step (h : s.Inv) (e : Event) (hwrap : s.requests e = true → s.renderReq + 1 < 2 ^ 32) :
    (s.step e).Inv := by
  have hbetween : s.button = .between → s.button ≠ .requesting := fun hb hb' =>
    ButtonAt.noConfusion (hb.symm.trans hb')
  cases e with
  | press =>
    rw [UiState.step]
    by_cases hb : s.button = .between
    · rw [if_pos hb]
      exact h.moves (hbetween hb) s.screenOn _
    · rwa [if_neg hb]
  | idle =>
    rw [UiState.step]
    split_ifs with hb
    · exact h.moves (hbetween hb.1) s.screenOn _
    · exact h
  | redrawDue =>
    rw [UiState.step]
    split_ifs with hb
    · exact h.moves (hbetween hb.1) s.screenOn _
    · exact h
  | button => exact h.buttonStep hwrap
  | panel => exact h.panelStep

theorem renderReq_panelStep (s : UiState) : s.panelStep.renderReq = s.renderReq := by
  rw [UiState.panelStep]
  cases s.panel with
  | asked req =>
    dsimp only
    split_ifs <;> rfl
  | deciding req page pageNow reqNow =>
    dsimp only
    split_ifs <;> rfl
  | _ => rfl

/-- The request count moves on exactly the events that count a request. -/
theorem renderReq_step (s : UiState) (e : Event) :
    (s.step e).renderReq = if s.requests e then wrapU32 (s.renderReq + 1) else s.renderReq := by
  cases e with
  | press =>
    rw [UiState.step]
    by_cases hb : s.button = .between
    · rw [if_pos hb]
      rfl
    · rw [if_neg hb]
      rfl
  | idle =>
    rw [UiState.step]
    by_cases hb : s.button = .between ∧ s.screenOn = true
    · rw [if_pos hb]
      rfl
    · rw [if_neg hb]
      rfl
  | redrawDue =>
    rw [UiState.step]
    by_cases hb : s.button = .between ∧ s.screenOn = true
    · rw [if_pos hb]
      rfl
    · rw [if_neg hb]
      rfl
  | button =>
    rw [UiState.step, UiState.buttonStep]
    cases hb : s.button <;> simp [requests, hb, UiState.request]
  | panel => exact renderReq_panelStep s

end

/-! ## Runs -/

/-- The invariant of a run, and the count it has reached. -/
theorem inv_run (evs : List Event) (h : requestCount evs < 2 ^ 32) :
    (run step start evs).Inv ∧ (run step start evs).renderReq = requestCount evs := by
  induction evs using List.reverseRecOn with
  | nil => exact ⟨⟨by decide, trivial, by decide⟩, rfl⟩
  | append_singleton evs e ih =>
    have hcount : requestCount (evs ++ [e]) =
        requestCount evs + ((run step start evs).requests e).toNat := by
      rw [requestCount, metCount_append_singleton, requestCount, Nat.add_assoc]
    rw [hcount] at h
    obtain ⟨hinv, hreq⟩ := ih (by omega)
    rw [run_append, run_cons, run_nil, hcount]
    refine ⟨hinv.step e fun hrequests => ?_, ?_⟩
    · rw [hrequests, Bool.toNat_true] at h
      omega
    · rw [renderReq_step]
      split_ifs with hrequests
      · rw [hrequests, Bool.toNat_true] at h ⊢
        rw [hreq]
        exact Nat.mod_eq_of_lt h
      · rw [Bool.eq_false_of_not_eq_true hrequests, hreq]
        rfl

/-- **No page press is lost**: a panel that is up to date while no press is under way shows the page
selected, after any interleaving. -/
theorem panel_up_to_date (evs : List Event) (h : requestCount evs < 2 ^ 32)
    (hbetween : (run step start evs).midPress = false)
    (hdrawn : (run step start evs).lastDrawn = (run step start evs).renderReq) :
    (run step start evs).shown = some (run step start evs).current := by
  refine ((inv_run evs h).1.upToDate hdrawn).resolve_right fun hrequesting => ?_
  rw [midPress, hrequesting] at hbetween
  exact Bool.false_ne_true hbetween.symm

/-- A press lands while the first frame is drawn: the frame is drawn again. -/
theorem panel_up_to_date_press_during_draw :
    (run step start ([.panel, .panel, .panel, .press, .button, .button, .panel, .button] ++
      List.replicate 4 .panel ++ List.replicate 8 .panel)).shown = some .location :=
  panel_up_to_date _ (by decide) (by decide) (by decide)

end UiState

end GpsNtp.Ui
