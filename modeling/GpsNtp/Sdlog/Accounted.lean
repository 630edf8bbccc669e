import GpsNtp.Sdlog.Flush

/-!
# Sdlog/Accounted — every line is written or reported

    passed to the logger   │ taken by a flush                        │ since            │
                           │ written ⋯ │ reported │ in hand │ (lost) │ queued │ counted │

The ledger of a run follows its outputs.  Between two steps nothing of what was passed since the
last batch is missing (`Ledger.Follows`), and of what was taken nothing is missing as long as no
flush fails with something in hand (`Ledger.Follows.step`).  What the ledger calls written is on the
card, behind what was there before (`written_on_card`).
-/

namespace GpsNtp.Sdlog

open Machine MachineInt

/-- The lines passed to the logger. -/
def passed (evs : List Event) : List Line :=
  evs.filterMap fun
    | .enqueue line => some line
    | .work _ => none

/-- What has become of them: the lines passed before the last batch was drained and since, the
lines written and the counts reported. -/
structure Ledger where
  taken : List Line
  since : List Line
  written : List Line
  reported : List ℕ
deriving DecidableEq

namespace Ledger

/-- The ledger after one more event, with its output. -/
def note (l : Ledger) : Event × Output → Ledger
  | (.enqueue line, _) => { l with since := l.since ++ [line] }
  | (.work _, .took) => { l with taken := l.taken ++ l.since, since := [] }
  | (.work _, .wrote line) => { l with written := l.written ++ [line] }
  | (.work _, .reported dropped) => { l with reported := l.reported ++ [dropped] }
  | (.work _, .quiet) | (.work _, .returned _) => l

/-- **Every line passed before the last flush is written, in its order, or reported.** -/
def Accounted (l : Ledger) : Prop :=
  l.written.Sublist l.taken ∧ l.taken.length = l.written.length + l.reported.sum

/-- The ledger of a state: since the last batch nothing is missing, before it nothing is there
twice. -/
structure Follows (l : Ledger) (s : State) : Prop where
  queued : s.queue.lines.Sublist l.since
  counted : l.since.length = s.queue.lines.length + s.queue.dropped
  order : (l.written ++ inHand s.worker).Sublist l.taken
  bound : l.written.length + l.reported.sum + (inHand s.worker).length + owed s.worker ≤
    l.taken.length

/-- Of what was taken, nothing is missing. -/
def Held (l : Ledger) (s : State) : Prop :=
  l.taken.length = l.written.length + l.reported.sum + (inHand s.worker).length + owed s.worker

/-! ## One event -/

theorem Follows.enqueue {l : Ledger} {s : State} (h : Follows l s) (line : Line)
    (hroom : l.since.length + 1 ≤ u32Max) :
    Follows (l.note (.enqueue line, (step s (.enqueue line)).2)) (step s (.enqueue line)).1 := by
  have hsat : satSuccU32 s.queue.dropped = s.queue.dropped + 1 := by
    rw [satSuccU32, min_eq_right]
    have := h.counted
    omega
  refine { queued := ?_, counted := ?_, order := h.order, bound := h.bound }
  · rcases s.queue.enqueue_cases line with ⟨hlines, -⟩ | ⟨hlines, -⟩
    · exact hlines ▸ h.queued.append (List.Sublist.refl _)
    · exact hlines ▸ h.queued.trans (List.sublist_append_left _ _)
  · have hlen : (l.since ++ [line]).length = l.since.length + 1 := List.length_append
    rcases s.queue.enqueue_cases line with ⟨hlines, hdropped⟩ | ⟨hlines, hdropped⟩
    · have hqueue : (s.queue.lines ++ [line]).length = s.queue.lines.length + 1 :=
        List.length_append
      simp only [note, step, hlines, hdropped, hlen, hqueue, h.counted]
      omega
    · simp only [note, step, hlines, hdropped, hlen, hsat, h.counted]
      omega

/-- A step of the writer that moves the lines on keeps the ledger, and what is missing. -/
theorem Follows.moves {l : Ledger} {s s' : State} {o : Output} (h : Follows l s)
    (hmoves : Moves s s' o) (fault : Option ℕ) :
    Follows (l.note (.work fault, o)) s' ∧ (Held (l.note (.work fault, o)) s' ↔ Held l s) := by
  obtain ⟨hqueued, hcounted, horder, hbound⟩ := h
  cases hmoves with
  | kept ho hlines hdropped hhand howed =>
    have hnote : l.note (.work fault, o) = l := by
      rcases ho with rfl | ⟨r, rfl, -⟩ <;> rfl
    rw [hnote]
    refine ⟨⟨hlines ▸ hqueued, ?_, hhand ▸ horder, ?_⟩, ?_⟩
    · rw [hlines, hdropped, hcounted]
    · rw [hhand, howed]
      exact hbound
    · rw [Held, Held, hhand, howed]
  | took hidle hqueue hhand howed =>
    rw [hidle] at horder hbound
    have hsum : (l.taken ++ l.since).length = l.taken.length + l.since.length := List.length_append
    refine ⟨⟨hqueue ▸ List.nil_sublist _, hqueue ▸ rfl, ?_, ?_⟩, ?_⟩
    · rw [hhand]
      have hwritten : l.written.Sublist l.taken := (List.append_nil l.written) ▸ horder
      exact hwritten.append hqueued
    · simp only [note, hhand, howed, hsum, hcounted]
      simp only [inHand_idle, owed_idle, List.length_nil] at hbound
      omega
    · simp only [Held, note, hhand, howed, hsum, hcounted, hidle, inHand_idle, owed_idle,
        List.length_nil]
      omega
  | wrote line hqueue hhand howed =>
    rw [hhand] at horder hbound
    have hsum : (l.written ++ [line]).length = l.written.length + 1 := List.length_append
    refine ⟨⟨hqueue ▸ hqueued, hqueue ▸ hcounted, ?_, ?_⟩, ?_⟩
    · rw [note, List.append_assoc]
      exact horder
    · rw [List.length_cons] at hbound
      simp only [note, howed, hsum]
      omega
    · simp only [Held, note, hhand, howed, hsum, List.length_cons]
      omega
  | reported hqueue hhand hhand' howed =>
    rw [hhand] at horder hbound
    have hsum : (l.reported ++ [owed s.worker]).sum = l.reported.sum + owed s.worker := by
      rw [List.sum_append, List.sum_singleton]
    refine ⟨⟨hqueue ▸ hqueued, hqueue ▸ hcounted, hhand' ▸ horder, ?_⟩, ?_⟩
    · simp only [note, hhand', howed, hsum, List.length_nil] at hbound ⊢
      omega
    · simp only [Held, note, hhand, hhand', howed, hsum, List.length_nil]
      omega

/-- A step that fails with something in hand leaves less accounted for than was taken. -/
theorem Follows.drops {l : Ledger} {s s' : State} {o : Output} (h : Follows l s)
    (hdrops : Drops s s' o) (fault : Option ℕ) :
    Follows (l.note (.work fault, o)) s' ∧ ¬Held (l.note (.work fault, o)) s' := by
  obtain ⟨⟨err, rfl⟩, hqueue, hpos, hhand', howed'⟩ := hdrops
  have hbound := h.bound
  refine ⟨⟨hqueue ▸ h.queued, hqueue ▸ h.counted, ?_, ?_⟩, ?_⟩
  · rw [hhand']
    exact (List.Sublist.append_left (List.nil_sublist _) _).trans h.order
  · simp only [note, hhand', howed', List.length_nil]
    omega
  · simp only [Held, note, hhand', howed', List.length_nil]
    omega

/-- **One event** keeps the ledger, and loses nothing unless it fails a flush with something in
hand. -/
theorem Follows.step {l : Ledger} {s : State} (h : Follows l s) (e : Event)
    (hroom : l.since.length + (passed [e]).length ≤ u32Max) :
    Follows (l.note (e, (step s e).2)) (step s e).1 ∧
      (Held (l.note (e, (step s e).2)) (step s e).1 ↔ Held l s ∧ ¬Loses s e) := by
  cases e with
  | enqueue line => exact ⟨h.enqueue line hroom, (and_iff_left not_false).symm⟩
  | work fault =>
    rcases work_cases s fault with ⟨hloses, hdrops⟩ | ⟨hloses, hmoves⟩
    · obtain ⟨hfollows, hlost⟩ := h.drops hdrops fault
      exact ⟨hfollows, iff_of_false hlost fun hheld => hheld.2 hloses⟩
    · obtain ⟨hfollows, hheld⟩ := h.moves hmoves fault
      exact ⟨hfollows, hheld.trans (and_iff_left hloses).symm⟩

end Ledger

/-! ## A whole run -/

/-- The ledger of a run. -/
def ledger (s : State) (evs : List Event) : Ledger :=
  run Ledger.note ⟨[], [], [], []⟩ (transcript step s evs)

theorem ledger_append_singleton (s : State) (evs : List Event) (e : Event) :
    ledger s (evs ++ [e]) = (ledger s evs).note (e, (step (exec step s evs) e).2) := by
  rw [ledger, transcript_append, run_append]
  rfl

theorem passed_append_singleton (evs : List Event) (e : Event) :
    passed (evs ++ [e]) = passed evs ++ passed [e] := List.filterMap_append

/-- The ledger splits what was passed to the logger. -/
theorem Ledger.note_split (l : Ledger) (e : Event) (o : Output) :
    (l.note (e, o)).taken ++ (l.note (e, o)).since = l.taken ++ l.since ++ passed [e] := by
  cases e with
  | enqueue line => exact (List.append_assoc _ _ _).symm
  | work fault =>
    cases o with
    | took => rfl
    | quiet | wrote _ | reported _ | returned _ => exact (List.append_nil _).symm

theorem ledger_split (s : State) (evs : List Event) :
    (ledger s evs).taken ++ (ledger s evs).since = passed evs := by
  induction evs using List.reverseRecOn with
  | nil => rfl
  | append_singleton evs e ih =>
    rw [ledger_append_singleton, Ledger.note_split, ih, passed_append_singleton]

/-- **Nothing is missing** as long as no flush fails with something in hand. -/
theorem ledger_follows (card : Card) (evs : List Event) (hlines : (passed evs).length ≤ u32Max) :
    Ledger.Follows (ledger (.new card) evs) (exec step (.new card) evs) ∧
      (Ledger.Held (ledger (.new card) evs) (exec step (.new card) evs) ↔
        Throughout (fun s e => (step s e).1) (fun s e => ¬Loses s e) (.new card) evs) := by
  induction evs using List.reverseRecOn with
  | nil =>
    exact ⟨⟨List.Sublist.refl _, rfl, List.Sublist.refl _, le_rfl⟩, iff_of_true rfl trivial⟩
  | append_singleton evs e ih =>
    rw [passed_append_singleton, List.length_append] at hlines
    obtain ⟨hfollows, hheld⟩ := ih (by omega)
    have hroom : (ledger (.new card) evs).since.length + (passed [e]).length ≤ u32Max := by
      have hsplit := congrArg List.length (ledger_split (.new card) evs)
      rw [List.length_append] at hsplit
      omega
    obtain ⟨hnext, hheld'⟩ := hfollows.step e hroom
    rw [ledger_append_singleton, exec_append, throughout_append]
    exact ⟨hnext, hheld'.trans (and_congr hheld (and_iff_left trivial).symm)⟩

/-- The end of a flush leaves nothing in hand. -/
theorem idle_of_returned {s : State} {e : Event} {r : Except FlushError Unit}
    (h : (step s e).2 = .returned r) :
    inHand (step s e).1.worker = [] ∧ owed (step s e).1.worker = 0 := by
  cases e with
  | enqueue line => exact absurd h nofun
  | work fault =>
    rcases work_cases s fault with ⟨-, hdrops⟩ | ⟨-, hmoves⟩
    · exact ⟨hdrops.hand', hdrops.owed'⟩
    · rw [step] at h
      rw [h] at hmoves
      cases hmoves with
      | kept ho =>
        rcases ho with hquiet | ⟨r', -, hidle⟩
        · exact absurd hquiet nofun
        · rw [step, hidle]
          exact ⟨rfl, rfl⟩

/-- **No log line is lost without being reported**, in a history that ends with a successful flush,
exactly when no flush of it failed with something in hand.  What was passed since that flush
drained the queue is still queued, or counted there. -/
theorem lines_accounted_iff (card : Card) (evs : List Event) (e : Event)
    (hlines : (passed (evs ++ [e])).length < 2 ^ 32)
    (hok : (step (exec step (.new card) evs) e).2 = .returned (.ok ())) :
    ((ledger (.new card) (evs ++ [e])).Accounted ↔
        Throughout (fun s e => (step s e).1) (fun s e => ¬Loses s e) (.new card) (evs ++ [e])) ∧
      (ledger (.new card) (evs ++ [e])).taken ++ (ledger (.new card) (evs ++ [e])).since =
        passed (evs ++ [e]) ∧
      (exec step (.new card) (evs ++ [e])).queue.lines.Sublist
        (ledger (.new card) (evs ++ [e])).since ∧
      (ledger (.new card) (evs ++ [e])).since.length =
        (exec step (.new card) (evs ++ [e])).queue.lines.length +
          (exec step (.new card) (evs ++ [e])).queue.dropped := by
  obtain ⟨hfollows, hheld⟩ := ledger_follows card (evs ++ [e]) (Nat.le_of_lt_succ hlines)
  refine ⟨?_, ledger_split _ _, hfollows.queued, hfollows.counted⟩
  rw [← hheld]
  have horder := hfollows.order
  have hexec : exec step (.new card) (evs ++ [e]) = (step (exec step (.new card) evs) e).1 :=
    exec_append step _ _ _
  obtain ⟨hhand, howed⟩ := idle_of_returned hok
  rw [hexec, hhand, List.append_nil] at horder
  rw [Ledger.Held, hexec, hhand, howed]
  exact and_iff_right horder

/-- A line passed before a flush whose `metadata` fails, and one passed while it is under way. -/
theorem lines_accounted_metadata_fails :
    (ledger (.new ⟨none, none⟩)
      ([.enqueue [0x61, 0x0A], .work none, .work (some 0), .work none, .enqueue [0x62, 0x0A],
        .work none] ++ [.work none])).Accounted :=
  (lines_accounted_iff ⟨none, none⟩ _ (.work none) (by decide) rfl).1.mpr (by decide)

/-- **A line lost**: the open fails with the line in hand, and the next flush finds nothing to
write and succeeds. -/
theorem line_lost_at_open :
    (step (exec step (.new ⟨none, none⟩)
        [.enqueue [0x61, 0x0A], .work none, .work none, .work (some 0)]) (.work none)).2 =
      .returned (.ok ()) ∧
    passed ([.enqueue [0x61, 0x0A], .work none, .work none, .work (some 0)] ++ [.work none]) =
      [[0x61, 0x0A]] ∧
    (ledger (.new ⟨none, none⟩)
      ([.enqueue [0x61, 0x0A], .work none, .work none, .work (some 0)] ++ [.work none])) =
      { taken := [[0x61, 0x0A]], since := [], written := [], reported := [] } ∧
    ¬(ledger (.new ⟨none, none⟩)
      ([.enqueue [0x61, 0x0A], .work none, .work none, .work (some 0)] ++
        [.work none])).Accounted := by
  refine ⟨rfl, rfl, rfl, ?_⟩
  rintro ⟨-, hcount⟩
  exact absurd hcount (by decide)

/-! ## What the card holds -/

/-- The bytes of both generations, the older one first. -/
def Card.bytes (card : Card) : List UInt8 := card.rotated.getD [] ++ card.log.getD []

theorem Card.bytes_append (card : Card) (text : List UInt8) :
    (card.append text).bytes = card.bytes ++ text := (List.append_assoc _ _ _).symm

/-- What an event appends to the log file: a line or a report, or what of it precedes the fault. -/
def appended (s : State) : Event → Option (List UInt8)
  | .enqueue _ => none
  | .work fault =>
    match s.worker with
    | .writeLine line _ _ => some (reaching fault line)
    | .writeReport dropped _ => some (reaching fault (report dropped))
    | _ => none

/-- The event removes an older generation. -/
def Discards (s : State) : Event → Prop
  | .enqueue _ => False
  | .work fault =>
    match s.worker with
    | .removeFile _ => fault = none ∧ s.card.rotated ≠ none
    | _ => False

/-- What an output says of the log file: a line has been written, or a report. -/
def entry : Output → Option (List UInt8)
  | .wrote line => some line
  | .reported dropped => some (report dropped)
  | .quiet | .took | .returned _ => none

/-- What an event does to the card, by what it appends and what it says it wrote. -/
inductive Puts (s : State) (e : Event) (card' : Card) :
    Option (List UInt8) → Option (List UInt8) → Prop
  | whole (text : List UInt8) (hcard : card' = s.card.append text) :
      Puts s e card' (some text) (some text)
  | torn (text : List UInt8) (hcard : card' = s.card.append text) (hloses : Loses s e) :
      Puts s e card' (some text) none
  | kept (hcard : card'.bytes = s.card.bytes) : Puts s e card' none none
  | discarded (hcard : card'.bytes <:+ s.card.bytes) (hdiscards : Discards s e) :
      Puts s e card' none none

/-- **One event and the card**: a text is appended, whole or as far as the fault, or the card keeps
its bytes, or a rotation removes the older ones. -/
theorem event_puts (s : State) (e : Event) :
    Puts s e (step s e).1.card (appended s e) (entry (step s e).2) := by
  obtain ⟨queue, worker, card⟩ := s
  cases e with
  | enqueue line => exact .kept rfl
  | work fault =>
    cases worker with
    | idle =>
      simp only [step, work, start]
      split_ifs <;> exact .kept rfl
    | metadata batch =>
      simp only [step, work]
      split
      · split_ifs <;> exact .kept rfl
      · exact .kept rfl
    | removeFile batch =>
      by_cases hremoved : fault = none ∧ card.rotated ≠ none
      · refine .discarded ?_ hremoved
        simp only [step, work, if_pos hremoved.1]
        exact ⟨card.rotated.getD [], rfl⟩
      · refine .kept ?_
        simp only [step, work]
        split_ifs with hok
        · have hnone : card.rotated = none := by_contra fun h => hremoved ⟨hok, h⟩
          rw [Card.bytes, Card.bytes, hnone]
        · rfl
    | rename batch =>
      simp only [step, work]
      split_ifs with hok
      · refine .kept ?_
        simp only [Card.bytes, hok.2]
        exact List.append_nil _
      · exact .kept rfl
    | openLog batch =>
      simp only [step, work]
      split_ifs
      · exact .kept ((Card.bytes_append card []).trans (List.append_nil _))
      · exact .kept rfl
    | writeLine line rest dropped =>
      by_cases hall : reaching fault line = line
      · simp only [step, work, appended, hall, if_true]
        exact .whole line rfl
      · simp only [step, work, appended, if_neg hall]
        exact .torn _ rfl hall
    | writeReport dropped found =>
      by_cases hall : reaching fault (report dropped) = report dropped
      · simp only [step, work, appended, hall, if_true]
        exact .whole (report dropped) rfl
      · simp only [step, work, appended, if_neg hall]
        exact .torn _ rfl hall
    | flushFile =>
      simp only [step, work]
      split_ifs <;> exact .kept rfl

/-- What is appended comes last, and all else stays unless older bytes are removed. -/
theorem Puts.card {s : State} {e : Event} {card' : Card} {text? said : Option (List UInt8)}
    (h : Puts s e card' text? said) :
    card'.bytes <:+ s.card.bytes ++ text?.toList.flatten ∧
      (¬Discards s e → card'.bytes = s.card.bytes ++ text?.toList.flatten) := by
  have hnothing : s.card.bytes = s.card.bytes ++ (none : Option (List UInt8)).toList.flatten :=
    (List.append_nil _).symm
  have hsome : ∀ text, (s.card.append text).bytes =
      s.card.bytes ++ (some text).toList.flatten := fun text => by
    rw [Card.bytes_append, Option.toList_some, List.flatten_singleton]
  cases h with
  | whole text hcard => exact hcard ▸ ⟨hsome text ▸ List.suffix_rfl, fun _ => hsome text⟩
  | torn text hcard => exact hcard ▸ ⟨hsome text ▸ List.suffix_rfl, fun _ => hsome text⟩
  | kept hcard =>
    rw [hcard, ← hnothing]
    exact ⟨List.suffix_rfl, fun _ => rfl⟩
  | discarded hcard hdiscards =>
    rw [← hnothing]
    exact ⟨hcard, fun hnot => absurd hdiscards hnot⟩

/-- What is said to be written has been appended, and nothing else has unless the write failed. -/
theorem Puts.entry {s : State} {e : Event} {card' : Card} {text? said : Option (List UInt8)}
    (h : Puts s e card' text? said) :
    said.toList.Sublist text?.toList ∧ (¬Loses s e → said = text?) := by
  cases h with
  | whole text => exact ⟨List.Sublist.refl _, fun _ => rfl⟩
  | torn text _ hloses => exact ⟨List.nil_sublist _, fun hnot => absurd hloses hnot⟩
  | kept | discarded => exact ⟨List.Sublist.refl _, fun _ => rfl⟩

/-- Everything a run appends to the log file, text by text. -/
def appendedTexts (s : State) (evs : List Event) : List (List UInt8) :=
  collected (fun s e => (step s e).1) appended s evs

/-- What a run says it wrote. -/
def entries (s : State) (evs : List Event) : List (List UInt8) :=
  (transcript step s evs).filterMap fun event => entry event.2

theorem entries_cons (s : State) (e : Event) (evs : List Event) :
    entries s (e :: evs) = (entry (step s e).2).toList ++ entries (step s e).1 evs := by
  rw [entries, transcript_cons, List.filterMap_cons]
  cases entry (step s e).2 <;> rfl

theorem entries_append_singleton (s : State) (evs : List Event) (e : Event) :
    entries s (evs ++ [e]) =
      entries s evs ++ (entry (step (exec step s evs) e).2).toList := by
  rw [entries, transcript_append, List.filterMap_append]
  exact congrArg _ ((entries_cons _ e []).trans (List.append_nil _))

/-- **A run appends what it says it wrote**, and no more as long as no flush fails with something
in hand. -/
theorem entries_of_run (s : State) (evs : List Event) :
    (entries s evs).Sublist (appendedTexts s evs) ∧
      (Throughout (fun s e => (step s e).1) (fun s e => ¬Loses s e) s evs →
        entries s evs = appendedTexts s evs) := by
  induction evs generalizing s with
  | nil => exact ⟨List.Sublist.refl _, fun _ => rfl⟩
  | cons e evs ih =>
    obtain ⟨hsub, heq⟩ := ih (step s e).1
    obtain ⟨hentry, hentry'⟩ := (event_puts s e).entry
    rw [entries_cons, appendedTexts, collected]
    exact ⟨hentry.append hsub, fun h => by rw [hentry' h.1, heq h.2, appendedTexts]⟩

/-- **The card after a run** ends in what the run appended, behind all that was there before unless
a rotation has removed an older generation. -/
theorem card_of_run (s : State) (evs : List Event) :
    (exec step s evs).card.bytes <:+ s.card.bytes ++ (appendedTexts s evs).flatten ∧
      (Throughout (fun s e => (step s e).1) (fun s e => ¬Discards s e) s evs →
        (exec step s evs).card.bytes = s.card.bytes ++ (appendedTexts s evs).flatten) := by
  induction evs generalizing s with
  | nil =>
    have hstart : s.card.bytes = s.card.bytes ++ (appendedTexts s []).flatten :=
      (List.append_nil _).symm
    exact ⟨hstart ▸ List.suffix_rfl, fun _ => hstart⟩
  | cons e evs ih =>
    obtain ⟨hsuffix, heq⟩ := ih (step s e).1
    obtain ⟨⟨gone, hcard⟩, hcard'⟩ := (event_puts s e).card
    have hsplit : (appendedTexts s (e :: evs)).flatten =
        (appended s e).toList.flatten ++ (appendedTexts (step s e).1 evs).flatten :=
      List.flatten_append
    rw [exec_cons, hsplit, ← List.append_assoc]
    refine ⟨hsuffix.trans ⟨gone, ?_⟩, fun h => ?_⟩
    · rw [← hcard, List.append_assoc]
    · rw [heq h.2, hcard' h.1]

/-- The ledger's lines are among what the run says it wrote. -/
theorem ledger_written (s : State) (evs : List Event) :
    (ledger s evs).written.Sublist (entries s evs) := by
  induction evs using List.reverseRecOn with
  | nil => exact List.Sublist.refl _
  | append_singleton evs e ih =>
    rw [ledger_append_singleton, entries_append_singleton]
    generalize (step (exec step s evs) e).2 = output
    cases e with
    | enqueue line => exact ih.trans (List.sublist_append_left _ _)
    | work fault =>
      cases output with
      | wrote line => exact ih.append (List.Sublist.refl _)
      | quiet | took | reported _ | returned _ => exact ih.trans (List.sublist_append_left _ _)

/-- **What the ledger calls written is on the card.**  Both generations of the log file, the older
one first, end in everything that the run appended to it, the ledger's lines among it in their
order: behind all that was there at the start, unless a rotation has removed an older generation.
With no flush failing, it has appended exactly the lines and the reports. -/
theorem written_on_card (card : Card) (evs : List Event) :
    let texts := appendedTexts (.new card) evs
    let bytes := (exec step (.new card) evs).card.bytes
    (ledger (.new card) evs).written.Sublist texts ∧
      (Throughout (fun s e => (step s e).1) (fun s e => ¬Loses s e) (.new card) evs →
        entries (.new card) evs = texts) ∧
      bytes <:+ card.bytes ++ texts.flatten ∧
      (Throughout (fun s e => (step s e).1) (fun s e => ¬Discards s e) (.new card) evs →
        bytes = card.bytes ++ texts.flatten) := by
  obtain ⟨hsub, heq⟩ := entries_of_run (.new card) evs
  exact ⟨(ledger_written _ evs).trans hsub, heq, card_of_run (.new card) evs⟩

end GpsNtp.Sdlog
