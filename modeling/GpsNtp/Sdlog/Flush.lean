import GpsNtp.Machinery.Run
import GpsNtp.Sdlog.Queue

/-!
# Sdlog/Flush — the writer against a card that fails

    idle ─drain─▸ metadata ─▸ (remove ─▸ rename) ─▸ open ─▸ write ⋯ write ─▸ report ─▸ flush ─▸ idle
                                          │          │        │                │        │
                                          └──────────┴────────┴── the batch ───┘        └ nothing
                                                                  is lost                 left

One flush takes one card operation at a time, and every other task may queue a line between two of
them.  The queue is emptied before the first operation, so what a failing operation leaves in hand
is gone, unless it is the flush of the file, which comes last.
-/

namespace GpsNtp.Sdlog

open Machine MachineInt

/-! ## The card -/

/-- Rotate when the current file grows past this size. -/
def ROTATE_AT_BYTES : ℕ := 8 * 1024 * 1024

/-- The two generations of the log file. -/
structure Card where
  log : Option (List UInt8)
  rotated : Option (List UInt8)
deriving DecidableEq

/-- What of a text reaches the card: all of it, or the bytes before the fault. -/
def reaching (fault : Option ℕ) (text : List UInt8) : List UInt8 :=
  match fault with
  | none => text
  | some n => text.take n

/-- The card with some bytes appended to the current file. -/
def Card.append (card : Card) (text : List UInt8) : Card :=
  { card with log := some (card.log.getD [] ++ text) }

/-- The line that accounts for the refused ones. -/
def report (dropped : ℕ) : Line :=
  ("- WARN rust_gps_ntp::sdlog: " ++ toString dropped ++
    " line(s) dropped (queue full)\n").toUTF8.data.toList

/-! ## One flush -/

/-- The context of each failure of `flush_to_card`. -/
inductive FlushError
  | rotateLog | openLog | writeLog | flushLog
deriving DecidableEq

/-- What one flush drained, which is something: with nothing drained it has returned. -/
structure Batch where
  lines : List Line
  dropped : ℕ
  found : ¬(lines = [] ∧ dropped = 0)
deriving DecidableEq

/-- Where `flush_to_card` stands: the operation it comes to next, and what it has in hand. -/
inductive Worker
  | idle
  | metadata (batch : Batch)
  | removeFile (batch : Batch)
  | rename (batch : Batch)
  | openLog (batch : Batch)
  | writeLine (line : Line) (rest : List Line) (dropped : ℕ)
  | writeReport (dropped : ℕ) (found : dropped ≠ 0)
  | flushFile
deriving DecidableEq

/-- What one step of the writer does to be seen from outside. -/
inductive Output
  | quiet
  | took
  | wrote (line : Line)
  | reported (dropped : ℕ)
  | returned (result : Except FlushError Unit)

/-- The write that comes next. -/
def nextWrite (dropped : ℕ) : List Line → Worker
  | line :: rest => .writeLine line rest dropped
  | [] => if found : dropped ≠ 0 then .writeReport dropped found else .flushFile

structure State where
  queue : Queue
  worker : Worker
  card : Card
deriving DecidableEq

/-- The start of a flush: it returns at once when nothing was drained. -/
def start (s : State) (lines : List Line) (dropped : ℕ) : State × Output :=
  if found : lines = [] ∧ dropped = 0 then (s, .returned (.ok ()))
  else ({ s with worker := .metadata ⟨lines, dropped, found⟩ }, .took)

/-- The next step of the writer; with a fault, the card operation fails, a write after so many
bytes. -/
def work (s : State) (fault : Option ℕ) : State × Output :=
  match s.worker with
  | .idle =>
    let (queue, lines, dropped) := s.queue.drain
    start { s with queue } lines dropped
  | .metadata batch =>
    match fault, s.card.log with
    | none, some content =>
      if content.length > ROTATE_AT_BYTES then ({ s with worker := .removeFile batch }, .quiet)
      else ({ s with worker := .openLog batch }, .quiet)
    | _, _ => ({ s with worker := .openLog batch }, .quiet)
  | .removeFile batch =>
    let card := if fault = none then { s.card with rotated := none } else s.card
    ({ s with worker := .rename batch, card }, .quiet)
  | .rename batch =>
    -- FATFS rename does not overwrite
    if fault = none ∧ s.card.rotated = none then
      ({ s with worker := .openLog batch, card := { log := none, rotated := s.card.log } }, .quiet)
    else ({ s with worker := .idle }, .returned (.error .rotateLog))
  | .openLog batch =>
    if fault = none then
      ({ s with
          worker := nextWrite batch.dropped batch.lines
          card := s.card.append [] }, .quiet)
    else ({ s with worker := .idle }, .returned (.error .openLog))
  | .writeLine line rest dropped =>
    let card := s.card.append (reaching fault line)
    if reaching fault line = line then
      ({ s with worker := nextWrite dropped rest, card }, .wrote line)
    else ({ s with worker := .idle, card }, .returned (.error .writeLog))
  | .writeReport dropped _ =>
    let card := s.card.append (reaching fault (report dropped))
    if reaching fault (report dropped) = report dropped then
      ({ s with worker := .flushFile, card }, .reported dropped)
    else ({ s with worker := .idle, card }, .returned (.error .writeLog))
  | .flushFile =>
    if fault = none then ({ s with worker := .idle }, .returned (.ok ()))
    else ({ s with worker := .idle }, .returned (.error .flushLog))

/-- What happens to the logger: a line is passed to it, or the writer takes a step. -/
inductive Event
  | enqueue (line : Line)
  | work (fault : Option ℕ)

/-- One event. -/
def step (s : State) : Event → State × Output
  | .enqueue line => ({ s with queue := s.queue.enqueue line }, .quiet)
  | .work fault => work s fault

/-- The logger with the card it is started on. -/
def State.new (card : Card) : State := { queue := Queue.new, worker := .idle, card }

/-! ## What a step does to the lines -/

/-- The lines in hand that are not yet written. -/
def inHand : Worker → List Line
  | .metadata batch | .removeFile batch | .rename batch | .openLog batch => batch.lines
  | .writeLine line rest _ => line :: rest
  | .idle | .writeReport _ _ | .flushFile => []

/-- The count in hand that is not yet reported. -/
def owed : Worker → ℕ
  | .metadata batch | .removeFile batch | .rename batch | .openLog batch => batch.dropped
  | .writeLine _ _ dropped => dropped
  | .writeReport dropped _ => dropped
  | .idle | .flushFile => 0

@[simp] theorem inHand_idle : inHand .idle = [] := rfl

@[simp] theorem owed_idle : owed .idle = 0 := rfl

@[simp] theorem inHand_nextWrite (dropped : ℕ) (lines : List Line) :
    inHand (nextWrite dropped lines) = lines := by
  cases lines with
  | cons line rest => rfl
  | nil =>
    rw [nextWrite]
    split_ifs <;> rfl

@[simp] theorem owed_nextWrite (dropped : ℕ) (lines : List Line) :
    owed (nextWrite dropped lines) = dropped := by
  cases lines with
  | cons line rest => rfl
  | nil =>
    rw [nextWrite]
    split_ifs with h
    · rfl
    · exact (not_not.mp h).symm

theorem Batch.pos (batch : Batch) : 0 < batch.lines.length + batch.dropped := by
  rw [Nat.pos_iff_ne_zero]
  intro h
  exact batch.found ⟨List.eq_nil_of_length_eq_zero (by omega), by omega⟩

/-- **The event fails a flush with something in hand**: at the rename, at the open or at a
write. -/
def Loses (s : State) : Event → Prop
  | .enqueue _ => False
  | .work fault =>
    match s.worker with
    | .rename _ => ¬(fault = none ∧ s.card.rotated = none)
    | .openLog _ => fault ≠ none
    | .writeLine line _ _ => reaching fault line ≠ line
    | .writeReport dropped _ => reaching fault (report dropped) ≠ report dropped
    | _ => False

instance Loses.decidable : ∀ (s : State) (e : Event), Decidable (Loses s e)
  | _, .enqueue _ => inferInstanceAs (Decidable False)
  | ⟨_, .rename _, card⟩, .work fault =>
    inferInstanceAs (Decidable ¬(fault = none ∧ card.rotated = none))
  | ⟨_, .openLog _, _⟩, .work fault => inferInstanceAs (Decidable (fault ≠ none))
  | ⟨_, .writeLine line _ _, _⟩, .work fault =>
    inferInstanceAs (Decidable (reaching fault line ≠ line))
  | ⟨_, .writeReport dropped _, _⟩, .work fault =>
    inferInstanceAs (Decidable (reaching fault (report dropped) ≠ report dropped))
  | ⟨_, .idle, _⟩, .work _ | ⟨_, .metadata _, _⟩, .work _ | ⟨_, .removeFile _, _⟩, .work _
  | ⟨_, .flushFile, _⟩, .work _ => inferInstanceAs (Decidable False)

/-- What a step of the writer does to the lines and the count, by its output. -/
inductive Moves (s s' : State) : Output → Prop
  | kept {o : Output} (ho : o = .quiet ∨ ∃ r, o = .returned r ∧ s'.worker = .idle)
      (hlines : s'.queue.lines = s.queue.lines) (hdropped : s'.queue.dropped = s.queue.dropped)
      (hhand : inHand s'.worker = inHand s.worker) (howed : owed s'.worker = owed s.worker) :
      Moves s s' o
  | took (hidle : s.worker = .idle) (hqueue : s'.queue = Queue.new)
      (hhand : inHand s'.worker = s.queue.lines) (howed : owed s'.worker = s.queue.dropped) :
      Moves s s' .took
  | wrote (line : Line) (hqueue : s'.queue = s.queue)
      (hhand : inHand s.worker = line :: inHand s'.worker)
      (howed : owed s'.worker = owed s.worker) :
      Moves s s' (.wrote line)
  | reported (hqueue : s'.queue = s.queue) (hhand : inHand s.worker = [])
      (hhand' : inHand s'.worker = []) (howed : owed s'.worker = 0) :
      Moves s s' (.reported (owed s.worker))

/-- A step that fails leaves the queue as it is and the hand empty. -/
structure Drops (s s' : State) (o : Output) : Prop where
  out : ∃ err, o = .returned (.error err)
  queue : s'.queue = s.queue
  hand : 0 < (inHand s.worker).length + owed s.worker
  hand' : inHand s'.worker = []
  owed' : owed s'.worker = 0

/-- **One step of the writer** moves the lines on, or fails and loses what is in hand. -/
theorem work_cases (s : State) (fault : Option ℕ) :
    (Loses s (.work fault) ∧ Drops s (work s fault).1 (work s fault).2) ∨
      (¬Loses s (.work fault) ∧ Moves s (work s fault).1 (work s fault).2) := by
  obtain ⟨queue, worker, card⟩ := s
  cases worker with
  | idle =>
    refine .inr ⟨not_false, ?_⟩
    have hwork : work { queue, worker := .idle, card } fault =
        start { queue := Queue.new, worker := .idle, card } queue.lines queue.dropped := rfl
    rw [hwork, start]
    by_cases hnone : queue.lines = [] ∧ queue.dropped = 0
    · rw [dif_pos hnone]
      exact .kept (.inr ⟨_, rfl, rfl⟩) hnone.1.symm hnone.2.symm rfl rfl
    · rw [dif_neg hnone]
      exact .took rfl rfl rfl rfl
  | metadata batch =>
    refine .inr ⟨not_false, ?_⟩
    simp only [work]
    split
    · split_ifs
      · exact .kept (.inl rfl) rfl rfl rfl rfl
      · exact .kept (.inl rfl) rfl rfl rfl rfl
    · exact .kept (.inl rfl) rfl rfl rfl rfl
  | removeFile batch => exact .inr ⟨not_false, .kept (.inl rfl) rfl rfl rfl rfl⟩
  | rename batch =>
    simp only [work, Loses]
    split_ifs with hok
    · exact .inr ⟨not_not.mpr hok, .kept (.inl rfl) rfl rfl rfl rfl⟩
    · exact .inl ⟨hok, ⟨⟨_, rfl⟩, rfl, batch.pos, rfl, rfl⟩⟩
  | openLog batch =>
    simp only [work, Loses]
    split_ifs with hok
    · exact .inr ⟨not_not.mpr hok, .kept (.inl rfl) rfl rfl (inHand_nextWrite _ _)
        (owed_nextWrite _ _)⟩
    · exact .inl ⟨hok, ⟨⟨_, rfl⟩, rfl, batch.pos, rfl, rfl⟩⟩
  | writeLine line rest dropped =>
    simp only [work, Loses]
    split_ifs with hok
    · exact .inr ⟨not_not.mpr hok, .wrote line rfl
        (congrArg (line :: ·) (inHand_nextWrite _ _).symm) (owed_nextWrite _ _)⟩
    · exact .inl ⟨hok, ⟨⟨_, rfl⟩, rfl, by simp [inHand], rfl, rfl⟩⟩
  | writeReport dropped found =>
    simp only [work, Loses]
    split_ifs with hok
    · exact .inr ⟨not_not.mpr hok, .reported rfl rfl rfl rfl⟩
    · exact .inl ⟨hok, ⟨⟨_, rfl⟩, rfl, by simpa [inHand, owed] using Nat.pos_of_ne_zero found,
        rfl, rfl⟩⟩
  | flushFile =>
    refine .inr ⟨not_false, ?_⟩
    simp only [work]
    split_ifs
    · exact .kept (.inr ⟨_, rfl, rfl⟩) rfl rfl rfl rfl
    · exact .kept (.inr ⟨_, rfl, rfl⟩) rfl rfl rfl rfl

end GpsNtp.Sdlog
