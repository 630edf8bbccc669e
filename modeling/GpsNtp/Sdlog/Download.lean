import GpsNtp.Sdlog.Flush

/-!
# Sdlog/Download — streaming a log that grows

    stat ──▸ len ──▸ ┌ offset < len ─▸ read at offset, ≤ 2048 bytes ─▸ send all of them ┐ ──▸ end
                     └──────────────────────────────────────────────────────────────────┘
                          append          append          append

The handler of `GET /log` beside the writer of the log.  The size announced and every chunk come
from a job of their own, and between two of them the file may grow.  A chunk is not cut at the size
announced, so the last one may take more than is left of it.
-/

namespace GpsNtp.Sdlog

open Machine

/-- Chunk size for streaming a log file over HTTP. -/
def HTTP_CHUNK_BYTES : ℕ := 2048

/-- The files that are served: `LOG_PATH` and `ROTATED_PATH`. -/
inductive LogFile
  | log | rotated
deriving DecidableEq

/-- The content of a file, where it exists. -/
def Card.file (card : Card) : LogFile → Option (List UInt8)
  | .log => card.log
  | .rotated => card.rotated

/-- `read_chunk`, of a file that exists: a read returns `more + 1` bytes, or what there is. -/
def readChunk (content : List UInt8) (offset max more : ℕ) : List UInt8 :=
  (content.drop offset).take (min max (more + 1))

/-- Where `serve_file` stands. -/
inductive Phase
  | stat
  | reading (len offset : ℕ)
  | returned (len : ℕ)
  | noSuchLog
  | failed
deriving DecidableEq

/-- One request: the file asked for, where its handler stands, and the body sent so far. -/
structure Download where
  path : LogFile
  phase : Phase
  sent : List UInt8
deriving DecidableEq

/-- The request as it comes in. -/
def Download.new (path : LogFile) : Download := { path, phase := .stat, sent := [] }

/-- The next step of the handler, on the card as it finds it. -/
def Download.proceed (d : Download) (card : Card) (more : ℕ) : Download :=
  match d.phase with
  | .stat =>
    match card.file d.path with
    | some content => { d with phase := .reading content.length 0 }
    | none => { d with phase := .noSuchLog }
  | .reading len offset =>
    if offset < len then
      match card.file d.path with
      | some content =>
        let chunk := readChunk content offset HTTP_CHUNK_BYTES more
        if chunk = [] then { d with phase := .returned len }
        else { d with phase := .reading len (offset + chunk.length), sent := d.sent ++ chunk }
      | none => { d with phase := .failed }
    else { d with phase := .returned len }
  | _ => d

/-- The next step of the handler, where the card or the connection fails it. -/
def Download.fail (d : Download) : Download :=
  match d.phase with
  | .stat => { d with phase := .noSuchLog }
  | .reading _ _ => { d with phase := .failed }
  | _ => d

/-- The card and a request being served from it. -/
structure Serving where
  card : Card
  download : Download
deriving DecidableEq

/-- What happens: the log grows, or the handler takes a step. -/
inductive ServeEvent
  | append (text : List UInt8)
  | proceed (more : ℕ)
  | fail

/-- One event. -/
def serveStep (s : Serving) : ServeEvent → Serving
  | .append text => { s with card := s.card.append text }
  | .proceed more => { s with download := s.download.proceed s.card more }
  | .fail => { s with download := s.download.fail }

/-- The request coming in. -/
def Serving.new (card : Card) (path : LogFile) : Serving := ⟨card, .new path⟩

/-- The file asked for, as it is now. -/
def Serving.content (s : Serving) : List UInt8 := (s.card.file s.download.path).getD []

/-- A step of the handler. -/
def isHandler : ServeEvent → Bool
  | .append _ => false
  | .proceed _ | .fail => true

/-- The handler is at work. -/
def Phase.busy : Phase → Bool
  | .stat | .reading _ _ => true
  | .returned _ | .noSuchLog | .failed => false

/-- **What is read is at most what is left** of the size announced. -/
def Fits (s : Serving) : ServeEvent → Prop
  | .proceed more =>
    match s.download.phase with
    | .reading len offset =>
      offset < len →
        min (min HTTP_CHUNK_BYTES (more + 1)) (s.content.length - offset) ≤ len - offset
    | _ => True
  | _ => True

/-- The body is the first bytes of the file, as many as announced. -/
def SentExactly (s : Serving) (len : ℕ) : Prop :=
  s.download.sent.length = len ∧ s.download.sent <+: s.content

/-! ## What a step does -/

theorem length_readChunk (content : List UInt8) (offset max more : ℕ) :
    (readChunk content offset max more).length = min (min max (more + 1)) (content.length - offset)
    := by
  rw [readChunk, List.length_take, List.length_drop]

/-- What is sent stays the beginning of the file as a chunk is appended to it. -/
theorem append_readChunk {sent content : List UInt8} (h : sent <+: content) (max more : ℕ) :
    sent ++ readChunk content sent.length max more <+: content := by
  obtain ⟨rest, rfl⟩ := h
  rw [readChunk, List.drop_left, List.prefix_append_right_inj]
  exact List.take_prefix _ _

theorem content_of_file {s : Serving} {content : List UInt8}
    (h : s.card.file s.download.path = some content) : s.content = content := by
  rw [Serving.content, h, Option.getD_some]

/-- The file grows at its end. -/
theorem content_append (s : Serving) (text : List UInt8) :
    s.content <+: (serveStep s (.append text)).content := by
  obtain ⟨card, ⟨path, phase, sent⟩⟩ := s
  cases path with
  | log => exact List.prefix_append _ text
  | rotated => exact List.prefix_rfl

/-- **One round of the loop**: a chunk is sent, or the loop is over, or the file is gone. -/
theorem proceed_reading {d : Download} {len offset : ℕ} (h : d.phase = .reading len offset)
    (card : Card) (more : ℕ) :
    (∃ content, offset < len ∧ card.file d.path = some content ∧
        readChunk content offset HTTP_CHUNK_BYTES more ≠ [] ∧
        d.proceed card more =
          { d with
            phase := .reading len
              (offset + (readChunk content offset HTTP_CHUNK_BYTES more).length)
            sent := d.sent ++ readChunk content offset HTTP_CHUNK_BYTES more }) ∨
      ((offset < len → ∃ content, card.file d.path = some content ∧
          readChunk content offset HTTP_CHUNK_BYTES more = []) ∧
        d.proceed card more = { d with phase := .returned len }) ∨
      d.proceed card more = { d with phase := .failed } := by
  rw [Download.proceed, h]
  dsimp only
  split_ifs with hlt
  · cases hfile : card.file d.path with
    | none => exact .inr (.inr rfl)
    | some content =>
      dsimp only
      split_ifs with hchunk
      · exact .inr (.inl ⟨fun _ => ⟨content, rfl, hchunk⟩, rfl⟩)
      · exact .inl ⟨content, hlt, rfl, hchunk, rfl⟩
  · exact .inr (.inl ⟨fun h => absurd h hlt, rfl⟩)

/-- What is over stays as it is. -/
theorem download_of_ended {s : Serving} (h : s.download.phase.busy = false) (e : ServeEvent) :
    (serveStep s e).download = s.download := by
  cases e with
  | append text => rfl
  | proceed more =>
    cases hphase : s.download.phase with
    | stat | reading => rw [hphase] at h; cases h
    | returned | noSuchLog | failed => rw [serveStep, Download.proceed, hphase]
  | fail =>
    cases hphase : s.download.phase with
    | stat | reading => rw [hphase] at h; cases h
    | returned | noSuchLog | failed => rw [serveStep, Download.fail, hphase]

/-! ## What is sent -/

/-- What the body sent and the file have to do with each other, when `fitted` says whether every
read so far fitted. -/
structure Account (fitted : Prop) (s : Serving) : Prop where
  sent : s.download.sent <+: s.content
  stat : s.download.phase = .stat → s.download.sent = [] ∧ fitted
  reading : ∀ len offset, s.download.phase = .reading len offset →
    s.download.sent.length = offset ∧ len ≤ s.content.length ∧ (fitted ↔ offset ≤ len)
  returned : ∀ len, s.download.phase = .returned len →
    len ≤ s.download.sent.length ∧ (fitted ↔ s.download.sent.length ≤ len)

/-- A state in which nothing is left to account for. -/
theorem Account.of_ended {fitted : Prop} {s : Serving} (hsent : s.download.sent <+: s.content)
    (h : s.download.phase = .noSuchLog ∨ s.download.phase = .failed) : Account fitted s where
  sent := hsent
  stat hphase := by rcases h with h | h <;> rw [h] at hphase <;> cases hphase
  reading _ _ hphase := by rcases h with h | h <;> rw [h] at hphase <;> cases hphase
  returned _ hphase := by rcases h with h | h <;> rw [h] at hphase <;> cases hphase

/-- A step that no file is read at and that changes nothing. -/
theorem Account.same {fitted : Prop} {s : Serving} {e : ServeEvent} (h : Account fitted s)
    (hfits : Fits s e) (hsame : serveStep s e = s) :
    Account (fitted ∧ Fits s e) (serveStep s e) := by
  rw [hsame, and_iff_left hfits]
  exact h

theorem Account.append {fitted : Prop} {s : Serving} (h : Account fitted s) (text : List UInt8) :
    Account (fitted ∧ Fits s (.append text)) (serveStep s (.append text)) := by
  have hgrown := content_append s text
  have hfits : Fits s (.append text) := trivial
  rw [and_iff_left hfits]
  refine ⟨h.sent.trans hgrown, h.stat, fun len offset hphase => ?_, h.returned⟩
  obtain ⟨hoffset, hlen, hfitted⟩ := h.reading len offset hphase
  exact ⟨hoffset, hlen.trans hgrown.length_le, hfitted⟩

theorem Account.fail {fitted : Prop} {s : Serving} (h : Account fitted s) :
    Account (fitted ∧ Fits s .fail) (serveStep s .fail) := by
  cases hphase : s.download.phase with
  | stat =>
    rw [serveStep, Download.fail, hphase]
    exact .of_ended h.sent (.inl rfl)
  | reading len offset =>
    rw [serveStep, Download.fail, hphase]
    exact .of_ended h.sent (.inr rfl)
  | returned len => exact h.same trivial (by rw [serveStep, Download.fail, hphase])
  | noSuchLog => exact h.same trivial (by rw [serveStep, Download.fail, hphase])
  | failed => exact h.same trivial (by rw [serveStep, Download.fail, hphase])

/-- The length is announced, before anything is sent. -/
theorem Account.announce {fitted : Prop} {s : Serving} (h : Account fitted s)
    (hphase : s.download.phase = .stat) (more : ℕ) :
    Account (fitted ∧ Fits s (.proceed more)) (serveStep s (.proceed more)) := by
  have hfits : Fits s (.proceed more) := by rw [Fits, hphase]; trivial
  obtain ⟨hsent, hfitted⟩ := h.stat hphase
  rw [serveStep, Download.proceed, hphase]
  cases hfile : s.card.file s.download.path with
  | none => exact .of_ended h.sent (.inl rfl)
  | some content =>
    refine ⟨h.sent, nofun, fun len offset hreading => ?_, nofun⟩
    obtain ⟨rfl, rfl⟩ := Phase.reading.inj hreading
    exact ⟨congrArg List.length hsent, (congrArg List.length (content_of_file hfile)).ge,
      iff_of_true ⟨hfitted, hfits⟩ (Nat.zero_le _)⟩

section

variable {fitted : Prop} {s : Serving} {len offset : ℕ} {more : ℕ}

theorem fits_reading (hphase : s.download.phase = .reading len offset) :
    Fits s (.proceed more) ↔ (offset < len →
      min (min HTTP_CHUNK_BYTES (more + 1)) (s.content.length - offset) ≤ len - offset) := by
  rw [Fits, hphase]

/-- A chunk is sent: it fitted when it does not reach past the announced length. -/
theorem Account.sendChunk (h : Account fitted s) (hphase : s.download.phase = .reading len offset)
    {content : List UInt8} (hlt : offset < len)
    (hfile : s.card.file s.download.path = some content)
    (hnext : s.download.proceed s.card more =
      { s.download with
        phase := .reading len
          (offset + (readChunk content offset HTTP_CHUNK_BYTES more).length)
        sent := s.download.sent ++ readChunk content offset HTTP_CHUNK_BYTES more }) :
    Account (fitted ∧ Fits s (.proceed more)) (serveStep s (.proceed more)) := by
  obtain ⟨hoffset, hlen, hfitted⟩ := h.reading len offset hphase
  have hfits := @fits_reading s len offset more hphase
  have hchunk := length_readChunk content offset HTTP_CHUNK_BYTES more
  have hcontent := content_of_file hfile
  have hsent := append_readChunk h.sent HTTP_CHUNK_BYTES more
  rw [hoffset, hcontent] at hsent
  rw [hcontent, ← hchunk] at hfits
  rw [serveStep, hnext]
  refine ⟨hcontent ▸ hsent, nofun, fun len' offset' hreading => ?_, nofun⟩
  obtain ⟨rfl, rfl⟩ := Phase.reading.inj hreading
  refine ⟨by rw [List.length_append, hoffset], hlen, ?_⟩
  rw [hfits, hfitted]
  constructor
  · rintro ⟨hle, hleft⟩
    have hchunkLeft := hleft hlt
    omega
  · exact fun hle => ⟨hlt.le, fun _ => by omega⟩

/-- The loop is over: the file is no shorter than announced, so that the announced length is
reached. -/
theorem Account.leaveLoop (h : Account fitted s) (hphase : s.download.phase = .reading len offset)
    (hempty : offset < len → ∃ content, s.card.file s.download.path = some content ∧
      readChunk content offset HTTP_CHUNK_BYTES more = [])
    (hnext : s.download.proceed s.card more = { s.download with phase := .returned len }) :
    Account (fitted ∧ Fits s (.proceed more)) (serveStep s (.proceed more)) := by
  obtain ⟨hoffset, hlen, hfitted⟩ := h.reading len offset hphase
  have hover : ¬offset < len := by
    intro hlt
    obtain ⟨content, hfile, hchunk⟩ := hempty hlt
    have hlength := length_readChunk content offset HTTP_CHUNK_BYTES more
    rw [hchunk, List.length_nil, HTTP_CHUNK_BYTES] at hlength
    rw [content_of_file hfile] at hlen
    omega
  rw [serveStep, hnext]
  refine ⟨h.sent, nofun, nofun, fun len' hreturned => ?_⟩
  obtain rfl := Phase.returned.inj hreturned
  refine ⟨hoffset ▸ not_lt.mp hover, ?_⟩
  rw [fits_reading hphase, hfitted, hoffset, and_iff_left fun hlt => absurd hlt hover]

end

theorem Account.proceed {fitted : Prop} {s : Serving} (h : Account fitted s) (more : ℕ) :
    Account (fitted ∧ Fits s (.proceed more)) (serveStep s (.proceed more)) := by
  cases hphase : s.download.phase with
  | stat => exact h.announce hphase more
  | reading len offset =>
    rcases proceed_reading hphase s.card more with
      ⟨content, hlt, hfile, -, hnext⟩ | ⟨hempty, hnext⟩ | hnext
    · exact h.sendChunk hphase hlt hfile hnext
    · exact h.leaveLoop hphase hempty hnext
    · rw [serveStep, hnext]
      exact .of_ended h.sent (.inr rfl)
  | returned len =>
    exact h.same (by rw [Fits, hphase]; trivial) (by rw [serveStep, Download.proceed, hphase])
  | noSuchLog =>
    exact h.same (by rw [Fits, hphase]; trivial) (by rw [serveStep, Download.proceed, hphase])
  | failed =>
    exact h.same (by rw [Fits, hphase]; trivial) (by rw [serveStep, Download.proceed, hphase])

/-- **The account of a run** — the body is the beginning of the file, and longer than announced
exactly when some read did not fit. -/
theorem account (card : Card) (path : LogFile) (evs : List ServeEvent) :
    Account (Throughout serveStep Fits (.new card path) evs)
      (run serveStep (.new card path) evs) := by
  induction evs using List.reverseRecOn with
  | nil => exact ⟨List.nil_prefix, fun _ => ⟨rfl, trivial⟩, nofun, nofun⟩
  | append_singleton evs e ih =>
    rw [run_append, run_cons, run_nil, throughout_append, Throughout, Throughout, and_true]
    cases e with
    | append text => exact ih.append text
    | proceed more => exact ih.proceed more
    | fail => exact ih.fail

/-! ## The loop ends -/

/-- A step of the handler leaves less to send, or ends the request. -/
theorem handler_progress {s : Serving} {len offset : ℕ}
    (hphase : s.download.phase = .reading len offset) {e : ServeEvent} (he : isHandler e = true) :
    (serveStep s e).download.phase.busy = false ∨
      ∃ offset', (serveStep s e).download.phase = .reading len offset' ∧ offset < len ∧
        offset < offset' := by
  cases e with
  | append text => cases he
  | fail => exact .inl (by rw [serveStep, Download.fail, hphase]; rfl)
  | proceed more =>
    rcases proceed_reading hphase s.card more with
      ⟨content, hlt, -, hchunk, hnext⟩ | ⟨-, hnext⟩ | hnext
    · exact .inr ⟨_, by rw [serveStep, hnext], hlt,
        Nat.lt_add_of_pos_right (List.length_pos_iff.mpr hchunk)⟩
    · exact .inl (by rw [serveStep, hnext]; rfl)
    · exact .inl (by rw [serveStep, hnext]; rfl)

/-- **The loop ends** after at most one step for each byte left and one more. -/
theorem loop_ends {s : Serving} {len offset : ℕ} (hphase : s.download.phase = .reading len offset)
    {evs : List ServeEvent} (hevs : len - offset < evs.countP isHandler) :
    (run serveStep s evs).download.phase.busy = false := by
  induction evs generalizing s offset with
  | nil => exact absurd hevs (Nat.not_lt_zero _)
  | cons e evs ih =>
    cases he : isHandler e with
    | false =>
      rw [List.countP_cons_of_neg (by rw [he]; exact Bool.false_ne_true)] at hevs
      cases e with
      | append text => exact ih hphase hevs
      | proceed more => cases he
      | fail => cases he
    | true =>
      rw [List.countP_cons_of_pos he] at hevs
      rcases handler_progress hphase he with hended | ⟨offset', hnext, hlt, hless⟩
      · have hstep : ∀ s e, s.download.phase.busy = false →
            (serveStep s e).download.phase.busy = false := by
          intro s e h
          rw [download_of_ended h e]
          exact h
        exact run_induction hstep hended evs
      · exact ih hnext (by omega)

/-! ## Whole downloads -/

/-- A request served, after these events. -/
def served (card : Card) (path : LogFile) (evs : List ServeEvent) : Serving :=
  run serveStep (.new card path) evs

/-- **A download is what it announced** exactly when every read of it fitted, and it ends. -/
theorem served_exactly_iff_fits (card : Card) (path : LogFile) (evs : List ServeEvent) :
    (∀ len, (served card path evs).download.phase = .returned len →
      (SentExactly (served card path evs) len ↔
        Throughout serveStep Fits (.new card path) evs)) ∧
    ∀ len offset, (served card path evs).download.phase = .reading len offset →
      ∀ later : List ServeEvent, len - offset < later.countP isHandler →
        (served card path (evs ++ later)).download.phase.busy = false := by
  have hacc : Account (Throughout serveStep Fits (.new card path) evs) (served card path evs) :=
    account card path evs
  constructor
  · intro len hphase
    obtain ⟨hlen, hfitted⟩ := hacc.returned len hphase
    rw [hfitted]
    exact ⟨fun hexact => hexact.1.le, fun hle => ⟨le_antisymm hle hlen, hacc.sent⟩⟩
  · intro len offset hphase later hlater
    rw [served, run_append]
    exact loop_ends hphase hlater

/-- **Too much is sent** when the file grows before the last chunk is read: fifteen bytes where ten
were announced. -/
theorem sent_more_than_announced :
    (served ⟨some (List.replicate 10 0x2E), none⟩ .log
        [.proceed 0, .append (List.replicate 5 0x2E), .proceed 2047, .proceed 0]).download =
      ⟨.log, .returned 10, List.replicate 15 0x2E⟩ ∧
    ¬∀ card path evs len, (served card path evs).download.phase = .returned len →
      SentExactly (served card path evs) len := by
  have hrun : (served ⟨some (List.replicate 10 0x2E), none⟩ .log
      [.proceed 0, .append (List.replicate 5 0x2E), .proceed 2047, .proceed 0]).download =
      ⟨.log, .returned 10, List.replicate 15 0x2E⟩ := by
    decide +kernel
  refine ⟨hrun, fun hexact => ?_⟩
  have hlength := (hexact _ _ _ 10 (by rw [hrun])).1
  rw [hrun, List.length_replicate] at hlength
  omega

/-! ## In terms of the growth -/

/-- **A read is undisturbed** when the file has the size announced still, or the read returns no
more than is left of that size. -/
def Undisturbed (s : Serving) : ServeEvent → Prop
  | .proceed more =>
    match s.download.phase with
    | .reading len offset =>
      offset < len →
        s.content.length = len ∨ min HTTP_CHUNK_BYTES (more + 1) ≤ len - offset
    | _ => True
  | _ => True

theorem Account.fits_iff {fitted : Prop} {s : Serving} (h : Account fitted s) (e : ServeEvent) :
    Fits s e ↔ Undisturbed s e := by
  cases e with
  | append text => exact Iff.rfl
  | fail => exact Iff.rfl
  | proceed more =>
    cases hphase : s.download.phase with
    | stat | returned | noSuchLog | failed => rw [Fits, Undisturbed, hphase]
    | reading len offset =>
      obtain ⟨-, hlen, -⟩ := h.reading len offset hphase
      rw [fits_reading hphase, Undisturbed, hphase]
      refine forall_congr' fun hlt => ?_
      rw [min_le_iff]
      omega

/-- **Every read fits exactly when none is disturbed**: the body is as announced unless the file
has grown before a read that runs over the announced end. -/
theorem throughout_fits_iff (card : Card) (path : LogFile) (evs : List ServeEvent) :
    Throughout serveStep Fits (.new card path) evs ↔
      Throughout serveStep Undisturbed (.new card path) evs := by
  induction evs using List.reverseRecOn with
  | nil => exact Iff.rfl
  | append_singleton evs e ih =>
    rw [throughout_append, throughout_append, ih, Throughout, Throughout,
      (account card path evs).fits_iff e]
    exact Iff.rfl

/-! ## Beside the writer -/

/-- The step takes away or renames a log file. -/
def Rotates (s : State) : Event → Prop
  | .enqueue _ => False
  | .work _ =>
    match s.worker with
    | .removeFile _ | .rename _ => True
    | _ => False

/-- **A writer that does not rotate appends.** -/
theorem card_of_step {s : State} {e : Event} (h : ¬Rotates s e) :
    (step s e).1.card = s.card ∨ ∃ text, (step s e).1.card = s.card.append text := by
  cases e with
  | enqueue line => exact .inl rfl
  | work fault =>
    rw [Rotates] at h
    rw [step, work]
    cases hworker : s.worker with
    | idle =>
      left
      dsimp only
      rw [start]
      split_ifs <;> rfl
    | metadata batch =>
      left
      dsimp only
      split
      · split_ifs <;> rfl
      · rfl
    | removeFile batch => rw [hworker] at h; exact absurd trivial h
    | rename batch => rw [hworker] at h; exact absurd trivial h
    | openLog batch =>
      dsimp only
      split_ifs
      · exact .inr ⟨[], rfl⟩
      · exact .inl rfl
    | writeLine line rest dropped =>
      dsimp only
      split_ifs <;> exact .inr ⟨_, rfl⟩
    | writeReport dropped found =>
      dsimp only
      split_ifs <;> exact .inr ⟨_, rfl⟩
    | flushFile =>
      left
      dsimp only
      split_ifs <;> rfl

/-- The logger with its writer, and a request being served from the same card. -/
structure Device where
  logger : State
  download : Download

/-- What happens: a line is logged or the writer takes a step, or the handler takes one. -/
inductive DeviceEvent
  | logger (e : Event)
  | proceed (more : ℕ)
  | fail

def deviceStep (d : Device) : DeviceEvent → Device
  | .logger e => { d with logger := (step d.logger e).1 }
  | .proceed more => { d with download := d.download.proceed d.logger.card more }
  | .fail => { d with download := d.download.fail }

/-- The request and the card, without the logger. -/
def Device.serving (d : Device) : Serving := ⟨d.logger.card, d.download⟩

/-- The log is not rotated. -/
def Stays (d : Device) : DeviceEvent → Prop
  | .logger e => ¬Rotates d.logger e
  | .proceed _ | .fail => True

/-- What is read is at most what is left of the size announced. -/
def DeviceFits (d : Device) : DeviceEvent → Prop
  | .proceed more => Fits d.serving (.proceed more)
  | .logger _ | .fail => True

/-- **Without rotation the writer only appends**: a request served beside it is served so from a
log that grows, and what it reads fits in the one run when it does in the other. -/
theorem device_simulated {d : Device} {evs : List DeviceEvent}
    (hstays : Throughout deviceStep Stays d evs) :
    ∃ evs', run serveStep d.serving evs' = (run deviceStep d evs).serving ∧
      (Throughout serveStep Fits d.serving evs' ↔ Throughout deviceStep DeviceFits d evs) := by
  induction evs generalizing d with
  | nil => exact ⟨[], rfl, Iff.rfl⟩
  | cons e evs ih =>
    obtain ⟨hstay, hrest⟩ := hstays
    obtain ⟨evs', hrun, hfits⟩ := ih hrest
    rw [run_cons, ← hrun, Throughout, ← hfits]
    cases e with
    | logger e =>
      rcases card_of_step hstay with hcard | ⟨text, hcard⟩
      · have hsame : (deviceStep d (.logger e)).serving = d.serving := by
          rw [Device.serving, deviceStep, hcard, Device.serving]
        rw [hsame]
        exact ⟨evs', rfl, (iff_of_eq (true_and _)).symm⟩
      · have happend : (deviceStep d (.logger e)).serving = serveStep d.serving (.append text) := by
          rw [Device.serving, deviceStep, hcard]
          rfl
        rw [happend]
        exact ⟨.append text :: evs', rfl, Iff.rfl⟩
    | proceed more => exact ⟨.proceed more :: evs', rfl, Iff.rfl⟩
    | fail => exact ⟨.fail :: evs', rfl, Iff.rfl⟩

/-- **A download beside the writer** is what it announced, while the log is not rotated and what is
read fits. -/
theorem device_sends_announced (logger : State) (path : LogFile) {evs : List DeviceEvent}
    (hstays : Throughout deviceStep Stays ⟨logger, .new path⟩ evs)
    (hfits : Throughout deviceStep DeviceFits ⟨logger, .new path⟩ evs) {len : ℕ}
    (hphase : (run deviceStep ⟨logger, .new path⟩ evs).download.phase = .returned len) :
    SentExactly (run deviceStep ⟨logger, .new path⟩ evs).serving len := by
  obtain ⟨evs', hrun, hfits'⟩ := device_simulated hstays
  have hacc := account logger.card path evs'
  change Account _ (run serveStep (Device.serving ⟨logger, .new path⟩) evs') at hacc
  rw [hrun] at hacc
  obtain ⟨hlen, hfitted⟩ := hacc.returned len hphase
  exact ⟨le_antisymm (hfitted.mp (hfits'.mpr hfits)) hlen, hacc.sent⟩

end GpsNtp.Sdlog
