import GpsNtp.Gps.Chunking

/-!
# Gps/Splice — sentences joined over a dropped read

    read 1: $GNRMC,120000     read 2: FF (dropped)     read 3: ,A,,,,,,,010124*3D␍␊
    line:   $GNRMC,120000 ─────────────────────────────────── ,A,,,,,,,010124*3D

A dropped read leaves the line buffer as it was, so that the next read continues a line which the
receiver had not sent in one piece.  The sentence above goes to the parser and gives NTP a second.
No sentence is joined so when the line buffer cannot grow into one at any dropped read (`Harmless`).
-/

namespace GpsNtp

open Utf8 Lines Machine

/-- The read is dropped: its bytes are no string. -/
def dropped : Option (List UInt8) → Bool
  | some bytes => !isUtf8 bytes
  | none => false

/-- The bytes came in one piece: there is no dropped read between them. -/
def Received (reads : List (Option (List UInt8))) (bytes : List UInt8) : Prop :=
  ∃ seg, seg <:+: reads ∧ (∀ read ∈ seg, dropped read = false) ∧
    bytes <:+: seg.flatMap (·.getD [])

/-- The tags of the sentences parsed. -/
def sentenceTags : List (List Char) :=
  ["$GNRMC", "$GPRMC", "$GNGGA", "$GPGGA"].map String.toList

/-- The line buffer is blank, or starts a line that is for no parser. -/
def Harmless (lineBuf : List Char) : Prop :=
  trimStart lineBuf = [] ∨
    ∀ tag ∈ sentenceTags, ¬tag <+: trimStart lineBuf ∧ ¬trimStart lineBuf <+: tag

instance : DecidablePred Harmless := fun _ => inferInstanceAs (Decidable (_ ∨ _))

theorem tagged_iff {line : List Char} : Tagged line ↔ ∃ tag ∈ sentenceTags, tag <+: line := by
  simp [Tagged, IsRmc, IsGga, sentenceTags, or_assoc]

/-- A line that encodes a second is one for a parser. -/
theorem tagged_of_rmcSecond {env : Platform} {line : List Char} {second : ℤ}
    (h : rmcSecond env line = some second) : Tagged line := by
  by_contra htag
  exact nomatch h.symm.trans (if_neg fun hline => htag (.inl hline.1))

/-- A harmless beginning of a line for a parser is blank. -/
theorem Harmless.blank {stale rest : List Char} (h : Harmless stale)
    (htag : Tagged (trim (stale ++ rest))) : trimStart stale = [] := by
  rcases h with h | h
  · exact h
  · by_contra hne
    obtain ⟨tag, hmem, htag⟩ := tagged_iff.mp htag
    have hline : tag <+: trimStart stale ++ rest := by
      rw [← trimStart_append hne]
      exact htag.trans (List.rdropWhile_prefix _ _)
    rcases List.prefix_or_prefix_of_prefix hline (List.prefix_append _ _) with hp | hp
    · exact (h tag hmem).1 hp
    · exact (h tag hmem).2 hp

/-! ## Text in one piece -/

/-- The text came in one piece. -/
def ReceivedText (reads : List (Option (List UInt8))) (text : List Char) : Prop :=
  ∃ seg, seg <:+: reads ∧ (∀ read ∈ seg, dropped read = false) ∧ text <:+: receivedText seg

theorem encode_readText {read : Option (List UInt8)} (h : dropped read = false) :
    encode (readText read) = read.getD [] := by
  cases read with
  | none => rfl
  | some bytes =>
    rw [dropped, Bool.not_eq_false', isUtf8_iff] at h
    obtain ⟨cs, rfl⟩ := h
    rw [readText, Option.bind_some, fromUtf8_eq_some_iff.mpr rfl, Option.getD_some,
      Option.getD_some]

theorem encode_receivedText {seg : List (Option (List UInt8))}
    (h : ∀ read ∈ seg, dropped read = false) :
    encode (receivedText seg) = seg.flatMap (·.getD []) := by
  induction seg with
  | nil => rfl
  | cons read seg ih =>
    rw [receivedText_cons, List.flatMap_cons, encode_append,
      encode_readText (h read List.mem_cons_self),
      ih fun read hread => h read (List.mem_cons_of_mem _ hread)]

theorem ReceivedText.received {reads : List (Option (List UInt8))} {text : List Char}
    (h : ReceivedText reads text) : Received reads (encode text) := by
  obtain ⟨seg, hseg, hkept, htext⟩ := h
  exact ⟨seg, hseg, hkept, encode_receivedText hkept ▸ encode_infix htext⟩

theorem ReceivedText.mono {reads : List (Option (List UInt8))} {text : List Char}
    (h : ReceivedText reads text) (read : Option (List UInt8)) :
    ReceivedText (reads ++ [read]) text := by
  obtain ⟨seg, hseg, hkept, htext⟩ := h
  exact ⟨seg, hseg.trans (List.prefix_append _ _).isInfix, hkept, htext⟩

/-- A dropped read adds no text. -/
theorem readText_of_dropped {read : Option (List UInt8)} (h : dropped read = true) :
    readText read = [] := by
  cases read with
  | none => rfl
  | some bytes =>
    have hnone : fromUtf8 bytes = none := by
      rw [fromUtf8_eq_none_iff, ← isUtf8_iff]
      exact fun heq => by rw [dropped, heq] at h; exact absurd h (by decide)
    rw [readText, Option.bind_some, hnone, Option.getD_none]

theorem isInfix_flatMap {α β : Type} {seg reads : List α} (h : seg <:+: reads) (f : α → List β) :
    seg.flatMap f <:+: reads.flatMap f := by
  obtain ⟨pre, post, rfl⟩ := h
  exact ⟨pre.flatMap f, post.flatMap f, by rw [List.flatMap_append, List.flatMap_append]⟩

/-- What avoids an element lies on one side of it. -/
theorem infix_of_notMem {α : Type} {seg pre post : List α} {a : α} (h : seg <:+: pre ++ a :: post)
    (ha : a ∉ seg) : seg <:+: pre ∨ seg <:+: post := by
  rcases List.infix_append_iff.mp h with h | h | ⟨l₁, l₂, rfl, h₁, h₂⟩
  · exact .inl h
  · rcases List.infix_cons_iff.mp h with h | h
    · rcases List.prefix_cons_iff.mp h with rfl | ⟨t, rfl, -⟩
      · exact .inl List.nil_infix
      · exact absurd List.mem_cons_self ha
    · exact .inr h
  · rcases List.prefix_cons_iff.mp h₂ with rfl | ⟨t, rfl, -⟩
    · exact .inl ((List.append_nil l₁).symm ▸ h₁.isInfix)
    · exact absurd (List.mem_append_right l₁ List.mem_cons_self) ha

/-- **Bytes in one piece** come before a dropped read or behind it. -/
theorem Received.cases {pre post : List (Option (List UInt8))} {read : Option (List UInt8)}
    {bytes : List UInt8} (h : Received (pre ++ read :: post) bytes)
    (hdropped : dropped read = true) :
    bytes <:+: pre.flatMap (·.getD []) ∨ bytes <:+: post.flatMap (·.getD []) := by
  obtain ⟨seg, hseg, hkept, hbytes⟩ := h
  have hread : read ∉ seg := fun hmem => absurd (hkept read hmem) (by rw [hdropped]; decide)
  rcases infix_of_notMem hseg hread with hseg | hseg
  · exact .inl (hbytes.trans (isInfix_flatMap hseg _))
  · exact .inr (hbytes.trans (isInfix_flatMap hseg _))

/-! ## What the line buffer holds -/

/-- **The line buffer** is something harmless from before the last dropped read, and something
received in one piece since; the sentences so far were received in one piece each. -/
structure Pieces (reads : List (Option (List UInt8))) (stale fresh : List Char)
    (seg : List (Option (List UInt8))) : Prop where
  buffer : unfinished '\n' (receivedText reads) = stale ++ fresh
  harmless : Harmless stale
  since : seg <:+ reads
  kept : ∀ read ∈ seg, dropped read = false
  piece : fresh <:+ receivedText seg
  lines : ∀ line ∈ complete '\n' (receivedText reads), Tagged (trim line) →
    ReceivedText reads (trim line)

variable {reads seg : List (Option (List UInt8))} {stale fresh : List Char}
  {read : Option (List UInt8)}

theorem Pieces.drop (h : Pieces reads stale fresh seg) (hdropped : dropped read = true)
    (hharmless : Harmless (stale ++ fresh)) :
    Pieces (reads ++ [read]) (stale ++ fresh) [] [] where
  buffer := by
    rw [receivedText_append_singleton, readText_of_dropped hdropped, List.append_nil, h.buffer,
      List.append_nil]
  harmless := hharmless
  since := List.nil_suffix
  kept := nofun
  piece := List.nil_suffix
  lines := by
    rw [receivedText_append_singleton, readText_of_dropped hdropped, List.append_nil]
    exact fun line hline htag => (h.lines line hline htag).mono read

theorem Pieces.keep (h : Pieces reads stale fresh seg) (hkept : dropped read = false) :
    ∃ stale' fresh', Pieces (reads ++ [read]) stale' fresh' (seg ++ [read]) := by
  have hstale : '\n' ∉ stale := fun hmem =>
    notMem_unfinished (receivedText reads) (h.buffer ▸ List.mem_append_left fresh hmem)
  have hsince : seg ++ [read] <:+ reads ++ [read] := by
    obtain ⟨pre, rfl⟩ := h.since
    exact ⟨pre, (List.append_assoc _ _ _).symm⟩
  have hall : ∀ r ∈ seg ++ [read], dropped r = false := fun r hr =>
    (List.mem_append.mp hr).elim (h.kept r) fun hr => List.mem_singleton.mp hr ▸ hkept
  have hpiece : fresh ++ readText read <:+ receivedText (seg ++ [read]) := by
    obtain ⟨pre, hpre⟩ := h.piece
    rw [receivedText_append_singleton, ← hpre]
    exact ⟨pre, (List.append_assoc _ _ _).symm⟩
  have hreceived : ∀ text, text <:+: fresh ++ readText read → ReceivedText (reads ++ [read]) text :=
    fun text htext => ⟨seg ++ [read], hsince.isInfix, hall, htext.trans hpiece.isInfix⟩
  have hlines : ∀ line ∈ complete '\n' (receivedText (reads ++ [read])), Tagged (trim line) →
      ReceivedText (reads ++ [read]) (trim line) := by
    intro line hline htag
    rw [receivedText_append_singleton, complete_append, h.buffer, List.append_assoc] at hline
    rcases List.mem_append.mp hline with hline | hline
    · exact (h.lines line hline htag).mono read
    · rcases mem_complete_append hstale hline with hin | ⟨rest, rfl, hin⟩
      · exact hreceived _ ((isInfix_trim line).trans hin)
      · -- the line begins with what is stale, which is blank then
        have hblank := trimStart_eq_nil_iff.mp (h.harmless.blank htag)
        rw [trim_append_left hblank]
        exact hreceived _ ((isInfix_trim rest).trans hin)
  have hbuffer : unfinished '\n' (receivedText (reads ++ [read])) =
      unfinished '\n' (stale ++ (fresh ++ readText read)) := by
    rw [receivedText_append_singleton, unfinished_append, h.buffer, List.append_assoc]
  rcases unfinished_append_cases hstale (fresh ++ readText read) with hsuffix | hwhole
  · exact ⟨[], _, hbuffer, .inl rfl, hsince, hall, hsuffix.trans hpiece, hlines⟩
  · exact ⟨stale, _, hbuffer.trans hwhole, h.harmless, hsince, hall, hpiece, hlines⟩

/-! ## A whole history -/

namespace GpsUart

variable (env : Platform)

/-- A dropped read meets the line buffer in a state from which no sentence can grow. -/
def DropsHarmless (s : Option (GpsUart × List GpsCall)) (read : Option (List UInt8)) : Prop :=
  dropped read = true → ∀ g ∈ s, Harmless g.1.lineBuf

/-- **The state a dropped read meets** is known by the text received. -/
theorem dropsHarmless_iff (gps : GpsSnapshot) (reads : List (Option (List UInt8)))
    (read : Option (List UInt8)) :
    DropsHarmless (pollAll env gps reads) read ↔
      (dropped read = true → Harmless (unfinished '\n' (receivedText reads))) := by
  obtain ⟨_, _, _, -, hpoll, -, -⟩ := pollAll_spec env gps reads
  rw [hpoll]
  exact ⟨fun h hread => h hread _ rfl, fun h hread g hg => Option.some.inj hg ▸ h hread⟩

/-- **The pieces of a history** in which every dropped read is harmless. -/
theorem pieces_of_throughout (gps : GpsSnapshot) (reads : List (Option (List UInt8)))
    (h : Throughout (pollStep env) DropsHarmless (some (⟨gps, [], 0⟩, [])) reads) :
    ∃ stale fresh seg, Pieces reads stale fresh seg := by
  induction reads using List.reverseRecOn with
  | nil => exact ⟨[], [], [], rfl, .inl rfl, List.suffix_rfl, nofun, List.suffix_rfl, nofun⟩
  | append_singleton reads read ih =>
    obtain ⟨hreads, hread, -⟩ := throughout_append.mp h
    obtain ⟨stale, fresh, seg, hpieces⟩ := ih hreads
    cases hdropped : dropped read with
    | false =>
      obtain ⟨stale', fresh', hnext⟩ := hpieces.keep hdropped
      exact ⟨stale', fresh', _, hnext⟩
    | true =>
      have hharmless := (dropsHarmless_iff env gps reads read).mp hread hdropped
      exact ⟨_, _, _, hpieces.drop hdropped (hpieces.buffer ▸ hharmless)⟩

/-- Every sentence handed to a parser in a history was received in one piece, and so was a line
that encodes each second given to NTP. -/
def InOnePiece (gps : GpsSnapshot) (reads : List (Option (List UInt8))) : Prop :=
  ∃ g calls, pollAll env gps reads = some (g, calls) ∧
    (∀ sentence ∈ handed calls, Received reads sentence) ∧
    ∀ second ∈ GpsDispatch.utcUpdates calls,
      ∃ line, Received reads (encode line) ∧ rmcSecond env line = some second

theorem inOnePiece_of_pieces {reads seg : List (Option (List UInt8))} {stale fresh : List Char}
    (h : Pieces reads stale fresh seg) (gps : GpsSnapshot) : InOnePiece env gps reads := by
  obtain ⟨_, calls, _, -, hpoll, hseconds, hhanded⟩ := pollAll_spec env gps reads
  refine ⟨_, calls, hpoll, ?_, ?_⟩
  · rw [hhanded]
    intro sentence hsentence
    obtain ⟨line, hline, rfl⟩ := List.mem_map.mp hsentence
    obtain ⟨hmem, htag⟩ := List.mem_filter.mp hline
    obtain ⟨raw, hraw, rfl⟩ := List.mem_map.mp hmem
    exact (h.lines raw hraw (of_decide_eq_true htag)).received
  · rw [hseconds]
    intro second hsecond
    obtain ⟨line, hline, hencodes⟩ := List.mem_filterMap.mp hsecond
    obtain ⟨raw, hraw, rfl⟩ := List.mem_map.mp hline
    exact ⟨trim raw, (h.lines raw hraw (tagged_of_rmcSecond hencodes)).received, hencodes⟩

theorem InOnePiece.received {gps : GpsSnapshot} {reads : List (Option (List UInt8))}
    (h : InOnePiece env gps reads) {line : List Char}
    (hline : line ∈ complete '\n' (receivedText reads)) (htag : Tagged (trim line)) :
    Received reads (encode (trim line)) := by
  obtain ⟨g, calls, hpoll, hsentences, -⟩ := h
  obtain ⟨_, calls', _, -, hpoll', -, hhanded⟩ := pollAll_spec env gps reads
  obtain rfl : calls = calls' := congrArg Prod.snd (Option.some.inj (hpoll.symm.trans hpoll'))
  refine hsentences _ ?_
  rw [hhanded]
  exact List.mem_map_of_mem (List.mem_filter.mpr
    ⟨List.mem_map_of_mem hline, decide_eq_true htag⟩)

/-! ## A harmful drop -/

/-- What a sentence can grow out of. -/
theorem exists_tag_of_not_harmless {lineBuf : List Char} (h : ¬Harmless lineBuf) :
    trimStart lineBuf ≠ [] ∧ ∃ tag ∈ sentenceTags, ∃ rest, '\n' ∉ rest ∧
      tag <+: trimStart lineBuf ++ rest := by
  rw [Harmless, not_or] at h
  obtain ⟨hne, htags⟩ := h
  push Not at htags
  obtain ⟨tag, hmem, htag⟩ := htags
  refine ⟨hne, tag, hmem, ?_⟩
  by_cases hstart : tag <+: trimStart lineBuf
  · exact ⟨[], List.not_mem_nil, (List.append_nil _).symm ▸ hstart⟩
  · obtain ⟨rest, hrest⟩ := htag hstart
    have hnewline : ∀ tag ∈ sentenceTags, '\n' ∉ tag := by decide +kernel
    exact ⟨rest, fun hr => hnewline tag hmem (hrest ▸ List.mem_append_right _ hr),
      hrest ▸ List.prefix_rfl⟩

/-- A text, read character by character. -/
def charReads (text : List Char) : List (Option (List UInt8)) :=
  text.map fun c => some (encode [c])

theorem dropped_of_mem_charReads {text : List Char} {read : Option (List UInt8)}
    (h : read ∈ charReads text) : dropped read = false := by
  obtain ⟨c, -, rfl⟩ := List.mem_map.mp h
  rw [dropped, Bool.not_eq_false', isUtf8_iff]
  exact ⟨[c], rfl⟩

theorem receivedText_charReads (text : List Char) : receivedText (charReads text) = text := by
  induction text with
  | nil => rfl
  | cons c text ih =>
    have hread : readText (some (encode [c])) = [c] := by
      rw [readText, Option.bind_some, fromUtf8_eq_some_iff.mpr rfl, Option.getD_some]
    rw [charReads, List.map_cons, receivedText_cons, hread, List.singleton_append]
    exact congrArg (c :: ·) ih

/-- A line begun before a dropped read was not received in one piece, when what it goes on with is
longer than all that was received before. -/
theorem not_received_of_begun {reads : List (Option (List UInt8))} {read : Option (List UInt8)}
    (hdropped : dropped read = true) {begun body : List Char} (hbegun : begun ≠ [])
    (hlong : (reads.flatMap (·.getD [])).length ≤ body.length) (hline : '\n' ∉ begun ++ body) :
    ¬Received (reads ++ read :: charReads (body ++ ['\n'])) (encode (begun ++ body)) := by
  intro h
  have hpos : 0 < begun.length := List.length_pos_iff.mpr hbegun
  rcases h.cases hdropped with hbefore | hbehind
  · have hle := (length_le_length_encode (begun ++ body)).trans hbefore.length_le
    rw [List.length_append] at hle
    omega
  · rw [← encode_receivedText fun _ => dropped_of_mem_charReads, receivedText_charReads] at hbehind
    have hle : (encode (body ++ ['\n'])).length ≤ (encode (begun ++ body)).length := by
      have hone : (encode ['\n']).length = 1 := by decide
      have hbegun := length_le_length_encode begun
      rw [encode_append, encode_append, List.length_append, List.length_append, hone]
      omega
    have heq := encode_injective (hbehind.eq_of_length_le hle)
    exact hline (heq ▸ List.mem_append_right body List.mem_cons_self)

/-- The unfinished line goes on behind a dropped read. -/
theorem mem_complete_of_continued {reads : List (Option (List UInt8))}
    {read : Option (List UInt8)} (hdropped : dropped read = true) {body : List Char}
    (hbody : '\n' ∉ body) :
    unfinished '\n' (receivedText reads) ++ body ∈
      complete '\n' (receivedText (reads ++ read :: charReads (body ++ ['\n']))) := by
  have hline : '\n' ∉ unfinished '\n' (receivedText reads) ++ body := fun hmem =>
    (List.mem_append.mp hmem).elim (notMem_unfinished _) hbody
  rw [receivedText_append, receivedText_cons, readText_of_dropped hdropped, List.nil_append,
    receivedText_charReads, complete_append, ← List.append_assoc, complete_cons hline]
  exact List.mem_append_right _ List.mem_cons_self

/-- **A harmful drop** can be continued to a sentence that was not received in one piece: complete
the tag, and go on beyond the length of all that was received. -/
theorem not_inOnePiece_of_harmful {gps : GpsSnapshot} {reads : List (Option (List UInt8))}
    {read : Option (List UInt8)} (h : ¬DropsHarmless (pollAll env gps reads) read) :
    ∃ more, ¬InOnePiece env gps (reads ++ read :: charReads more) := by
  rw [dropsHarmless_iff, Classical.not_imp] at h
  obtain ⟨hdropped, hharmful⟩ := h
  obtain ⟨hne, tag, hmem, rest, hrest, htag⟩ := exists_tag_of_not_harmless hharmful
  let fill := rest ++ List.replicate (reads.flatMap (·.getD [])).length 'x'
  have hbody : '\n' ∉ fill ++ ['x'] := by
    simp [fill, hrest, List.mem_replicate]
  have htrim : trim (unfinished '\n' (receivedText reads) ++ (fill ++ ['x'])) =
      trimStart (unfinished '\n' (receivedText reads)) ++ (fill ++ ['x']) :=
    trim_append_singleton hne fill (by decide)
  have htagged : Tagged (trim (unfinished '\n' (receivedText reads) ++ (fill ++ ['x']))) := by
    rw [htrim]
    refine tagged_iff.mpr ⟨tag, hmem, htag.trans ?_⟩
    simp only [fill, ← List.append_assoc]
    exact (List.prefix_append _ _).trans (List.prefix_append _ _)
  refine ⟨fill ++ ['x'] ++ ['\n'], fun hpiece => ?_⟩
  have hreceived := hpiece.received env (mem_complete_of_continued hdropped hbody) htagged
  rw [htrim] at hreceived
  refine not_received_of_begun hdropped hne ?_ ?_ hreceived
  · simp only [fill, List.length_append, List.length_replicate]
    omega
  · exact fun hmem => (List.mem_append.mp hmem).elim
      (fun h => notMem_unfinished _ ((trimStart_suffix _).subset h)) hbody

/-- **No spliced sentence** in a history whose dropped reads are harmless: every sentence handed to
a parser was received in one piece, and so was a line that encodes each second given to NTP.  A
dropped read that is not harmless can be continued to a spliced one. -/
theorem no_spliced_sentence (gps : GpsSnapshot) (reads : List (Option (List UInt8)))
    (h : Throughout (pollStep env) DropsHarmless (some (⟨gps, [], 0⟩, [])) reads) :
    InOnePiece env gps reads ∧
      ∀ read, ¬DropsHarmless (pollAll env gps reads) read →
        ∃ more, ¬InOnePiece env gps (reads ++ read :: charReads more) := by
  obtain ⟨stale, fresh, seg, hpieces⟩ := pieces_of_throughout env gps reads h
  exact ⟨inOnePiece_of_pieces env hpieces gps, fun _ => not_inOnePiece_of_harmful env⟩

/-- Noise between two sentences. -/
theorem no_spliced_sentence_noise : InOnePiece .utcCalendar .default
    [some (encode "$GNRMC,120000,A,,,,,,,010124*3D\r\n".toList), some [0xFF],
      some (encode "$GPGGA,120000,,,,,1,07*4F\r\n".toList)] := by
  have hnoise := (dropsHarmless_iff .utcCalendar .default
    [some (encode "$GNRMC,120000,A,,,,,,,010124*3D\r\n".toList)] (some [0xFF])).mpr
      (by decide +kernel)
  have hkept : ∀ s text, DropsHarmless s (some (encode text)) := fun _ text hdropped =>
    absurd (isUtf8_iff.mpr ⟨text, rfl⟩) (by simpa [dropped] using hdropped)
  exact (no_spliced_sentence .utcCalendar .default
    [some (encode "$GNRMC,120000,A,,,,,,,010124*3D\r\n".toList), some [0xFF],
      some (encode "$GPGGA,120000,,,,,1,07*4F\r\n".toList)]
    ⟨hkept _ _, hnoise, hkept _ _, trivial⟩).1

/-- **A spliced sentence**: the end of one sentence and the beginning of another are dropped, and
NTP gets the second of the two halves joined. -/
theorem sentence_spliced_over_noise :
    ¬InOnePiece .utcCalendar .default
      [some (encode "$GNRMC,120001".toList), some [0xFF],
        some (encode ",A,,,,,,,010124*3C\r\n".toList)] ∧
    ∃ g calls, pollAll .utcCalendar .default
        [some (encode "$GNRMC,120001".toList), some [0xFF],
          some (encode ",A,,,,,,,010124*3C\r\n".toList)] = some (g, calls) ∧
      handed calls = [encode "$GNRMC,120001,A,,,,,,,010124*3C".toList] ∧
      GpsDispatch.utcUpdates calls = [1704110401] := by
  constructor
  · intro h
    have hreceived : Received _ (encode (trim "$GNRMC,120001,A,,,,,,,010124*3C\r".toList)) :=
      h.received .utcCalendar (by decide +kernel) (by decide +kernel)
    rcases @Received.cases [_] [_] (some [0xFF]) _ hreceived (by decide +kernel) with hin | hin
    · exact absurd hin (by decide +kernel)
    · exact absurd hin (by decide +kernel)
  · obtain ⟨_, calls, _, -, hpoll, hseconds, hhanded⟩ := pollAll_spec .utcCalendar .default
      [some (encode "$GNRMC,120001".toList), some [0xFF],
        some (encode ",A,,,,,,,010124*3C\r\n".toList)]
    exact ⟨_, calls, hpoll, hhanded.trans (by decide +kernel), hseconds.trans (by decide +kernel)⟩

end GpsUart

end GpsNtp
