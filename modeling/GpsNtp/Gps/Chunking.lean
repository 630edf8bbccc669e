import GpsNtp.Gps.Uart

/-!
# Gps/Chunking — the reads do not matter, only the stream

    reads:   …,A,4807. │ 038,N,…*4 │ 7␍␊$GP │ GGA,…        text:  … ␊ $GPGGA,…
    calls:   those of the complete lines of the text, in order

The line buffer is the unfinished line of the text received, and the calls made are those that its
complete lines make one after another (`pollAll_eq`).  What a line makes is `applyLine`: it says
nothing of buffers or reads.
-/

namespace GpsNtp

open Utf8 Lines Machine

/-- What a read adds to the text: nothing, where it fails or is dropped. -/
def readText (read : Option (List UInt8)) : List Char := (read.bind fromUtf8).getD []

/-- The text received. -/
def receivedText (reads : List (Option (List UInt8))) : List Char := reads.flatMap readText

theorem receivedText_append (reads reads' : List (Option (List UInt8))) :
    receivedText (reads ++ reads') = receivedText reads ++ receivedText reads' :=
  List.flatMap_append

theorem receivedText_cons (read : Option (List UInt8)) (reads : List (Option (List UInt8))) :
    receivedText (read :: reads) = readText read ++ receivedText reads := List.flatMap_cons

theorem receivedText_append_singleton (reads : List (Option (List UInt8)))
    (read : Option (List UInt8)) :
    receivedText (reads ++ [read]) = receivedText reads ++ readText read := by
  rw [receivedText_append, receivedText_cons]
  exact congrArg _ (List.append_nil _)

/-- The sentences handed to the parsers. -/
def handed (calls : List GpsCall) : List (List UInt8) :=
  calls.filterMap fun
    | .parseRmc sentence => some sentence
    | .parseGga sentence => some sentence
    | _ => none

theorem handed_append (calls calls' : List GpsCall) :
    handed (calls ++ calls') = handed calls ++ handed calls' := List.filterMap_append

theorem GpsDispatch.utcUpdates_append (calls calls' : List GpsCall) :
    utcUpdates (calls ++ calls') = utcUpdates calls ++ utcUpdates calls' := List.filterMap_append

theorem GpsDispatch.utcUpdates_onFix (gps : GpsSnapshot) :
    utcUpdates [.onFix gps] = gps.utcUnixSeconds.toList := by
  rw [utcUpdates, List.filterMap_cons, List.filterMap_nil]
  dsimp only [onFix]
  cases gps.utcUnixSeconds with
  | none => rfl
  | some second => rfl

/-- The UTC second that a line encodes. -/
def rmcSecond (env : Platform) (line : List Char) : Option ℤ :=
  let sentence := encode line
  if IsRmc line ∧ nmeaChecksumValid sentence = some true ∧
      10 ≤ (sentence.splitOn ','.toUInt8).length ∧ sentenceField sentence 2 = ['A'.toUInt8] then
    (env.utcDatetimeFromFields (sentenceField sentence 9) (sentenceField sentence 1)).join.map
      env.timestamp
  else none

/-- The line is one for a parser. -/
def Tagged (line : List Char) : Prop := IsRmc line ∨ IsGga line

instance : DecidablePred Tagged := fun _ => inferInstanceAs (Decidable (_ ∨ _))

namespace GpsUart

variable (env : Platform)

/-- What a line does, once trimmed. -/
def applyLine (s : Ingest) (line : List Char) : Option Ingest :=
  if IsRmc line then rmcLine env line s else if IsGga line then ggaLine env line s else some s

/-! ## The loop takes the complete lines -/

theorem pollLine_trim (line : List Char) (s : Ingest) :
    pollLine env (trim (trimEndMatches (· == '\r') line)) s = applyLine env s (trim line) := by
  have hwhite : ∀ c, (c == '\r') = true → isWhitespace c = true := by
    intro c hc
    rw [beq_iff_eq.mp hc]
    rfl
  rw [trim_trimEndMatches hwhite, pollLine, applyLine]
  by_cases hdollar : "$".toList <+: trim line
  · rw [if_neg (not_not.mpr hdollar)]
  · -- every tag starts with the dollar sign
    have htag : ∀ tag, "$".toList <+: tag → ¬tag <+: trim line := fun tag htag hline =>
      hdollar (htag.trans hline)
    have hrmc : ¬IsRmc (trim line) :=
      not_or.mpr ⟨htag _ (by decide +kernel), htag _ (by decide +kernel)⟩
    have hgga : ¬IsGga (trim line) :=
      not_or.mpr ⟨htag _ (by decide +kernel), htag _ (by decide +kernel)⟩
    rw [if_pos hdollar, if_neg hrmc, if_neg hgga]

theorem findIdx?_newline_of_notMem {t : List Char} (h : '\n' ∉ t) :
    t.findIdx? (· == '\n') = none := by
  rw [List.findIdx?_eq_none_iff]
  exact fun c hc => beq_eq_false_iff_ne.mpr fun heq => h (heq ▸ hc)

theorem pollLoop_of_notMem {t : List Char} (h : '\n' ∉ t) (s : Ingest) :
    pollLoop env t s = some (t, s) := by
  rw [pollLoop]
  split
  · rfl
  · rename_i newlineIdx hidx
    cases (findIdx?_newline_of_notMem h).symm.trans hidx

theorem pollLoop_line {l : List Char} (h : '\n' ∉ l) (t : List Char) (s : Ingest) :
    pollLoop env (l ++ '\n' :: t) s =
      (applyLine env s (trim l)).bind fun s => pollLoop env t s := by
  have hfind : (l ++ '\n' :: t).findIdx? (· == '\n') = some l.length := by
    rw [List.findIdx?_append, findIdx?_newline_of_notMem h, List.findIdx?_cons,
      beq_self_eq_true, if_pos rfl, Option.map_some, Option.none_or, Nat.zero_add]
  rw [pollLoop]
  split
  · rename_i hidx
    cases hfind.symm.trans hidx
  · rename_i newlineIdx hidx
    obtain rfl := Option.some.inj (hfind.symm.trans hidx)
    have hrest : (l ++ '\n' :: t).drop (l.length + 1) = t := by
      rw [← List.drop_drop, List.drop_left, List.drop_one, List.tail_cons]
    dsimp only
    rw [List.take_left, hrest, pollLine_trim]
    rfl

/-- **The loop** leaves the unfinished line, and does what the complete ones do. -/
theorem pollLoop_eq (lineBuf : List Char) (s : Ingest) :
    pollLoop env lineBuf s =
      (((complete '\n' lineBuf).map trim).foldlM (applyLine env) s).map
        fun s => (unfinished '\n' lineBuf, s) := by
  induction lineBuf using line_induction '\n' generalizing s with
  | base t h =>
    rw [pollLoop_of_notMem env h, complete_of_notMem h, unfinished_of_notMem h]
    rfl
  | line l t h ih =>
    rw [pollLoop_line env h, complete_cons h, unfinished_cons h, List.map_cons, List.foldlM_cons]
    cases applyLine env s (trim l) with
    | none => rfl
    | some s => exact ih s

/-! ## What a line does -/

theorem rmcSecond_of_rejected {line : List Char} (h : ¬RmcAccepted (encode line)) :
    rmcSecond env line = none := by
  rw [rmcSecond]
  split_ifs with hline
  · obtain ⟨-, hchecksum, hfields, -⟩ := hline
    have hsix : ¬(SixAscii (sentenceField (encode line) 9) ∧
        SixAscii (sentenceField (encode line) 1)) :=
      fun hboth => h ⟨hchecksum, hfields, hboth.2, hboth.1⟩
    rw [Platform.utcDatetimeFromFields_eq, if_neg hsix]
    rfl
  · rfl

theorem rmcSecond_of_accepted {line : List Char} (htag : IsRmc line)
    (h : RmcAccepted (encode line)) {utc : Option env.NaiveDateTime}
    (hutc : env.utcDatetimeFromFields (sentenceField (encode line) 9)
      (sentenceField (encode line) 1) = some utc) :
    rmcSecond env line =
      if sentenceField (encode line) 2 = ['A'.toUInt8] then utc.map env.timestamp else none := by
  rw [rmcSecond]
  by_cases hstatus : sentenceField (encode line) 2 = ['A'.toUInt8]
  · rw [if_pos ⟨htag, h.checksum, h.fields, hstatus⟩, if_pos hstatus, hutc]
    rfl
  · rw [if_neg hstatus, if_neg]
    exact fun hline => hstatus hline.2.2.2

/-- **An RMC line** is handed to the parser, and gives NTP the second it encodes. -/
theorem rmcLine_spec {line : List Char} (htag : IsRmc line) (gps : GpsSnapshot)
    (calls : List GpsCall) :
    ∃ gps' made, rmcLine env line (gps, calls) = some (gps', calls ++ made) ∧
      GpsDispatch.utcUpdates made = (rmcSecond env line).toList ∧ handed made = [encode line] := by
  obtain ⟨r, hr, hout⟩ := env.parseRmc_outcome (encode line) gps
  rw [rmcLine, hr]
  cases hout with
  | rejected h =>
    rw [rmcSecond_of_rejected env h]
    exact ⟨gps, [.parseRmc (encode line)], rfl, rfl, rfl⟩
  | @accepted gps' h hfix _ hsecond _ =>
    obtain ⟨utc, hutc, hunix⟩ := hsecond
    rw [rmcSecond_of_accepted env htag h hutc]
    by_cases hstatus : sentenceField (encode line) 2 = ['A'.toUInt8]
    · rw [if_pos hstatus, ← hunix]
      rw [hstatus, beq_self_eq_true] at hfix
      refine ⟨gps', [.parseRmc (encode line), .onSnapshot gps', .onFix gps'], ?_, ?_, rfl⟩
      · dsimp only [Option.bind_eq_bind, Option.bind_some]
        rw [Option.isSome_some, if_pos rfl, if_pos hfix, List.append_assoc, List.append_assoc]
        rfl
      · exact GpsDispatch.utcUpdates_onFix gps'
    · rw [if_neg hstatus]
      rw [beq_eq_false_iff_ne.mpr hstatus] at hfix
      refine ⟨gps', [.parseRmc (encode line), .onSnapshot gps'], ?_, rfl, rfl⟩
      dsimp only [Option.bind_eq_bind, Option.bind_some]
      rw [Option.isSome_some, if_pos rfl, hfix, if_neg Bool.false_ne_true, List.append_assoc]
      rfl

/-- **A GGA line** is handed to the parser, and gives NTP nothing. -/
theorem ggaLine_spec (line : List Char) (gps : GpsSnapshot) (calls : List GpsCall) :
    ∃ gps' made, ggaLine env line (gps, calls) = some (gps', calls ++ made) ∧
      GpsDispatch.utcUpdates made = [] ∧ handed made = [encode line] := by
  obtain ⟨r, hr, hout⟩ := env.parseGga_outcome (encode line) gps
  rw [ggaLine, hr]
  cases hout with
  | rejected h => exact ⟨gps, [.parseGga (encode line)], rfl, rfl, rfl⟩
  | @accepted _ gps' h _ =>
    refine ⟨gps', [.parseGga (encode line), .onSnapshot gps'], ?_, rfl, rfl⟩
    exact congrArg (fun made => some (gps', made)) (List.append_assoc calls _ _)

/-- **A line** is handed to a parser if its tag says so, and gives NTP the second it encodes. -/
theorem applyLine_spec (line : List Char) (gps : GpsSnapshot) (calls : List GpsCall) :
    ∃ gps' made, applyLine env (gps, calls) line = some (gps', calls ++ made) ∧
      GpsDispatch.utcUpdates made = (rmcSecond env line).toList ∧
      handed made = ([line].filter Tagged).map encode := by
  by_cases hrmc : IsRmc line
  · have hkept : [line].filter Tagged = [line] :=
      List.filter_cons_of_pos (decide_eq_true (Or.inl hrmc))
    rw [applyLine, if_pos hrmc, hkept]
    exact rmcLine_spec env hrmc gps calls
  · have hsecond : rmcSecond env line = none := if_neg fun h => hrmc h.1
    rw [applyLine, if_neg hrmc, hsecond]
    by_cases hgga : IsGga line
    · have hkept : [line].filter Tagged = [line] :=
        List.filter_cons_of_pos (decide_eq_true (Or.inr hgga))
      rw [if_pos hgga, hkept]
      exact ggaLine_spec env line gps calls
    · have hleft : [line].filter Tagged = [] :=
        List.filter_cons_of_neg (by rw [decide_eq_true_iff]; exact not_or.mpr ⟨hrmc, hgga⟩)
      rw [if_neg hgga, hleft]
      exact ⟨gps, [], by rw [List.append_nil], rfl, rfl⟩

/-- **Lines** do what each of them does, in order. -/
theorem applyLines_spec (lines : List (List Char)) (gps : GpsSnapshot) (calls : List GpsCall) :
    ∃ gps' made, lines.foldlM (applyLine env) (gps, calls) = some (gps', calls ++ made) ∧
      GpsDispatch.utcUpdates made = lines.filterMap (rmcSecond env) ∧
      handed made = (lines.filter Tagged).map encode := by
  induction lines generalizing gps calls with
  | nil => exact ⟨gps, [], by rw [List.append_nil]; rfl, rfl, rfl⟩
  | cons line lines ih =>
    obtain ⟨gps', made, hline, hsecond, hhanded⟩ := applyLine_spec env line gps calls
    obtain ⟨gps'', made', hlines, hseconds, hhandeds⟩ := ih gps' (calls ++ made)
    refine ⟨gps'', made ++ made', ?_, ?_, ?_⟩
    · rw [List.foldlM_cons, hline, ← List.append_assoc]
      exact hlines
    · rw [GpsDispatch.utcUpdates_append, hsecond, hseconds, List.filterMap_cons]
      cases rmcSecond env line with
      | none => rfl
      | some second => rfl
    · rw [handed_append, hhanded, hhandeds, ← List.map_append, ← List.filter_append,
        List.singleton_append]

/-! ## A whole history -/

/-- **One read** adds its text to the line buffer and takes the complete lines out. -/
theorem poll_eq (g : GpsUart) (calls : List GpsCall) (read : Option (List UInt8))
    (h : '\n' ∉ g.lineBuf) :
    ∃ bytesSeen, poll env g calls read =
      (((complete '\n' (g.lineBuf ++ readText read)).map trim).foldlM (applyLine env)
        (g.snapshot, calls)).map
          fun s => (⟨s.1, unfinished '\n' (g.lineBuf ++ readText read), bytesSeen⟩, s.2) := by
  have hnone : ∀ bytesSeen, some (⟨g.snapshot, g.lineBuf, bytesSeen⟩, calls) =
      (((complete '\n' (g.lineBuf ++ [])).map trim).foldlM (applyLine env)
        (g.snapshot, calls)).map
          fun s => ((⟨s.1, unfinished '\n' (g.lineBuf ++ []), bytesSeen⟩ : GpsUart), s.2) := by
    intro bytesSeen
    rw [List.append_nil, complete_of_notMem h, unfinished_of_notMem h]
    rfl
  cases read with
  | none => exact ⟨g.bytesSeen, hnone _⟩
  | some bytes =>
    rw [poll]
    split_ifs with hlen
    · obtain rfl := List.eq_nil_of_length_eq_zero hlen
      have htext : readText (some []) = [] := by
        rw [readText, Option.bind_some, fromUtf8_eq_some_iff.mpr (show encode [] = [] from rfl)]
        rfl
      rw [htext]
      exact ⟨g.bytesSeen, hnone _⟩
    · refine ⟨g.bytesSeen + UInt64.ofNat bytes.length, ?_⟩
      cases hchunk : fromUtf8 bytes with
      | none =>
        have htext : readText (some bytes) = [] := by rw [readText, Option.bind_some, hchunk]; rfl
        rw [htext]
        exact hnone _
      | some chunk =>
        have htext : readText (some bytes) = chunk := by
          rw [readText, Option.bind_some, hchunk, Option.getD_some]
        rw [htext]
        dsimp only
        rw [pollLoop_eq]
        cases ((complete '\n' (g.lineBuf ++ chunk)).map trim).foldlM (applyLine env)
            (g.snapshot, calls) with
        | none => rfl
        | some s => rfl

/-- **The state after a history of reads** is that of the lines completed: whatever the reads
were, the line buffer is the unfinished line of the text received. -/
theorem pollAll_eq (gps : GpsSnapshot) (reads : List (Option (List UInt8))) :
    ∃ bytesSeen, pollAll env gps reads =
      (((complete '\n' (receivedText reads)).map trim).foldlM (applyLine env) (gps, [])).map
        fun s => (⟨s.1, unfinished '\n' (receivedText reads), bytesSeen⟩, s.2) := by
  rw [pollAll]
  induction reads using List.reverseRecOn with
  | nil => exact ⟨0, rfl⟩
  | append_singleton reads read ih =>
    obtain ⟨bytesSeen, hreads⟩ := ih
    rw [run_append, hreads, receivedText_append_singleton, complete_append, unfinished_append,
      List.map_append, List.foldlM_append]
    cases ((complete '\n' (receivedText reads)).map trim).foldlM (applyLine env) (gps, []) with
    | none => exact ⟨0, rfl⟩
    | some s =>
      exact poll_eq env ⟨s.1, unfinished '\n' (receivedText reads), bytesSeen⟩ s.2 read
        (notMem_unfinished _)

/-- **No history panics**: the state it reaches, the seconds it gave NTP and the sentences it
handed over. -/
theorem pollAll_spec (gps : GpsSnapshot) (reads : List (Option (List UInt8))) :
    ∃ gps' calls bytesSeen,
      ((complete '\n' (receivedText reads)).map trim).foldlM (applyLine env) (gps, []) =
        some (gps', calls) ∧
      pollAll env gps reads =
        some (⟨gps', unfinished '\n' (receivedText reads), bytesSeen⟩, calls) ∧
      GpsDispatch.utcUpdates calls =
        ((complete '\n' (receivedText reads)).map trim).filterMap (rmcSecond env) ∧
      handed calls =
        (((complete '\n' (receivedText reads)).map trim).filter Tagged).map encode := by
  obtain ⟨bytesSeen, hpoll⟩ := pollAll_eq env gps reads
  obtain ⟨gps', calls, hlines, hseconds, hhanded⟩ := applyLines_spec env
    ((complete '\n' (receivedText reads)).map trim) gps []
  rw [hlines] at hpoll
  exact ⟨gps', calls, bytesSeen, hlines, hpoll, hseconds, hhanded⟩

/-- The text of a stream of characters below 0x80. -/
theorem receivedText_ascii {reads : List (List UInt8)} (h : isAscii reads.flatten = true) :
    receivedText (reads.map some) = reads.flatten.map Char.ofUInt8 := by
  induction reads with
  | nil => rfl
  | cons read reads ih =>
    rw [List.flatten_cons, isAscii, List.all_append, Bool.and_eq_true] at h
    have hread : readText (some read) = read.map Char.ofUInt8 := by
      rw [readText, Option.bind_some, fromUtf8_eq_some_iff.mpr (encode_ofUInt8 h.1),
        Option.getD_some]
    rw [List.map_cons, receivedText_cons, hread, ih h.2, List.flatten_cons, List.map_append]

/-- **Ingest does not depend on the reads.**  However a stream of characters below 0x80 is cut into
reads, `poll` leaves the snapshot and makes the calls that its complete lines, trimmed, lead to one
after another; the seconds passed to NTP are those that these lines encode, and the parser is handed
exactly the lines with one of its two tags, byte for byte and in order. -/
theorem ingest_chunking (gps : GpsSnapshot) (reads : List (List UInt8))
    (h : isAscii reads.flatten = true) :
    ∃ gps' calls bytesSeen,
      ((complete '\n' (reads.flatten.map Char.ofUInt8)).map trim).foldlM (applyLine env) (gps, []) =
        some (gps', calls) ∧
      pollAll env gps (reads.map some) =
        some (⟨gps', unfinished '\n' (reads.flatten.map Char.ofUInt8), bytesSeen⟩, calls) ∧
      GpsDispatch.utcUpdates calls =
        ((complete '\n' (reads.flatten.map Char.ofUInt8)).map trim).filterMap (rmcSecond env) ∧
      handed calls =
        (((complete '\n' (reads.flatten.map Char.ofUInt8)).map trim).filter Tagged).map encode := by
  obtain ⟨gps', calls, bytesSeen, hlines, hpoll, hseconds, hhanded⟩ :=
    pollAll_spec env gps (reads.map some)
  rw [receivedText_ascii h] at hlines hpoll hseconds hhanded
  exact ⟨gps', calls, bytesSeen, hlines, hpoll, hseconds, hhanded⟩

/-- A sentence cut in its tag and in its line end, and the start of the next. -/
theorem ingest_chunking_cut : ∃ gps' calls bytesSeen,
    pollAll .utcCalendar .default
      (["$GN", "RMC,120000,A,,,,,,,010124*3D\r", "\n$GNR"].map fun s => some (encode s.toList)) =
        some (⟨gps', "$GNR".toList, bytesSeen⟩, calls) ∧
      GpsDispatch.utcUpdates calls = [1704110400] ∧
      handed calls = [encode "$GNRMC,120000,A,,,,,,,010124*3D".toList] := by
  obtain ⟨gps', calls, bytesSeen, -, hpoll, hseconds, hhanded⟩ :=
    ingest_chunking .utcCalendar .default
      (["$GN", "RMC,120000,A,,,,,,,010124*3D\r", "\n$GNR"].map fun s => encode s.toList)
      (by decide +kernel)
  refine ⟨gps', calls, bytesSeen, hpoll.trans ?_, hseconds.trans (by decide +kernel),
    hhanded.trans (by decide +kernel)⟩
  exact congrArg (fun rest => some ((⟨gps', rest, bytesSeen⟩ : GpsUart), calls))
    (by decide +kernel)

end GpsUart

end GpsNtp
