import GpsNtp.Machinery.Markup
import GpsNtp.Machinery.Sorted
import GpsNtp.Sdlog.Delete

/-!
# Sdlog/Listing — the page that lists the card

    read_dir ─sort▸ (name, size) ─listingRow▸ <tr><td>name</td><td>size</td><td> delete </td></tr>
                        ◂────────────────── rowsOf ──────────────────────

`GET /files` writes a table with a row for each entry of the root and, for a file that is not the
ready marker, a form that sends its name.  The name of a file is anyone's choice, and it is written
three times into the row.  A browser reads the rows back as they were meant all the same: no name
makes up a row, a cell or a form that is not its own.
-/

namespace GpsNtp.Sdlog

open Utf8 Markup Sorted

/-! ## The page -/

/-- An entry of the listing: its name, and the size where it is a file. -/
structure Entry where
  name : List Char
  size : Option ℕ
deriving DecidableEq

/-- What `fs::read_dir` tells of an entry; its metadata may fail. -/
structure DirEntry where
  fileName : List UInt8
  metadata : Option (Kind × ℕ)
deriving DecidableEq

/-- The order of a `String`, that of its characters. -/
def nameLe : List Char → List Char → Bool := listLe fun a b => natLe a.toNat b.toNat

/-- The derived order of the pairs, that of the names first. -/
def entryLe (a b : Entry) : Bool :=
  pairLe nameLe (optionLe natLe) (a.name, a.size) (b.name, b.size)

/-- The job `sd list`: no directory is an empty one, and what cannot be read of it is skipped. -/
def listEntries (dir : Option (List (Option DirEntry))) : List Entry :=
  let entries := (dir.getD []).reduceOption.map fun entry =>
    { name := lossyChars entry.fileName
      size := (entry.metadata.filter fun (kind, _) => kind = .file).map Prod.snd : Entry }
  entries.mergeSort entryLe

/-- `html_escape`. -/
def htmlEscape (input : List Char) : List Char :=
  input.flatMap fun ch =>
    match ch with
    | '&' => "&amp;".toList
    | '<' => "&lt;".toList
    | '>' => "&gt;".toList
    | '"' => "&quot;".toList
    | c => [c]

/-- A number in decimal. -/
def decimal (n : ℕ) : List Char := Nat.toDigits 10 n

/-- The rest of the row of the ready marker. -/
def protectedCells (bytes : ℕ) : List Char :=
  "<td>".toList ++ (decimal bytes ++ "</td><td>protected</td></tr>".toList)

/-- The rest of the row of a file that can be deleted. -/
def deleteCells (bytes : ℕ) (escaped : List Char) : List Char :=
  "<td>".toList ++ (decimal bytes ++ ("</td><td><form method=post action=/files/delete ".toList ++
    ("style=\"display:inline\"><input type=hidden name=name value=\"".toList ++ (escaped ++
      ("\"><button onclick=\"return confirm('Delete ".toList ++ (escaped ++
        "?')\">delete</button></form></td></tr>".toList))))))

/-- The row of an entry. -/
def listingRow (entry : Entry) : List Char :=
  let escaped := htmlEscape entry.name
  "<tr><td>".toList ++ (escaped ++ ("</td>".toList ++
    match entry.size with
    | none => "<td>dir</td><td></td></tr>".toList
    | some bytes =>
      if encode entry.name = markerName then protectedCells bytes
      else deleteCells bytes escaped))

/-- What stands before the rows. -/
def listingHead : List Char :=
  "<!doctype html><title>SD card</title><style>body\x7bfont:14px monospace\x7d".toList ++
    "td\x7bpadding:2px 10px\x7d</style><h2>/sdcard</h2><table>".toList

/-- What stands behind the rows. -/
def listingFoot (n : ℕ) : List Char :=
  "</table><p>".toList ++ (decimal n ++
    (" entries. Logs: <a href=/log>/log</a> ".toList ++ "<a href=/log/1>/log/1</a></p>".toList))

/-- The page of `serve_listing`. -/
def listingPage (entries : List Entry) : List Char :=
  listingHead ++ (entries.flatMap listingRow ++ listingFoot entries.length)

/-! ## The browser -/

/-- A row of a table as it is shown: the texts of its cells, what its form sends, and what its
button asks before it does. -/
structure Row where
  cells : List (List Char)
  sends : Option (List Char)
  asks : Option (List Char)
deriving DecidableEq

/-- A row of which nothing has been read. -/
def Row.blank : Row := ⟨[], none, none⟩

/-- A character that stands for itself in a literal of a script between apostrophes. -/
def plainChar (c : Char) : Bool := c ≠ '\'' ∧ c ≠ '\\' ∧ c ≠ '\n' ∧ c ≠ '\r'

/-- What a script asks that only confirms a literal without escapes, and none for any other. -/
def question (script : List Char) : Option (List Char) := do
  let literal ← "return confirm('".toList.isPrefixOf? script
  let (text, rest) ← Split.splitOnce '\'' literal
  if rest = ")".toList ∧ text.all plainChar then some text else none

/-- A tag put before what has been read of the page behind it: the row begun, and the rows. -/
def readPiece (p : Piece) (s : Row × List Row) : Row × List Row :=
  if p.tag = "tr".toList then (.blank, s.1 :: s.2)
  else if p.tag = "td".toList then ({ s.1 with cells := unescape p.text :: s.1.cells }, s.2)
  else if "input ".toList.isPrefixOf p.tag then
    ({ s.1 with sends := (attributeValue "value".toList p.tag).map unescape }, s.2)
  else if "button ".toList.isPrefixOf p.tag then
    let script := (attributeValue "onclick".toList p.tag).map unescape
    ({ s.1 with asks := script.bind question }, s.2)
  else s

/-- What is read of the runs of a page. -/
def readRuns (runs : List (List Char)) : Row × List Row :=
  (pairUp runs).foldr readPiece (.blank, [])

/-- The rows of the tables of a page. -/
def rowsOf (page : List Char) : List Row := (readRuns (scan .text page).2).2

/-- The row that an entry is meant to have. -/
def Entry.row (entry : Entry) : Row :=
  match entry.size with
  | none => ⟨[entry.name, "dir".toList, []], none, none⟩
  | some bytes =>
    if encode entry.name = markerName then
      ⟨[entry.name, decimal bytes, "protected".toList], none, none⟩
    else
      ⟨[entry.name, decimal bytes, []], some entry.name,
        if entry.name.all plainChar then some ("Delete ".toList ++ (entry.name ++ "?".toList))
        else none⟩

/-! ## The parts of a row -/

theorem htmlEscape_eq (input : List Char) : htmlEscape input = escape input := by
  rw [htmlEscape, escape]
  refine congrArg (input.flatMap ·) (funext fun c => ?_)
  rcases reference_cases c with (rfl | rfl | rfl | rfl) | ⟨hnone, hamp, hlt, hgt, hquot⟩
  · rfl
  · rfl
  · rfl
  · rfl
  · rw [hnone]
    split <;> first | contradiction | rfl

theorem notMem_decimal {c : Char} (hc : c.isDigit = false) (n : ℕ) : c ∉ decimal n := by
  intro hmem
  have hdigit := Nat.isDigit_of_mem_toDigits (by decide) (by decide) hmem
  rw [hc] at hdigit
  cases hdigit

/-- A number is its own escape. -/
theorem escape_decimal (n : ℕ) : escape (decimal n) = decimal n := by
  refine escape_eq_self fun c hc => ?_
  have hother : ∀ d : Char, d.isDigit = false → c ≠ d := fun d hd h => notMem_decimal hd n (h ▸ hc)
  exact ⟨hother _ (by decide), hother _ (by decide), hother _ (by decide), hother _ (by decide)⟩

theorem unescape_decimal (n : ℕ) : unescape (decimal n) = decimal n := by
  have h := unescape_escape (decimal n)
  rwa [escape_decimal] at h

theorem scan_decimal (n : ℕ) (cs : List Char) :
    scan .text (decimal n ++ cs) = (decimal n ++ (scan .text cs).1, (scan .text cs).2) := by
  have h := scan_escape (.inl rfl) (decimal n) cs
  rwa [escape_decimal] at h

/-- The value of the hidden field of a form. -/
theorem attributeValue_input {escaped : List Char} (h : '"' ∉ escaped) :
    attributeValue "value".toList
      ("input type=hidden name=name value=\"".toList ++ (escaped ++ "\"".toList)) =
        some escaped := by
  have hcut : Search.cut (' ' :: "value".toList ++ "=\"".toList)
      ("input type=hidden name=name value=\"".toList ++ (escaped ++ "\"".toList)) =
        some ("input type=hidden name=name".toList, escaped ++ "\"".toList) := rfl
  have hsplit : Split.splitOnce '"' (escaped ++ "\"".toList) = some (escaped, []) :=
    Split.splitOnce_eq_some_iff.mpr ⟨rfl, h⟩
  rw [attributeValue, hcut, Option.bind_some, hsplit]
  rfl

/-- The script of the button of a form. -/
theorem attributeValue_button {escaped : List Char} (h : '"' ∉ escaped) :
    attributeValue "onclick".toList
      ("button onclick=\"return confirm('Delete ".toList ++ (escaped ++ "?')\"".toList)) =
        some ("return confirm('Delete ".toList ++ (escaped ++ "?')".toList)) := by
  have hcut : Search.cut (' ' :: "onclick".toList ++ "=\"".toList)
      ("button onclick=\"return confirm('Delete ".toList ++ (escaped ++ "?')\"".toList)) =
        some ("button".toList, "return confirm('Delete ".toList ++ (escaped ++ "?')\"".toList)) :=
    rfl
  have hmem : '"' ∉ "return confirm('Delete ".toList ++ (escaped ++ "?')".toList) := by
    rw [List.mem_append, List.mem_append]
    exact fun hor => hor.elim (by decide) fun hor => hor.elim h (by decide)
  have hsplit : Split.splitOnce '"'
      ("return confirm('Delete ".toList ++ (escaped ++ "?')\"".toList)) =
        some ("return confirm('Delete ".toList ++ (escaped ++ "?')".toList), []) :=
    Split.splitOnce_eq_some_iff.mpr ⟨by
      rw [List.append_assoc, List.append_assoc]
      rfl, hmem⟩
  rw [attributeValue, hcut, Option.bind_some, hsplit]
  rfl

/-- The script as it runs has the name itself. -/
theorem unescape_script (name : List Char) :
    unescape ("return confirm('Delete ".toList ++ (escape name ++ "?')".toList)) =
      "return confirm('Delete ".toList ++ (name ++ "?')".toList) := by
  have hescape : escape ("return confirm('Delete ".toList ++ (name ++ "?')".toList)) =
      "return confirm('Delete ".toList ++ (escape name ++ "?')".toList) := by
    rw [escape_append, escape_append]
    rfl
  rw [← hescape, unescape_escape]

/-- A script that starts as it should, its literal cut off. -/
theorem question_eq {script literal text rest : List Char}
    (hstrip : "return confirm('".toList.isPrefixOf? script = some literal)
    (hsplit : Split.splitOnce '\'' literal = some (text, rest)) :
    question script = if rest = ")".toList ∧ text.all plainChar then some text else none := by
  rw [question, hstrip, Option.bind_eq_bind, Option.bind_some, hsplit]
  rfl

/-- **The question is the one that is meant** for the names in which nothing ends the literal or
escapes from it, and for them only: an apostrophe is not escaped. -/
theorem question_script (name : List Char) :
    question ("return confirm('Delete ".toList ++ (name ++ "?')".toList)) =
      if name.all plainChar then some ("Delete ".toList ++ (name ++ "?".toList)) else none := by
  have hstrip : "return confirm('".toList.isPrefixOf?
      ("return confirm('Delete ".toList ++ (name ++ "?')".toList)) =
        some ("Delete ".toList ++ (name ++ "?')".toList)) := rfl
  by_cases hquote : '\'' ∈ name
  · -- the literal ends within the name, and more than the end of the call stands behind it
    obtain ⟨before, after, rfl, hbefore⟩ := List.eq_append_cons_of_mem hquote
    have hsplit : Split.splitOnce '\''
        ("Delete ".toList ++ (before ++ '\'' :: after ++ "?')".toList)) =
          some ("Delete ".toList ++ before, after ++ "?')".toList) :=
      Split.splitOnce_eq_some_iff.mpr ⟨by simp only [List.append_assoc, List.cons_append], by
        rw [List.mem_append]
        exact fun hor => hor.elim (by decide) hbefore⟩
    have hrest : after ++ "?')".toList ≠ ")".toList := fun h => by
      have hlen := congrArg List.length h
      rw [List.length_append] at hlen
      have : after.length + 3 = 1 := hlen
      omega
    have hname : (before ++ '\'' :: after).all plainChar = false := by
      rw [List.all_append, List.all_cons, show plainChar '\'' = false from rfl, Bool.false_and,
        Bool.and_false]
    rw [question_eq hstrip hsplit, if_neg fun h => hrest h.1, hname]
    rfl
  · have hsplit : Split.splitOnce '\'' ("Delete ".toList ++ (name ++ "?')".toList)) =
        some ("Delete ".toList ++ (name ++ "?".toList), ")".toList) :=
      Split.splitOnce_eq_some_iff.mpr ⟨by
        rw [List.append_assoc, List.append_assoc]
        rfl, by
        rw [List.mem_append, List.mem_append]
        exact fun hor => hor.elim (by decide) fun hor => hor.elim hquote (by decide)⟩
    have hplain : ("Delete ".toList ++ (name ++ "?".toList)).all plainChar =
        name.all plainChar := by
      rw [List.all_append, List.all_append, show "Delete ".toList.all plainChar = true from rfl,
        show "?".toList.all plainChar = true from rfl, Bool.true_and, Bool.and_true]
    rw [question_eq hstrip hsplit, hplain]
    exact if_congr (and_iff_right rfl) rfl rfl

/-! ## Reading the page -/

/-- The page is read as these rows, the last of them done. -/
def Reads (page : List Char) (rows : List Row) : Prop :=
  (scan .text page).1 = [] ∧ readRuns (scan .text page).2 = (.blank, rows)

section Scan

variable (cs : List Char)

theorem scan_rowStart : scan .text ("<tr><td>".toList ++ cs) =
    ([], "tr".toList :: [] :: "td".toList :: (scan .text cs).1 :: (scan .text cs).2) := (rfl)

theorem scan_cellEnd : scan .text ("</td>".toList ++ cs) =
    ([], "/td".toList :: (scan .text cs).1 :: (scan .text cs).2) := (rfl)

theorem scan_cellStart : scan .text ("<td>".toList ++ cs) =
    ([], "td".toList :: (scan .text cs).1 :: (scan .text cs).2) := (rfl)

theorem scan_dirCells : scan .text ("<td>dir</td><td></td></tr>".toList ++ cs) =
    ([], "td".toList :: "dir".toList :: "/td".toList :: [] :: "td".toList :: [] :: "/td".toList ::
      [] :: "/tr".toList :: (scan .text cs).1 :: (scan .text cs).2) := (rfl)

theorem scan_protectedCell : scan .text ("</td><td>protected</td></tr>".toList ++ cs) =
    ([], "/td".toList :: [] :: "td".toList :: "protected".toList :: "/td".toList :: [] ::
      "/tr".toList :: (scan .text cs).1 :: (scan .text cs).2) := (rfl)

theorem scan_form : scan .text ("</td><td><form method=post action=/files/delete ".toList ++ cs) =
    ([], "/td".toList :: [] :: "td".toList :: [] ::
      ("form method=post action=/files/delete ".toList ++ (scan .tag cs).1) :: (scan .tag cs).2) :=
  (rfl)

theorem scan_input :
    scan .tag ("style=\"display:inline\"><input type=hidden name=name value=\"".toList ++ cs) =
      ("style=\"display:inline\"".toList, [] ::
        ("input type=hidden name=name value=\"".toList ++ (scan .quoted cs).1) ::
          (scan .quoted cs).2) := (rfl)

theorem scan_button :
    scan .quoted ("\"><button onclick=\"return confirm('Delete ".toList ++ cs) =
      ("\"".toList, [] :: ("button onclick=\"return confirm('Delete ".toList ++
        (scan .quoted cs).1) :: (scan .quoted cs).2) := (rfl)

theorem scan_rowEnd : scan .quoted ("?')\">delete</button></form></td></tr>".toList ++ cs) =
    ("?')\"".toList, "delete".toList :: "/button".toList :: [] :: "/form".toList :: [] ::
      "/td".toList :: [] :: "/tr".toList :: (scan .text cs).1 :: (scan .text cs).2) := (rfl)

theorem scan_doctype : scan .text
    ("<!doctype html><title>SD card</title><style>body\x7bfont:14px monospace\x7d".toList ++ cs) =
    ([], "!doctype html".toList :: [] :: "title".toList :: "SD card".toList :: "/title".toList ::
      [] :: "style".toList :: ("body\x7bfont:14px monospace\x7d".toList ++ (scan .text cs).1) ::
      (scan .text cs).2) := (rfl)

theorem scan_table : scan .text
    ("td\x7bpadding:2px 10px\x7d</style><h2>/sdcard</h2><table>".toList ++ cs) =
    ("td\x7bpadding:2px 10px\x7d".toList, "/style".toList :: [] :: "h2".toList ::
      "/sdcard".toList :: "/h2".toList :: [] :: "table".toList :: (scan .text cs).1 ::
      (scan .text cs).2) := (rfl)

theorem scan_tableEnd : scan .text ("</table><p>".toList ++ cs) =
    ([], "/table".toList :: [] :: "p".toList :: (scan .text cs).1 :: (scan .text cs).2) := (rfl)

theorem scan_log : scan .text (" entries. Logs: <a href=/log>/log</a> ".toList ++ cs) =
    (" entries. Logs: ".toList, "a href=/log".toList :: "/log".toList :: "/a".toList ::
      (' ' :: (scan .text cs).1) :: (scan .text cs).2) := (rfl)

theorem scan_rotated : scan .text ("<a href=/log/1>/log/1</a></p>".toList) =
    ([], "a href=/log/1".toList :: "/log/1".toList :: "/a".toList :: [] :: "/p".toList :: [] ::
      []) := (rfl)

end Scan

section Tags

variable {tag text : List Char} {runs : List (List Char)} {row : Row} {rows : List Row}

theorem readRuns_cons (h : readRuns runs = (row, rows)) :
    readRuns (tag :: text :: runs) = readPiece ⟨tag, text⟩ (row, rows) :=
  congrArg (readPiece ⟨tag, text⟩) h

/-- A tag of another kind says nothing of the rows. -/
theorem readRuns_other (htag : tag ≠ "tr".toList ∧ tag ≠ "td".toList ∧
    ¬"input ".toList.isPrefixOf tag ∧ ¬"button ".toList.isPrefixOf tag)
    (h : readRuns runs = (row, rows)) : readRuns (tag :: text :: runs) = (row, rows) := by
  obtain ⟨hrow, hcell, hinput, hbutton⟩ := htag
  rw [readRuns_cons h, readPiece, if_neg hrow, if_neg hcell, if_neg hinput, if_neg hbutton]

theorem readRuns_row (h : readRuns runs = (row, rows)) :
    readRuns ("tr".toList :: text :: runs) = (.blank, row :: rows) :=
  readRuns_cons h

theorem readRuns_cell (h : readRuns runs = (row, rows)) :
    readRuns ("td".toList :: text :: runs) =
      ({ row with cells := unescape text :: row.cells }, rows) :=
  readRuns_cons h

/-- The hidden field sends the name. -/
theorem readRuns_input (name : List Char) (h : readRuns runs = (row, rows)) :
    readRuns (("input type=hidden name=name value=\"".toList ++ (escape name ++ "\"".toList)) ::
      text :: runs) = ({ row with sends := some name }, rows) := by
  have hquot : '"' ∉ escape name := notMem_escape (.inr (.inr rfl)) name
  have hpiece : readPiece ⟨"input type=hidden name=name value=\"".toList ++
      (escape name ++ "\"".toList), text⟩ (row, rows) =
      (⟨row.cells, (attributeValue "value".toList ("input type=hidden name=name value=\"".toList ++
        (escape name ++ "\"".toList))).map unescape, row.asks⟩, rows) := rfl
  rw [readRuns_cons h, hpiece, attributeValue_input hquot, Option.map_some, unescape_escape]

/-- The button asks for the name, if it can. -/
theorem readRuns_button (name : List Char) (h : readRuns runs = (row, rows)) :
    readRuns (("button onclick=\"return confirm('Delete ".toList ++
      (escape name ++ "?')\"".toList)) :: text :: runs) =
      (⟨row.cells, row.sends, if name.all plainChar then
        some ("Delete ".toList ++ (name ++ "?".toList)) else none⟩, rows) := by
  have hquot : '"' ∉ escape name := notMem_escape (.inr (.inr rfl)) name
  have hpiece : readPiece ⟨"button onclick=\"return confirm('Delete ".toList ++
      (escape name ++ "?')\"".toList), text⟩ (row, rows) =
      (⟨row.cells, row.sends, ((attributeValue "onclick".toList
        ("button onclick=\"return confirm('Delete ".toList ++
          (escape name ++ "?')\"".toList))).map unescape).bind question⟩, rows) := rfl
  rw [readRuns_cons h, hpiece, attributeValue_button hquot, Option.map_some, unescape_script,
    Option.bind_some, question_script]

end Tags

section Rows

variable {name next : List Char} {rows : List Row} (h : Reads next rows)

include h

theorem reads_dir : Reads (listingRow ⟨name, none⟩ ++ next) (Entry.row ⟨name, none⟩ :: rows) := by
  have hrow : listingRow ⟨name, none⟩ = "<tr><td>".toList ++ (htmlEscape name ++
    ("</td>".toList ++ "<td>dir</td><td></td></tr>".toList)) := rfl
  have hscan : scan .text (listingRow ⟨name, none⟩ ++ next) =
      ([], "tr".toList :: [] :: "td".toList :: (escape name ++ []) :: "/td".toList :: [] ::
        "td".toList :: "dir".toList :: "/td".toList :: [] :: "td".toList :: [] :: "/td".toList ::
        [] :: "/tr".toList :: (scan .text next).1 :: (scan .text next).2) := by
    rw [hrow, htmlEscape_eq, List.append_assoc, List.append_assoc, List.append_assoc,
      scan_rowStart, scan_escape (.inl rfl), scan_cellEnd, scan_dirCells]
  rw [Reads, hscan]
  refine ⟨rfl, (readRuns_row <| readRuns_cell <| readRuns_other (by decide) <| readRuns_cell <|
    readRuns_other (by decide) <| readRuns_cell <| readRuns_other (by decide) <|
    readRuns_other (by decide) h.2).trans ?_⟩
  rw [List.append_nil, unescape_escape]
  rfl

variable {bytes : ℕ}

theorem reads_protected (hmarker : encode name = markerName) :
    Reads (listingRow ⟨name, some bytes⟩ ++ next) (Entry.row ⟨name, some bytes⟩ :: rows) := by
  have hrow : listingRow ⟨name, some bytes⟩ = "<tr><td>".toList ++ (htmlEscape name ++
      ("</td>".toList ++ if encode name = markerName then protectedCells bytes
        else deleteCells bytes (htmlEscape name))) := rfl
  have hscan : scan .text (listingRow ⟨name, some bytes⟩ ++ next) =
      ([], "tr".toList :: [] :: "td".toList :: (escape name ++ []) :: "/td".toList :: [] ::
        "td".toList :: (decimal bytes ++ []) :: "/td".toList :: [] :: "td".toList ::
        "protected".toList :: "/td".toList :: [] :: "/tr".toList :: (scan .text next).1 ::
        (scan .text next).2) := by
    rw [hrow, if_pos hmarker, protectedCells, htmlEscape_eq, List.append_assoc,
      List.append_assoc, List.append_assoc, List.append_assoc, List.append_assoc, scan_rowStart,
      scan_escape (.inl rfl), scan_cellEnd, scan_cellStart, scan_decimal, scan_protectedCell]
  have hentry : Entry.row ⟨name, some bytes⟩ =
      ⟨[name, decimal bytes, "protected".toList], none, none⟩ := if_pos hmarker
  rw [Reads, hscan]
  refine ⟨rfl, (readRuns_row <| readRuns_cell <| readRuns_other (by decide) <| readRuns_cell <|
    readRuns_other (by decide) <| readRuns_cell <| readRuns_other (by decide) <|
    readRuns_other (by decide) h.2).trans ?_⟩
  rw [List.append_nil, List.append_nil, unescape_escape, unescape_decimal, hentry]
  rfl

theorem reads_delete (hmarker : encode name ≠ markerName) :
    Reads (listingRow ⟨name, some bytes⟩ ++ next) (Entry.row ⟨name, some bytes⟩ :: rows) := by
  have hrow : listingRow ⟨name, some bytes⟩ = "<tr><td>".toList ++ (htmlEscape name ++
      ("</td>".toList ++ if encode name = markerName then protectedCells bytes
        else deleteCells bytes (htmlEscape name))) := rfl
  have hscan : scan .text (listingRow ⟨name, some bytes⟩ ++ next) =
      ([], "tr".toList :: [] :: "td".toList :: (escape name ++ []) :: "/td".toList :: [] ::
        "td".toList :: (decimal bytes ++ []) :: "/td".toList :: [] :: "td".toList :: [] ::
        ("form method=post action=/files/delete ".toList ++ "style=\"display:inline\"".toList) ::
        [] :: ("input type=hidden name=name value=\"".toList ++ (escape name ++ "\"".toList)) ::
        [] :: ("button onclick=\"return confirm('Delete ".toList ++
          (escape name ++ "?')\"".toList)) :: "delete".toList :: "/button".toList :: [] ::
        "/form".toList :: [] :: "/td".toList :: [] :: "/tr".toList :: (scan .text next).1 ::
        (scan .text next).2) := by
    rw [hrow, if_neg hmarker, deleteCells, htmlEscape_eq]
    repeat rw [List.append_assoc]
    rw [scan_rowStart, scan_escape (.inl rfl), scan_cellEnd, scan_cellStart,
      scan_decimal, scan_form, scan_input, scan_escape (.inr rfl), scan_button,
      scan_escape (.inr rfl), scan_rowEnd]
  have hentry : Entry.row ⟨name, some bytes⟩ = ⟨[name, decimal bytes, []], some name,
      if name.all plainChar then some ("Delete ".toList ++ (name ++ "?".toList)) else none⟩ :=
    if_neg hmarker
  rw [Reads, hscan]
  refine ⟨rfl, (readRuns_row <| readRuns_cell <| readRuns_other (by decide) <| readRuns_cell <|
    readRuns_other (by decide) <| readRuns_cell <| readRuns_other (by decide) <|
    readRuns_input name <| readRuns_button name <| readRuns_other (by decide) <|
    readRuns_other (by decide) <| readRuns_other (by decide) <|
    readRuns_other (by decide) h.2).trans ?_⟩
  rw [List.append_nil, List.append_nil, unescape_escape, unescape_decimal, hentry]
  rfl

end Rows

/-- **A row is read** as that of its entry, whatever the name is. -/
theorem reads_row (entry : Entry) {next : List Char} {rows : List Row} (h : Reads next rows) :
    Reads (listingRow entry ++ next) (entry.row :: rows) := by
  obtain ⟨name, size⟩ := entry
  cases size with
  | none => exact reads_dir h
  | some bytes =>
    by_cases hmarker : encode name = markerName
    · exact reads_protected h hmarker
    · exact reads_delete h hmarker

theorem reads_rows (entries : List Entry) {next : List Char} (h : Reads next []) :
    Reads (entries.flatMap listingRow ++ next) (entries.map Entry.row) := by
  induction entries with
  | nil => exact h
  | cons entry entries ih =>
    rw [List.flatMap_cons, List.append_assoc, List.map_cons]
    exact reads_row entry ih

/-- What stands behind the rows is none. -/
theorem reads_foot (n : ℕ) : Reads (listingFoot n) [] := by
  have hfoot : listingFoot n = "</table><p>".toList ++ (decimal n ++
    (" entries. Logs: <a href=/log>/log</a> ".toList ++
      "<a href=/log/1>/log/1</a></p>".toList)) := rfl
  have hscan : scan .text (listingFoot n) =
      ([], "/table".toList :: [] :: "p".toList :: (decimal n ++ " entries. Logs: ".toList) ::
        "a href=/log".toList :: "/log".toList :: "/a".toList :: [' '] ::
        "a href=/log/1".toList :: "/log/1".toList :: "/a".toList :: [] :: "/p".toList :: [] ::
        []) := by
    rw [hfoot, scan_tableEnd, scan_decimal, scan_log, scan_rotated]
  rw [Reads, hscan]
  refine ⟨rfl, ?_⟩
  iterate 7 refine readRuns_other (by decide) ?_
  rfl

/-- What stands before the rows is none. -/
theorem reads_head {page : List Char} {rows : List Row} (h : Reads page rows) :
    Reads (listingHead ++ page) rows := by
  have hhead : listingHead =
    "<!doctype html><title>SD card</title><style>body\x7bfont:14px monospace\x7d".toList ++
      "td\x7bpadding:2px 10px\x7d</style><h2>/sdcard</h2><table>".toList := rfl
  have hscan : scan .text (listingHead ++ page) =
      ([], "!doctype html".toList :: [] :: "title".toList :: "SD card".toList ::
        "/title".toList :: [] :: "style".toList ::
        ("body\x7bfont:14px monospace\x7d".toList ++ "td\x7bpadding:2px 10px\x7d".toList) ::
        "/style".toList :: [] :: "h2".toList :: "/sdcard".toList :: "/h2".toList :: [] ::
        "table".toList :: (scan .text page).1 :: (scan .text page).2) := by
    rw [hhead, List.append_assoc, scan_doctype, scan_table]
  rw [Reads, hscan]
  refine ⟨rfl, ?_⟩
  iterate 8 refine readRuns_other (by decide) ?_
  exact h.2

/-- The page of a listing, from its head to its foot. -/
theorem reads_page (entries : List Entry) :
    Reads (listingPage entries) (entries.map Entry.row) :=
  reads_head (reads_rows entries (reads_foot entries.length))

/-- **The page says what it is meant to say.**  Whatever the names of the entries are, a browser
reads from the page one row for each of them, in their order: its name, its size or what else it is,
and for a file that is not the ready marker a form that sends exactly that name.  There are no other
rows, cells and forms.  The question before the form is sent is the one that is meant where the name
has no apostrophe, backslash or line break. -/
theorem rowsOf_listingPage (entries : List Entry) :
    rowsOf (listingPage entries) = entries.map Entry.row := by
  rw [rowsOf, (reads_page entries).2]

end GpsNtp.Sdlog
