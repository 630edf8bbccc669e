import GpsNtp.Machinery.Search

/-!
# Machinery/Markup — text and tags

    a &lt; b <td class="x > y"> c       scan ──▸  a &lt; b │ td class="x > y" │  c
                                        unescape ──▸ a < b

A page as one reads it: text, and tags between `<` and `>`, in which a `>` between double quotes
does not count.  Text and quoted values spell the four characters that would end them as references,
which are read in one pass.  What has been escaped is read back whatever it is, and ends neither
the text nor the quotes that it stands in.
-/

namespace Markup

open Search Split

/-! ## References -/

/-- The references a text is escaped with. -/
def reference : Char → Option (List Char)
  | '&' => some "&amp;".toList
  | '<' => some "&lt;".toList
  | '>' => some "&gt;".toList
  | '"' => some "&quot;".toList
  | _ => none

/-- A text with references for what cannot stand in it. -/
def escape (text : List Char) : List Char := text.flatMap fun c => (reference c).getD [c]

/-- A text, its references read. -/
def unescape : List Char → List Char
  | '&' :: 'a' :: 'm' :: 'p' :: ';' :: cs => '&' :: unescape cs
  | '&' :: 'l' :: 't' :: ';' :: cs => '<' :: unescape cs
  | '&' :: 'g' :: 't' :: ';' :: cs => '>' :: unescape cs
  | '&' :: 'q' :: 'u' :: 'o' :: 't' :: ';' :: cs => '"' :: unescape cs
  | c :: cs => c :: unescape cs
  | [] => []

theorem escape_cons (c : Char) (text : List Char) :
    escape (c :: text) = (reference c).getD [c] ++ escape text := List.flatMap_cons

theorem escape_append (s t : List Char) : escape (s ++ t) = escape s ++ escape t :=
  List.flatMap_append

/-- A character has a reference, or stands for itself. -/
theorem reference_cases (c : Char) :
    (c = '&' ∨ c = '<' ∨ c = '>' ∨ c = '"') ∨
      reference c = none ∧ c ≠ '&' ∧ c ≠ '<' ∧ c ≠ '>' ∧ c ≠ '"' := by
  unfold reference
  split
  · exact .inl (.inl rfl)
  · exact .inl (.inr (.inl rfl))
  · exact .inl (.inr (.inr (.inl rfl)))
  · exact .inl (.inr (.inr (.inr rfl)))
  · rename_i hamp hlt hgt hquot
    exact .inr ⟨rfl, hamp, hlt, hgt, hquot⟩

/-- A text without such characters is its own escape. -/
theorem escape_eq_self {text : List Char}
    (h : ∀ c ∈ text, c ≠ '&' ∧ c ≠ '<' ∧ c ≠ '>' ∧ c ≠ '"') : escape text = text := by
  induction text with
  | nil => rfl
  | cons c text ih =>
    obtain ⟨⟨hamp, hlt, hgt, hquot⟩, htext⟩ := List.forall_mem_cons.mp h
    rcases reference_cases c with (heq | heq | heq | heq) | ⟨hnone, -⟩
    · exact absurd heq hamp
    · exact absurd heq hlt
    · exact absurd heq hgt
    · exact absurd heq hquot
    · rw [escape_cons, hnone, ih htext]
      rfl

/-- What is no reference stands for itself. -/
theorem unescape_cons {c : Char} (hc : c ≠ '&') (cs : List Char) :
    unescape (c :: cs) = c :: unescape cs := by
  rw [unescape.eq_def]
  split <;> simp_all

/-- **What has been escaped is read back.** -/
theorem unescape_escape (text : List Char) : unescape (escape text) = text := by
  induction text with
  | nil => rfl
  | cons c text ih =>
    rw [escape_cons]
    rcases reference_cases c with (rfl | rfl | rfl | rfl) | ⟨hnone, hamp, -⟩
    · exact congrArg _ ih
    · exact congrArg _ ih
    · exact congrArg _ ih
    · exact congrArg _ ih
    · rw [hnone, Option.getD_none, List.singleton_append, unescape_cons hamp, ih]

/-- **What has been escaped ends nothing**: none of the characters is left that could. -/
theorem notMem_escape {c : Char} (hc : c = '<' ∨ c = '>' ∨ c = '"') (text : List Char) :
    c ∉ escape text := by
  intro hmem
  obtain ⟨d, -, hd⟩ := List.mem_flatMap.mp hmem
  rcases reference_cases d with (rfl | rfl | rfl | rfl) | ⟨hnone, -, hlt, hgt, hquot⟩
  · rcases hc with rfl | rfl | rfl <;> revert hd <;> decide
  · rcases hc with rfl | rfl | rfl <;> revert hd <;> decide
  · rcases hc with rfl | rfl | rfl <;> revert hd <;> decide
  · rcases hc with rfl | rfl | rfl <;> revert hd <;> decide
  · rw [hnone, Option.getD_none, List.mem_singleton] at hd
    rcases hc with rfl | rfl | rfl
    · exact hlt hd.symm
    · exact hgt hd.symm
    · exact hquot hd.symm

/-! ## Tags -/

/-- Where a reader of the page is. -/
inductive Mode
  | text | tag | quoted
deriving DecidableEq

/-- Where a character takes the reader, or `none` where it ends the run that he reads. -/
def Mode.next : Mode → Char → Option Mode
  | .text, '<' => none
  | .text, _ => some .text
  | .tag, '>' => none
  | .tag, '"' => some .quoted
  | .tag, _ => some .tag
  | .quoted, '"' => some .tag
  | .quoted, _ => some .quoted

/-- The run after this one: a tag after a text, a text after a tag. -/
def Mode.other : Mode → Mode
  | .text => .tag
  | .tag | .quoted => .text

/-- The page in runs of text and tag: the rest of the one that is read, and those behind it. -/
def scan : Mode → List Char → List Char × List (List Char)
  | _, [] => ([], [])
  | mode, c :: cs =>
    match mode.next c with
    | some mode => let (run, runs) := scan mode cs; (c :: run, runs)
    | none => let (run, runs) := scan mode.other cs; ([], run :: runs)

/-- A run goes on as long as no character leaves the mode. -/
theorem scan_run {mode : Mode} {run : List Char} (h : ∀ c ∈ run, mode.next c = some mode)
    (cs : List Char) : scan mode (run ++ cs) = (run ++ (scan mode cs).1, (scan mode cs).2) := by
  induction run with
  | nil => rfl
  | cons c run ih =>
    obtain ⟨hc, hrun⟩ := List.forall_mem_cons.mp h
    rw [List.cons_append, scan, hc]
    dsimp only
    rw [ih hrun]
    rfl

/-- **An escaped text is read to its end**, and so is an escaped value between its quotes. -/
theorem scan_escape {mode : Mode} (hmode : mode = .text ∨ mode = .quoted) (text cs : List Char) :
    scan mode (escape text ++ cs) = (escape text ++ (scan mode cs).1, (scan mode cs).2) := by
  refine scan_run (fun c hc => ?_) cs
  have hlt : c ≠ '<' := fun h => notMem_escape (.inl rfl) text (h ▸ hc)
  have hquot : c ≠ '"' := fun h => notMem_escape (.inr (.inr rfl)) text (h ▸ hc)
  rcases hmode with rfl | rfl <;> unfold Mode.next <;> split <;> simp_all

/-- A tag, and the text up to the next one. -/
structure Piece where
  tag : List Char
  text : List Char
deriving DecidableEq

/-- The runs behind the first text, two by two. -/
def pairUp : List (List Char) → List Piece
  | tag :: text :: runs => ⟨tag, text⟩ :: pairUp runs
  | _ => []

/-- The value of an attribute of a tag. -/
def attributeValue (name : List Char) (tag : List Char) : Option (List Char) :=
  (cut (' ' :: name ++ "=\"".toList) tag).bind fun p => (splitOnce '"' p.2).map (·.1)

end Markup
