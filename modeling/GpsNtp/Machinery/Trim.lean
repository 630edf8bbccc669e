import GpsNtp.Machinery.Utf8
import Mathlib.Data.List.DropRight

/-!
# Machinery/Trim — white space at the ends of a string

    ␣␣ $GNRMC,… ␣␍          trim keeps what stands between

`str::trim` and its relatives, on characters and on the bytes that encode them.  Trimming keeps a
contiguous piece (`isInfix_trim`), and white space before or behind a text makes no difference
(`trim_append_left`, `trim_append_right`).
-/

namespace Utf8

/-- `char::is_whitespace`: the Unicode property White_Space. -/
def isWhitespace (c : Char) : Bool :=
  let n := c.toNat
  decide (0x09 ≤ n ∧ n ≤ 0x0D ∨ n = 0x20 ∨ n = 0x85 ∨ n = 0xA0 ∨ n = 0x1680 ∨
    0x2000 ≤ n ∧ n ≤ 0x200A ∨ n = 0x2028 ∨ n = 0x2029 ∨ n = 0x202F ∨ n = 0x205F ∨ n = 0x3000)

/-- `str::trim_start`. -/
def trimStart (cs : List Char) : List Char := cs.dropWhile isWhitespace

/-- `str::trim_end_matches`. -/
def trimEndMatches (p : Char → Bool) (cs : List Char) : List Char := cs.rdropWhile p

/-- `str::trim`. -/
def trim (cs : List Char) : List Char := trimEndMatches isWhitespace (trimStart cs)

theorem trimStart_suffix (cs : List Char) : trimStart cs <:+ cs := List.dropWhile_suffix _

theorem isInfix_trim (cs : List Char) : trim cs <:+: cs :=
  (List.rdropWhile_prefix _ _).isInfix.trans (trimStart_suffix cs).isInfix

theorem trimStart_append_left {ws : List Char} (h : ∀ c ∈ ws, isWhitespace c = true)
    (cs : List Char) : trimStart (ws ++ cs) = trimStart cs := List.dropWhile_append_of_pos h

theorem trimStart_eq_nil_iff {cs : List Char} :
    trimStart cs = [] ↔ ∀ c ∈ cs, isWhitespace c = true := List.dropWhile_eq_nil_iff

theorem trimStart_append {cs : List Char} (h : trimStart cs ≠ []) (ds : List Char) :
    trimStart (cs ++ ds) = trimStart cs ++ ds := by
  rw [trimStart, List.dropWhile_append]
  exact if_neg fun hempty => h (List.isEmpty_iff.mp hempty)

/-- White space before a text makes no difference. -/
theorem trim_append_left {ws : List Char} (h : ∀ c ∈ ws, isWhitespace c = true) (cs : List Char) :
    trim (ws ++ cs) = trim cs := by
  rw [trim, trimStart_append_left h, trim]

/-- White space behind a text makes no difference. -/
theorem trim_append_right {ws : List Char} (h : ∀ c ∈ ws, isWhitespace c = true)
    (cs : List Char) : trim (cs ++ ws) = trim cs := by
  by_cases hcs : trimStart cs = []
  · have hall : ∀ c ∈ cs ++ ws, isWhitespace c = true := fun c hc =>
      (List.mem_append.mp hc).elim (trimStart_eq_nil_iff.mp hcs c) (h c)
    rw [trim, trim, hcs, trimStart_eq_nil_iff.mpr hall]
  · have hws : (ws.reverse).dropWhile isWhitespace = [] :=
      List.dropWhile_eq_nil_iff.mpr fun c hc => h c (List.mem_reverse.mp hc)
    rw [trim, trim, trimStart_append hcs, trimEndMatches, trimEndMatches, List.rdropWhile,
      List.rdropWhile, List.reverse_append, List.dropWhile_append_of_pos]
    exact fun c hc => h c (List.mem_reverse.mp hc)

/-- Trimming white space after other characters that are white space is trimming. -/
theorem trim_trimEndMatches {p : Char → Bool} (hp : ∀ c, p c = true → isWhitespace c = true)
    (cs : List Char) : trim (trimEndMatches p cs) = trim cs := by
  have hws : ∀ c ∈ cs.rtakeWhile p, isWhitespace c = true := fun c hc =>
    hp c (List.mem_rtakeWhile_imp hc)
  calc trim (trimEndMatches p cs)
      = trim (cs.rdropWhile p ++ cs.rtakeWhile p) := (trim_append_right hws _).symm
    _ = trim cs := by rw [List.rdropWhile_append_rtakeWhile]

/-- Nothing is trimmed between the first character that is not white space and the last. -/
theorem trim_append_singleton {cs : List Char} (h : trimStart cs ≠ []) (ds : List Char) {c : Char}
    (hc : isWhitespace c = false) : trim (cs ++ (ds ++ [c])) = trimStart cs ++ (ds ++ [c]) := by
  rw [trim, trimStart_append h, ← List.append_assoc, trimEndMatches]
  exact List.rdropWhile_concat_neg _ _ _ (by rw [hc]; exact Bool.false_ne_true)

end Utf8
