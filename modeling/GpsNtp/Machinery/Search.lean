import GpsNtp.Machinery.Split
import GpsNtp.Machinery.Utf8

/-!
# Machinery/Search — a text searched for another, by byte indices

    ⋯ pre ⋯ │ needle │ ⋯ post ⋯        find ──▸ the bytes of pre,  slices there ──▸ pre, post

`str::find` gives a byte index, and a slice of a string at a byte index panics unless it is a
character boundary.  An index that was found, or stands behind what was found, always is one
(`sliceFrom_append`, `sliceTo_append`), so that slicing there is `cut`ting the characters.
-/

namespace Search

open Utf8

/-! ## The first occurrence -/

section Cut

variable {α : Type*} [DecidableEq α]

/-- What stands before and behind the first occurrence of `needle`. -/
def cut (needle : List α) : List α → Option (List α × List α)
  | [] => if needle = [] then some ([], []) else none
  | x :: xs =>
    if needle.isPrefixOf (x :: xs) = true then some ([], (x :: xs).drop needle.length)
    else (cut needle xs).map fun p => (x :: p.1, p.2)

/-- **What `cut` finds is an occurrence.** -/
theorem cut_eq_some {needle hay pre post : List α} (h : cut needle hay = some (pre, post)) :
    hay = pre ++ (needle ++ post) := by
  induction hay generalizing pre with
  | nil =>
    rw [cut] at h
    split_ifs at h with hneedle
    obtain ⟨rfl, rfl⟩ := Prod.mk.inj (Option.some.inj h)
    rw [hneedle]
    rfl
  | cons x xs ih =>
    rw [cut] at h
    split_ifs at h with hprefix
    · obtain ⟨rfl, rfl⟩ := Prod.mk.inj (Option.some.inj h)
      obtain ⟨rest, hrest⟩ := List.isPrefixOf_iff_prefix.mp hprefix
      rw [← hrest, List.drop_left, List.nil_append]
    · obtain ⟨⟨before, after⟩, hcut, heq⟩ := Option.map_eq_some_iff.mp h
      obtain ⟨rfl, rfl⟩ := Prod.mk.inj heq
      rw [ih hcut, List.cons_append]

/-- **It is the first one**, and there is one to find where there is any. -/
theorem exists_cut (needle pre post : List α) :
    ∃ before after, cut needle (pre ++ (needle ++ post)) = some (before, after) ∧
      before.length ≤ pre.length := by
  induction pre with
  | nil =>
    rw [List.nil_append]
    cases hhay : needle ++ post with
    | nil => exact ⟨[], [], if_pos (List.append_eq_nil_iff.mp hhay).1, le_rfl⟩
    | cons x xs =>
      have hprefix : needle.isPrefixOf (x :: xs) = true :=
        List.isPrefixOf_iff_prefix.mpr ⟨post, hhay⟩
      exact ⟨[], _, if_pos hprefix, le_rfl⟩
  | cons x pre ih =>
    obtain ⟨before, after, hcut, hle⟩ := ih
    rw [List.cons_append, cut, hcut]
    split_ifs
    · exact ⟨[], _, rfl, Nat.zero_le _⟩
    · exact ⟨x :: before, after, rfl, Nat.succ_le_succ hle⟩

end Cut

/-! ## Two texts in a row -/

/-- An element of two texts in a row is one of the first or one of the second. -/
theorem append_cut {β : Type*} {xs ys a b : List β} {c : β} (h : xs ++ ys = a ++ c :: b) :
    (∃ b', xs = a ++ c :: b') ∨ ∃ a', a = xs ++ a' ∧ ys = a' ++ c :: b := by
  rcases List.append_eq_append_iff.mp h with ⟨a', ha, hys⟩ | ⟨b', hxs, hb⟩
  · exact .inr ⟨a', ha, hys⟩
  · cases b' with
    | nil => exact .inr ⟨[], by rw [hxs, List.append_nil, List.append_nil], hb.symm⟩
    | cons c' b' =>
      obtain ⟨rfl, -⟩ := List.cons.inj hb
      exact .inl ⟨b', hxs⟩

/-- It is one of the second where the first has no such element. -/
theorem append_cut_right {β : Type*} {xs ys a b : List β} {c : β} (hxs : c ∉ xs)
    (h : xs ++ ys = a ++ c :: b) : ∃ a', a = xs ++ a' ∧ ys = a' ++ c :: b := by
  refine (append_cut h).resolve_left ?_
  rintro ⟨b', rfl⟩
  exact hxs (List.mem_append_right a List.mem_cons_self)

/-! ## Byte indices -/

/-- `str::find` with a string. -/
def find (needle hay : List Char) : Option ℕ :=
  (cut needle hay).map fun p => (encode p.1).length

/-- `str::find` with a character. -/
def findChar (c : Char) (hay : List Char) : Option ℕ :=
  (Split.splitOnce c hay).map fun p => (encode p.1).length

/-- `&s[i..]`, `none` where it would panic. -/
def sliceFrom (cs : List Char) (i : ℕ) : Option (List Char) :=
  (slice (encode cs) i (encode cs).length).bind fromUtf8

/-- `&s[..i]`, `none` where it would panic. -/
def sliceTo (cs : List Char) (i : ℕ) : Option (List Char) :=
  (slice (encode cs) 0 i).bind fromUtf8

/-- Two texts in a row meet at a boundary. -/
theorem isCharBoundary_length (cs ds : List Char) :
    isCharBoundary (encode (cs ++ ds)) (encode cs).length = true := by
  rw [encode_append]
  exact isCharBoundary_append (encode cs) (isCharBoundary_zero (encode ds))

theorem isCharBoundary_end (cs : List Char) :
    isCharBoundary (encode cs) (encode cs).length = true := by
  have hend := isCharBoundary_length cs []
  rwa [List.append_nil] at hend

/-- **A slice behind a text.** -/
theorem sliceFrom_append (cs ds : List Char) :
    sliceFrom (cs ++ ds) (encode cs).length = some ds := by
  have hle : (encode cs).length ≤ (encode (cs ++ ds)).length := by
    rw [encode_append, List.length_append]
    exact Nat.le_add_right _ _
  rw [sliceFrom, slice, if_pos ⟨hle, isCharBoundary_length cs ds, isCharBoundary_end _⟩,
    List.take_length, encode_append, List.drop_left]
  exact fromUtf8_eq_some_iff.mpr rfl

/-- **A slice up to a text.** -/
theorem sliceTo_append (cs ds : List Char) :
    sliceTo (cs ++ ds) (encode cs).length = some cs := by
  rw [sliceTo, slice, if_pos ⟨Nat.zero_le _, isCharBoundary_zero _, isCharBoundary_length cs ds⟩,
    encode_append, List.take_left, List.drop_zero]
  exact fromUtf8_eq_some_iff.mpr rfl

/-- A slice behind a character that takes one byte. -/
theorem sliceFrom_cons {c : Char} (hc : (String.utf8EncodeChar c).length = 1) (pre ds : List Char) :
    sliceFrom (pre ++ c :: ds) ((encode pre).length + 1) = some ds := by
  have hlength : (encode (pre ++ [c])).length = (encode pre).length + 1 := by
    rw [encode_append, List.length_append, encode_cons, List.length_append, hc]
    rfl
  have hslice := sliceFrom_append (pre ++ [c]) ds
  rwa [List.append_assoc, List.singleton_append, hlength] at hslice

end Search
