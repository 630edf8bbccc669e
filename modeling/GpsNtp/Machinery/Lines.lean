import Mathlib.Data.List.Basic

/-!
# Machinery/Lines — a stream cut at a separator

    l₁ ␊ l₂ ␊ ⋯ lₙ ␊ u          complete: l₁, …, lₙ        unfinished: u

A stream is its complete lines and an unfinished one.  More of the stream goes to the unfinished
line and to nothing else (`complete_append`, `unfinished_append`), so that a reader which keeps the
unfinished line gets the same lines however the stream is cut into pieces.
-/

namespace Lines

variable {α : Type*} [BEq α] [LawfulBEq α] (sep : α)

/-- The lines of a stream that have ended. -/
def complete (s : List α) : List (List α) := (s.splitOn sep).dropLast

/-- What follows the last separator. -/
def unfinished (s : List α) : List α := (s.splitOn sep).getLastD []

variable {sep}

@[simp] theorem complete_of_notMem {s : List α} (h : sep ∉ s) : complete sep s = [] := by
  rw [complete, List.splitOn_eq_singleton h, List.dropLast_singleton]

@[simp] theorem unfinished_of_notMem {s : List α} (h : sep ∉ s) : unfinished sep s = s := by
  rw [unfinished, List.splitOn_eq_singleton h]
  rfl

theorem complete_cons {l : List α} (h : sep ∉ l) (t : List α) :
    complete sep (l ++ sep :: t) = l :: complete sep t := by
  rw [complete, List.splitOn_append_cons_self_of_not_mem h,
    List.dropLast_cons_of_ne_nil (List.splitOn_ne_nil _ _), complete]

theorem unfinished_cons {l : List α} (h : sep ∉ l) (t : List α) :
    unfinished sep (l ++ sep :: t) = unfinished sep t := by
  obtain ⟨x, xs, hx⟩ := List.exists_cons_of_ne_nil (List.splitOn_ne_nil sep t)
  rw [unfinished, unfinished, List.splitOn_append_cons_self_of_not_mem h, hx]
  rfl

/-- **The line rule** — what holds of a stream without separator, and of one that begins with a
line if of the rest, holds of every stream. -/
theorem line_induction (sep : α) {P : List α → Prop} (base : ∀ s, sep ∉ s → P s)
    (line : ∀ l t, sep ∉ l → P t → P (l ++ sep :: t)) (s : List α) : P s := by
  by_cases h : sep ∈ s
  · obtain ⟨l, t, rfl, hl⟩ := List.eq_append_cons_of_mem h
    exact line l t hl (line_induction sep base line t)
  · exact base s h
  termination_by s.length
  decreasing_by
    subst_vars
    rw [List.length_append, List.length_cons]
    omega

/-- The unfinished line has no separator. -/
theorem notMem_unfinished (s : List α) : sep ∉ unfinished sep s := by
  induction s using line_induction sep with
  | base s h => rwa [unfinished_of_notMem h]
  | line l t hl ih => rwa [unfinished_cons hl]

/-- **More of a stream completes the unfinished line.** -/
theorem complete_append (s t : List α) :
    complete sep (s ++ t) = complete sep s ++ complete sep (unfinished sep s ++ t) := by
  induction s using line_induction sep with
  | base s h => rw [complete_of_notMem h, unfinished_of_notMem h, List.nil_append]
  | line l s hl ih =>
    rw [List.append_assoc, List.cons_append, complete_cons hl, complete_cons hl, unfinished_cons hl,
      ih, List.cons_append]

theorem unfinished_append (s t : List α) :
    unfinished sep (s ++ t) = unfinished sep (unfinished sep s ++ t) := by
  induction s using line_induction sep with
  | base s h => rw [unfinished_of_notMem h]
  | line l s hl ih =>
    rw [List.append_assoc, List.cons_append, unfinished_cons hl, unfinished_cons hl, ih]

/-! ## Where the pieces lie -/

theorem isInfix_of_mem_complete {s l : List α} (h : l ∈ complete sep s) : l <:+: s := by
  induction s using line_induction sep with
  | base s hs => exact absurd h (by rw [complete_of_notMem hs]; exact List.not_mem_nil)
  | line m t hm ih =>
    rw [complete_cons hm] at h
    rcases List.mem_cons.mp h with rfl | h
    · exact (List.prefix_append l _).isInfix
    · exact (ih h).trans ((List.suffix_cons sep t).trans (List.suffix_append m _)).isInfix

theorem unfinished_suffix (s : List α) : unfinished sep s <:+ s := by
  induction s using line_induction sep with
  | base s hs => exact (unfinished_of_notMem hs).symm ▸ List.suffix_rfl
  | line m t hm ih =>
    rw [unfinished_cons hm]
    exact ih.trans ((List.suffix_cons sep t).trans (List.suffix_append m _))

/-- A line of a stream that begins in the middle of one lies in the rest, or ends the begun one. -/
theorem mem_complete_append {p s l : List α} (hp : sep ∉ p) (h : l ∈ complete sep (p ++ s)) :
    l <:+: s ∨ ∃ l', l = p ++ l' ∧ l' <:+: s := by
  by_cases hs : sep ∈ s
  · obtain ⟨m, t, rfl, hm⟩ := List.eq_append_cons_of_mem hs
    have hpm : sep ∉ p ++ m := fun hmem => (List.mem_append.mp hmem).elim hp hm
    rw [← List.append_assoc, complete_cons hpm] at h
    rcases List.mem_cons.mp h with rfl | h
    · exact .inr ⟨m, rfl, (List.prefix_append m _).isInfix⟩
    · exact .inl ((isInfix_of_mem_complete h).trans
        ((List.suffix_cons sep t).trans (List.suffix_append m _)).isInfix)
  · have hps : sep ∉ p ++ s := fun hmem => (List.mem_append.mp hmem).elim hp hs
    rw [complete_of_notMem hps] at h
    exact absurd h List.not_mem_nil

/-- What such a stream leaves unfinished lies in the rest, or is all of it. -/
theorem unfinished_append_cases {p : List α} (hp : sep ∉ p) (s : List α) :
    unfinished sep (p ++ s) <:+ s ∨ unfinished sep (p ++ s) = p ++ s := by
  by_cases hs : sep ∈ s
  · obtain ⟨m, t, rfl, hm⟩ := List.eq_append_cons_of_mem hs
    have hpm : sep ∉ p ++ m := fun hmem => (List.mem_append.mp hmem).elim hp hm
    rw [← List.append_assoc, unfinished_cons hpm]
    exact .inl ((unfinished_suffix t).trans
      ((List.suffix_cons sep t).trans (List.suffix_append m _)))
  · exact .inr (unfinished_of_notMem fun hmem => (List.mem_append.mp hmem).elim hp hs)

end Lines
