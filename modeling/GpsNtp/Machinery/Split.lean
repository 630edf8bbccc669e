import Mathlib.Data.List.Basic

/-!
# Machinery/Split — a text cut at its first separator

    key = value = rest        splitOnce '='  ──▶  (key, value = rest)

`str::split_once` for a separator of one element.
-/

namespace Split

variable {α : Type*} [DecidableEq α]

/-- `str::split_once`. -/
def splitOnce (sep : α) : List α → Option (List α × List α)
  | [] => none
  | x :: xs => if x = sep then some ([], xs) else (splitOnce sep xs).map fun p => (x :: p.1, p.2)

/-- **The cut is at the first separator.** -/
theorem splitOnce_eq_some_iff {sep : α} {xs before after : List α} :
    splitOnce sep xs = some (before, after) ↔ xs = before ++ sep :: after ∧ sep ∉ before := by
  induction xs generalizing before with
  | nil =>
    have hcons : sep :: after ≠ [] := List.cons_ne_nil sep after
    exact iff_of_false nofun fun h => List.append_ne_nil_of_right_ne_nil before hcons h.1.symm
  | cons x xs ih =>
    rw [splitOnce]
    split_ifs with hx
    · subst hx
      rw [Option.some.injEq, Prod.mk.injEq]
      constructor
      · rintro ⟨rfl, rfl⟩
        exact ⟨rfl, List.not_mem_nil⟩
      · rintro ⟨heq, hmem⟩
        cases before with
        | nil => exact ⟨rfl, (List.cons.inj heq).2⟩
        | cons y before => exact absurd ((List.cons.inj heq).1 ▸ List.mem_cons_self) hmem
    · rw [Option.map_eq_some_iff]
      constructor
      · rintro ⟨⟨before', after'⟩, hsplit, heq⟩
        obtain ⟨rfl, rfl⟩ := Prod.mk.inj heq
        obtain ⟨rfl, hmem⟩ := ih.mp hsplit
        exact ⟨rfl, fun h => (List.mem_cons.mp h).elim (fun hsep => hx hsep.symm) hmem⟩
      · rintro ⟨heq, hmem⟩
        cases before with
        | nil => exact absurd (List.cons.inj heq).1 hx
        | cons y before =>
          obtain ⟨rfl, rfl⟩ := List.cons.inj heq
          have hrest : sep ∉ before := fun h => hmem (List.mem_cons_of_mem _ h)
          exact ⟨(before, after), ih.mpr ⟨rfl, hrest⟩, rfl⟩

theorem splitOnce_eq_none_iff {sep : α} {xs : List α} : splitOnce sep xs = none ↔ sep ∉ xs := by
  constructor
  · intro h hmem
    obtain ⟨before, after, hxs, hbefore⟩ := List.eq_append_cons_of_mem hmem
    exact Option.some_ne_none _ ((splitOnce_eq_some_iff.mpr ⟨hxs, hbefore⟩).symm.trans h)
  · intro h
    refine Option.eq_none_iff_forall_ne_some.mpr fun ⟨before, after⟩ hsplit => h ?_
    rw [(splitOnce_eq_some_iff.mp hsplit).1]
    exact List.mem_append_right _ List.mem_cons_self

/-- **There is one first separator** in a text. -/
theorem first_unique {sep : α} {before after before' after' : List α} (h : sep ∉ before)
    (h' : sep ∉ before') (heq : before ++ sep :: after = before' ++ sep :: after') :
    before = before' ∧ after = after' := by
  have hcut : splitOnce sep (before ++ sep :: after) = some (before, after) :=
    splitOnce_eq_some_iff.mpr ⟨rfl, h⟩
  have hcut' := splitOnce_eq_some_iff.mpr ⟨heq, h'⟩
  rw [hcut] at hcut'
  exact Prod.mk.inj (Option.some.inj hcut')

/-- Read backwards, the last separator is the first. -/
theorem reverse_cut {β : Type*} (before after : List β) (sep : β) :
    (before ++ sep :: after).reverse = after.reverse ++ sep :: before.reverse := by
  rw [List.reverse_append, List.reverse_cons, List.append_assoc, List.singleton_append]

/-- **There is one last separator** in a text. -/
theorem last_unique {sep : α} {before after before' after' : List α} (h : sep ∉ after)
    (h' : sep ∉ after') (heq : before ++ sep :: after = before' ++ sep :: after') :
    before = before' ∧ after = after' := by
  have hcut := splitOnce_eq_some_iff.mpr ⟨reverse_cut before after sep, mt List.mem_reverse.mp h⟩
  have hcut' :=
    splitOnce_eq_some_iff.mpr ⟨reverse_cut before' after' sep, mt List.mem_reverse.mp h'⟩
  rw [heq, hcut'] at hcut
  obtain ⟨hafter, hbefore⟩ := Prod.mk.inj (Option.some.inj hcut)
  exact ⟨(List.reverse_injective hbefore).symm, (List.reverse_injective hafter).symm⟩

/-- A list with these four elements and no fifth. -/
theorem eq_four_of_getElem? {β : Type*} {xs : List β} {a b c d : β} (ha : xs[0]? = some a)
    (hb : xs[1]? = some b) (hc : xs[2]? = some c) (hd : xs[3]? = some d) (hend : xs[4]? = none) :
    xs = [a, b, c, d] := by
  refine List.ext_getElem? fun i => ?_
  match i with
  | 0 => exact ha
  | 1 => exact hb
  | 2 => exact hc
  | 3 => exact hd
  | i + 4 =>
    have hlength : xs.length ≤ 4 := List.getElem?_eq_none_iff.mp hend
    rw [List.getElem?_eq_none (by omega)]
    rfl

end Split
