import Mathlib.Data.List.Pairwise

/-!
# Machinery/Volume — entries found by a name up to spelling

    find "A.LOG"  ─fold▸  a.log  ◂fold─  "a.log" ─▸ entry

A table whose names are compared after a **fold**, such as a directory of a volume that ignores the
case of letters.  No two entries fold to one name, so that a name denotes at most one entry, under
each of its spellings.
-/

/-- A table of entries by name, no two of whose names are spellings of one. -/
structure Volume {κ ρ : Type*} (fold : κ → ρ) (ν : Type*) where
  entries : List (κ × ν)
  distinct : entries.Pairwise fun e e' => fold e.1 ≠ fold e'.1

namespace Volume

variable {κ ρ ν : Type*} [DecidableEq ρ] {fold : κ → ρ}

/-- The entry that a name denotes. -/
def find (v : Volume fold ν) (name : κ) : Option (κ × ν) :=
  v.entries.find? fun e => fold e.1 = fold name

/-- The table without the entry that a name denotes. -/
def remove (v : Volume fold ν) (name : κ) : Volume fold ν where
  entries := v.entries.filter fun e => fold e.1 ≠ fold name
  distinct := v.distinct.filter _

/-- **A name denotes an entry** exactly when it is a spelling of the entry's name. -/
theorem find_eq_some_iff {v : Volume fold ν} {name : κ} {e : κ × ν} :
    v.find name = some e ↔ e ∈ v.entries ∧ fold e.1 = fold name := by
  obtain ⟨entries, distinct⟩ := v
  change entries.find? _ = _ ↔ e ∈ entries ∧ _
  induction entries with
  | nil => exact iff_of_false nofun fun h => List.not_mem_nil h.1
  | cons e' entries ih =>
    obtain ⟨hhead, htail⟩ := List.pairwise_cons.mp distinct
    rw [List.find?_cons]
    split
    · rename_i hfold
      have hfold : fold e'.1 = fold name := of_decide_eq_true hfold
      rw [Option.some.injEq]
      refine ⟨fun h => h ▸ ⟨List.mem_cons_self, hfold⟩, fun ⟨hmem, he⟩ => ?_⟩
      rcases List.mem_cons.mp hmem with rfl | hmem
      · rfl
      · exact absurd (hfold.trans he.symm) (hhead e hmem)
    · rename_i hfold
      have hfold : fold e'.1 ≠ fold name := of_decide_eq_false hfold
      rw [ih htail, List.mem_cons]
      refine ⟨fun h => ⟨.inr h.1, h.2⟩, fun ⟨hmem, he⟩ => ⟨hmem.resolve_left ?_, he⟩⟩
      rintro rfl
      exact hfold he

theorem mem_remove {v : Volume fold ν} {name : κ} {e : κ × ν} :
    e ∈ (v.remove name).entries ↔ e ∈ v.entries ∧ fold e.1 ≠ fold name := by
  rw [remove, List.mem_filter, decide_eq_true_eq]

/-- **What a removal takes** is the entry that the name denotes. -/
theorem removed_iff {v : Volume fold ν} {name : κ} {e : κ × ν} :
    e ∈ v.entries ∧ e ∉ (v.remove name).entries ↔ v.find name = some e := by
  rw [mem_remove, find_eq_some_iff, not_and, not_not]
  exact and_congr_right fun hmem => ⟨fun h => h hmem, fun h _ => h⟩

/-- **A removal takes one entry** and leaves the others in their order. -/
theorem perm_remove {v : Volume fold ν} {name : κ} {e : κ × ν} (h : v.find name = some e) :
    v.entries.Perm (e :: (v.remove name).entries) := by
  obtain ⟨hmem, hfold⟩ := find_eq_some_iff.mp h
  obtain ⟨entries, distinct⟩ := v
  change entries.Perm (e :: entries.filter _)
  change e ∈ entries at hmem
  clear h
  induction entries with
  | nil => exact absurd hmem List.not_mem_nil
  | cons e' entries ih =>
    obtain ⟨hhead, htail⟩ := List.pairwise_cons.mp distinct
    rcases List.mem_cons.mp hmem with rfl | hmem
    · have hothers : ∀ e' ∈ entries, decide (fold e'.1 ≠ fold name) = true := fun e' he' =>
        decide_eq_true fun heq => hhead e' he' (hfold.trans heq.symm)
      rw [List.filter_cons_of_neg (by simp [hfold]), List.filter_eq_self.mpr hothers]
    · have hother : decide (fold e'.1 ≠ fold name) = true :=
        decide_eq_true (hfold ▸ hhead e hmem)
      rw [List.filter_cons, if_pos hother]
      exact ((ih htail hmem).cons e').trans (List.Perm.swap e e' _)

/-- Two spellings of a name denote one entry. -/
theorem find_congr (v : Volume fold ν) {name name' : κ} (h : fold name = fold name') :
    v.find name = v.find name' := by
  rw [find, find, h]

theorem remove_congr (v : Volume fold ν) {name name' : κ} (h : fold name = fold name') :
    v.remove name = v.remove name' := by
  rw [remove, remove, Volume.mk.injEq, h]

end Volume
