import Mathlib.Data.List.Pairwise
import Mathlib.Data.List.Perm.Basic

/-!
# Machinery/Sorted — orders that are built up, and sorting by them

    (name, size)  ─pairLe▸  name first ─listLe▸ letter by letter
                            size then  ─optionLe▸ none below all

The orders that a language derives for its lists, options and pairs from those of their parts, as
functions to `Bool`.  Each is total when those of the parts are, and a list sorted by a total order
is determined by what is in it.
-/

namespace Sorted

variable {α β : Type*}

/-- A total order as a test. -/
structure TotalLe (le : α → α → Bool) : Prop where
  trans : ∀ {a b c}, le a b → le b c → le a c
  total : ∀ a b, le a b ∨ le b a
  antisymm : ∀ {a b}, le a b → le b a → a = b

/-! ## The orders -/

/-- Numbers in their order. -/
def natLe (a b : ℕ) : Bool := a ≤ b

/-- Nothing comes before all else. -/
def optionLe (le : α → α → Bool) : Option α → Option α → Bool
  | none, _ => true
  | some _, none => false
  | some a, some b => le a b

/-- Pairs by their first part, and by the second where the first is the same. -/
def pairLe [DecidableEq α] (le : α → α → Bool) (le' : β → β → Bool) (p q : α × β) : Bool :=
  if p.1 = q.1 then le' p.2 q.2 else le p.1 q.1

/-- Lists by the first place in which they differ, the shorter one first. -/
def listLe [DecidableEq α] (le : α → α → Bool) : List α → List α → Bool
  | [], _ => true
  | _ :: _, [] => false
  | a :: as, b :: bs => if a = b then listLe le as bs else le a b

theorem totalLe_nat : TotalLe natLe where
  trans hab hbc := by
    simp only [natLe, decide_eq_true_eq] at hab hbc ⊢
    exact Nat.le_trans hab hbc
  total a b := by
    simp only [natLe, decide_eq_true_eq]
    exact Nat.le_total a b
  antisymm hab hba := by
    simp only [natLe, decide_eq_true_eq] at hab hba
    exact Nat.le_antisymm hab hba

namespace TotalLe

variable {le : α → α → Bool} {le' : β → β → Bool} (h : TotalLe le) (h' : TotalLe le')

include h

/-- An order is carried back along what tells apart. -/
theorem comap {f : β → α} (hf : Function.Injective f) : TotalLe fun a b => le (f a) (f b) where
  trans := h.trans
  total a b := h.total (f a) (f b)
  antisymm hab hba := hf (h.antisymm hab hba)

theorem option : TotalLe (optionLe le) where
  trans {a b c} hab hbc := by
    cases a <;> cases b <;> cases c <;> simp_all only [optionLe, reduceCtorEq]
    exact h.trans hab hbc
  total a b := by
    cases a <;> cases b <;> simp only [optionLe, true_or, or_true]
    exact h.total _ _
  antisymm {a b} hab hba := by
    cases a <;> cases b <;> simp_all only [optionLe, reduceCtorEq]
    rw [h.antisymm hab hba]

/-- Strictly below, and then below once more. -/
theorem trans_ne {a b c : α} (hab : le a b) (hne : a ≠ b) (hbc : le b c) : le a c ∧ a ≠ c :=
  ⟨h.trans hab hbc, fun hac => hne (h.antisymm hab (hac ▸ hbc))⟩

include h'

theorem pair [DecidableEq α] : TotalLe (pairLe le le') where
  trans {p q r} hpq hqr := by
    rw [pairLe] at hpq hqr ⊢
    by_cases hfirst : p.1 = q.1
    · rw [if_pos hfirst] at hpq
      rw [hfirst]
      split_ifs at hqr ⊢
      · exact h'.trans hpq hqr
      · exact hqr
    · rw [if_neg hfirst] at hpq
      by_cases hsecond : q.1 = r.1
      · rwa [← hsecond, if_neg hfirst]
      · rw [if_neg hsecond] at hqr
        obtain ⟨hle, hne⟩ := h.trans_ne hpq hfirst hqr
        rwa [if_neg hne]
  total p q := by
    rw [pairLe, pairLe]
    by_cases hfirst : p.1 = q.1
    · rw [if_pos hfirst, if_pos hfirst.symm]
      exact h'.total _ _
    · rw [if_neg hfirst, if_neg (Ne.symm hfirst)]
      exact h.total _ _
  antisymm {p q} hpq hqp := by
    rw [pairLe] at hpq hqp
    by_cases hfirst : p.1 = q.1
    · rw [if_pos hfirst] at hpq
      rw [if_pos hfirst.symm] at hqp
      exact Prod.ext hfirst (h'.antisymm hpq hqp)
    · rw [if_neg hfirst] at hpq
      rw [if_neg (Ne.symm hfirst)] at hqp
      exact absurd (h.antisymm hpq hqp) hfirst

omit h'

variable [DecidableEq α]

theorem list_trans {as bs cs : List α} (hab : listLe le as bs) (hbc : listLe le bs cs) :
    listLe le as cs := by
  induction as generalizing bs cs with
  | nil => rfl
  | cons a as ih =>
    cases bs with
    | nil => cases hab
    | cons b bs =>
      cases cs with
      | nil => cases hbc
      | cons c cs =>
        rw [listLe] at hab hbc ⊢
        by_cases hfirst : a = b
        · rw [if_pos hfirst] at hab
          rw [hfirst]
          split_ifs at hbc ⊢
          · exact ih hab hbc
          · exact hbc
        · rw [if_neg hfirst] at hab
          by_cases hsecond : b = c
          · rwa [← hsecond, if_neg hfirst]
          · rw [if_neg hsecond] at hbc
            obtain ⟨hle, hne⟩ := h.trans_ne hab hfirst hbc
            rwa [if_neg hne]

theorem list_total (as bs : List α) : listLe le as bs ∨ listLe le bs as := by
  induction as generalizing bs with
  | nil => exact .inl rfl
  | cons a as ih =>
    cases bs with
    | nil => exact .inr rfl
    | cons b bs =>
      rw [listLe, listLe]
      by_cases hfirst : a = b
      · rw [if_pos hfirst, if_pos hfirst.symm]
        exact ih bs
      · rw [if_neg hfirst, if_neg (Ne.symm hfirst)]
        exact h.total a b

theorem list_antisymm {as bs : List α} (hab : listLe le as bs) (hba : listLe le bs as) :
    as = bs := by
  induction as generalizing bs with
  | nil =>
    cases bs with
    | nil => rfl
    | cons b bs => cases hba
  | cons a as ih =>
    cases bs with
    | nil => cases hab
    | cons b bs =>
      rw [listLe] at hab hba
      by_cases hfirst : a = b
      · rw [if_pos hfirst] at hab
        rw [if_pos hfirst.symm] at hba
        rw [hfirst, ih hab hba]
      · rw [if_neg hfirst] at hab
        rw [if_neg (Ne.symm hfirst)] at hba
        exact absurd (h.antisymm hab hba) hfirst

theorem list : TotalLe (listLe le) where
  trans := h.list_trans
  total := h.list_total
  antisymm := h.list_antisymm

end TotalLe

/-! ## Sorting -/

variable {le : α → α → Bool} (h : TotalLe le)

include h

theorem pairwise_mergeSort (xs : List α) : (xs.mergeSort le).Pairwise fun a b => le a b :=
  @List.pairwise_mergeSort _ le (fun _ _ _ => h.trans)
    (fun a b => (Bool.or_eq_true _ _).mpr (h.total a b)) xs

/-- **What is sorted is determined by what is in it.** -/
theorem mergeSort_congr {xs ys : List α} (hperm : xs.Perm ys) :
    xs.mergeSort le = ys.mergeSort le :=
  (((List.mergeSort_perm xs le).trans hperm).trans (List.mergeSort_perm ys le).symm).eq_of_pairwise
    (fun _ _ _ _ => h.antisymm) (pairwise_mergeSort h xs) (pairwise_mergeSort h ys)

/-- **What is taken out leaves the rest in its order.** -/
theorem mergeSort_erase [DecidableEq α] (xs : List α) (a : α) :
    (xs.erase a).mergeSort le = (xs.mergeSort le).erase a := by
  have hperm : ((xs.erase a).mergeSort le).Perm ((xs.mergeSort le).erase a) :=
    (List.mergeSort_perm _ le).trans ((List.mergeSort_perm xs le).erase a).symm
  exact hperm.eq_of_pairwise (fun _ _ _ _ => h.antisymm) (pairwise_mergeSort h _)
    ((pairwise_mergeSort h xs).sublist List.erase_sublist)

end Sorted
