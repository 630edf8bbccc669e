import GpsNtp.Machinery.Run

/-!
# Machinery/Mailbox — a slot for the newest value

    store a ─ store b ─ take ─ take ─ store c ─ take
                        b                       c

One side stores into a slot, over whatever is in it, and the other takes what it finds and leaves it
empty.  A value is taken exactly when no other one is stored before the next take, so that what is
taken is decided by the order of the operations alone (`collected_taken`).
-/

namespace Mailbox

open Machine

variable {α : Type*}

inductive Op (α : Type*) where
  | store (a : α)
  | take

def step (_ : Option α) : Op α → Option α
  | .store a => some a
  | .take => none

def taken (slot : Option α) : Op α → Option α
  | .store _ => none
  | .take => slot

/-- The values stored. -/
def stored : List (Op α) → List α
  | [] => []
  | .store a :: ops => a :: stored ops
  | .take :: ops => stored ops

/-- The values whose next operation is a take. -/
def delivered : List (Op α) → List α
  | [] => []
  | .take :: ops => delivered ops
  | .store a :: ops =>
    match ops with
    | .take :: _ => a :: delivered ops
    | _ => delivered ops

/-- What is taken from a slot that holds a value, if the operations begin with a take. -/
theorem collected_taken_some (a : α) (ops : List (Op α)) :
    collected step taken (some a) ops =
      (match ops with
      | .take :: _ => [a]
      | _ => []) ++ collected step taken none ops := by
  match ops with
  | [] => rfl
  | .store b :: ops => rfl
  | .take :: ops => rfl

/-- **The mailbox rule** — what is taken are the values that no other one replaced. -/
theorem collected_taken (ops : List (Op α)) :
    collected step taken none ops = delivered ops := by
  induction ops with
  | nil => rfl
  | cons op ops ih =>
    cases op with
    | take => exact ih
    | store a =>
      show collected step taken (some a) ops = delivered (.store a :: ops)
      rw [collected_taken_some, ih]
      match ops with
      | [] => rfl
      | .store b :: ops => rfl
      | .take :: ops => rfl

/-- Values are taken in the order in which they were stored, and none twice. -/
theorem delivered_sublist (ops : List (Op α)) : (delivered ops).Sublist (stored ops) := by
  induction ops with
  | nil => exact .slnil
  | cons op ops ih =>
    cases op with
    | take => exact ih
    | store a =>
      match ops, ih with
      | [], _ => exact .cons a .slnil
      | .store b :: ops, ih => exact .cons a ih
      | .take :: ops, ih => exact .cons_cons a ih

end Mailbox
