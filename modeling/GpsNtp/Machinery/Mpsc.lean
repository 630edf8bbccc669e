import Mathlib.Data.List.Basic

/-!
# Machinery/Mpsc — a channel between two threads

    sender ──▸ │ a │ b │ c │ ──▸ receiver

An unbounded queue with two ends that can each be dropped.  Sending fails once the receiver is gone,
and what was queued goes with it; receiving drains the queue before it notices that the sender is
gone.
-/

namespace Mpsc

variable {α : Type*}

/-- A channel: what was sent and not received, and which of its ends are still there. -/
structure Channel (α : Type*) where
  queue : List α
  sender : Bool
  receiver : Bool
deriving DecidableEq

/-- What receiving without blocking finds. -/
inductive TryRecv (α : Type*) where
  | received (a : α)
  | empty
  | disconnected
deriving DecidableEq

namespace Channel

/-- A new channel. -/
def new : Channel α := ⟨[], true, true⟩

/-- Send, and whether there was a receiver to send to. -/
def send (ch : Channel α) (a : α) : Channel α × Bool :=
  if ch.receiver then ({ ch with queue := ch.queue ++ [a] }, true) else (ch, false)

/-- Receive without blocking. -/
def tryRecv (ch : Channel α) : Channel α × TryRecv α :=
  match ch.queue with
  | a :: rest => ({ ch with queue := rest }, .received a)
  | [] => (ch, if ch.sender then .empty else .disconnected)

def dropSender (ch : Channel α) : Channel α := { ch with sender := false }

/-- Without a receiver, what is queued is lost. -/
def dropReceiver (ch : Channel α) : Channel α := { ch with queue := [], receiver := false }

end Channel

end Mpsc
