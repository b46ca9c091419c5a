import Mathlib.Data.List.Basic

/-! A bounded queue between senders and one receiver, either side of which may go away. -/
namespace Aabox.Lib

variable {α : Type*}

structure Mpsc (α : Type*) where
  queue : List α
  capacity : Nat
  tx_alive : Bool
  rx_alive : Bool
  deriving DecidableEq, Repr

namespace Mpsc

variable {c c' : Mpsc α} {a : α} {as : List α}

def new (capacity : Nat) : Mpsc α := ⟨[], capacity, true, true⟩

/-- A send that need not wait; `none` when the queue is full or the receiver is gone. -/
def trySend (c : Mpsc α) (a : α) : Option (Mpsc α) :=
  if c.rx_alive ∧ c.queue.length < c.capacity then some { c with queue := c.queue ++ [a] } else none

def recv (c : Mpsc α) : Option (α × Mpsc α) :=
  match c.queue with
  | a :: queue => some (a, { c with queue })
  | [] => none

/-- The receiver has seen the end: nothing is queued and no sender is left. -/
def Ended (c : Mpsc α) : Prop := c.queue = [] ∧ c.tx_alive = false

instance (c : Mpsc α) : Decidable c.Ended :=
  decidable_of_iff (c.queue.isEmpty = true ∧ c.tx_alive = false)
    (and_congr_left fun _ => List.isEmpty_iff)

def dropTx (c : Mpsc α) : Mpsc α := { c with tx_alive := false }
def dropRx (c : Mpsc α) : Mpsc α := { c with rx_alive := false }

theorem trySend_some (h : c.trySend a = some c') :
    c.rx_alive = true ∧ c.queue.length < c.capacity ∧ c' = { c with queue := c.queue ++ [a] } := by
  unfold trySend at h
  split at h <;> cases h
  rename_i hroom
  exact ⟨hroom.1, hroom.2, rfl⟩

theorem recv_some (h : c.recv = some (a, c')) :
    c.queue = a :: c'.queue ∧ c' = { c with queue := c'.queue } := by
  unfold recv at h
  split at h <;> cases h
  rename_i hq
  exact ⟨hq, rfl⟩

theorem recv_cons (h : c.queue = a :: as) : c.recv = some (a, { c with queue := as }) := by
  rw [recv, h]

end Mpsc
end Aabox.Lib
