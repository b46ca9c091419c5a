import Mathlib.Logic.Basic

/-! A watch channel with one receiver: the latest value, and whether the receiver has seen it. -/
namespace Aabox.Lib

variable {α : Type*}

structure Watch (α : Type*) where
  value : α
  unseen : Bool
  tx_alive : Bool
  rx_alive : Bool
  deriving DecidableEq, Repr

/-- What a poll of `changed` finds. -/
inductive Changed
  | ok | closed | pending
  deriving DecidableEq, Repr

namespace Watch

variable {w : Watch α}

def new (a : α) : Watch α := ⟨a, false, true, true⟩

/-- A send without a receiver fails and leaves the value alone. -/
def send (w : Watch α) (a : α) : Watch α :=
  if w.rx_alive then { w with value := a, unseen := true } else w

def dropTx (w : Watch α) : Watch α := { w with tx_alive := false }
def dropRx (w : Watch α) : Watch α := { w with rx_alive := false }
def markSeen (w : Watch α) : Watch α := { w with unseen := false }

/-- A value not yet seen is reported before the end of the sender. -/
def changed (w : Watch α) : Changed :=
  if w.unseen then .ok else if w.tx_alive then .pending else .closed

/-- A poll finds nothing only while the sender is there and its value has been seen. -/
theorem changed_pending : w.changed = .pending ↔ w.unseen = false ∧ w.tx_alive = true := by
  cases hu : w.unseen <;> cases ht : w.tx_alive <;> simp [changed, hu, ht]

end Watch
end Aabox.Lib
