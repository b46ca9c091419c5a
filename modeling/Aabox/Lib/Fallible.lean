import Mathlib.Logic.Basic

/-! Steps that may fail, taken apart one at a time. -/
namespace Aabox.Lib

universe u v

variable {ε : Type u} {α β : Type v} {x : Except ε α} {f : α → Except ε β} {b : β}
  {c : Prop} [Decidable c]
  {e : ε}

theorem bind_eq_ok : x >>= f = .ok b ↔ ∃ a, x = .ok a ∧ f a = .ok b := by
  cases x with
  | error e =>
    constructor
    · intro h
      cases h
    · rintro ⟨_, h, _⟩
      cases h
  | ok a =>
    constructor
    · intro h
      exact ⟨a, rfl, h⟩
    · rintro ⟨_, h, hb⟩
      cases h
      exact hb

theorem toOption_eq_some {a : α} : x.toOption = some a ↔ x = .ok a := by
  cases x with
  | error e =>
    constructor
    · intro h
      cases h
    · intro h
      cases h
  | ok a' =>
    constructor
    · intro h
      cases h
      rfl
    · intro h
      cases h
      rfl

/-- A step behind a check that throws. -/
theorem throw_bind_eq_ok {β : Type} {k : Unit → Except ε β} {b : β} :
    (if c then (throw e : Except ε Unit) >>= k else k ()) = .ok b ↔ ¬ c ∧ k () = .ok b := by
  by_cases hc : c
  · rw [if_pos hc]
    constructor
    · intro h
      cases h
    · exact fun h => (h.1 hc).elim
  · rw [if_neg hc]
    exact ⟨fun h => ⟨hc, h⟩, And.right⟩

/-- An error gets a text in front that says what was being done. -/
def context {α : Type} (msg : String) : Except String α → Except String α
  | .ok a => .ok a
  | .error e => .error s!"{msg}: {e}"

@[simp] theorem context_ok {α : Type} {msg : String} {x : Except String α} {a : α} :
    context msg x = .ok a ↔ x = .ok a := by
  cases x with
  | ok b => rfl
  | error e => simp [context]

end Aabox.Lib
