import Mathlib.Logic.Relation
import Mathlib.Data.Nat.Basic

/-! Loops that may not end, run for a number of turns, with a rule for what they return. -/
namespace Aabox.Lib

variable {σ ρ : Type*} {step : σ → σ ⊕ ρ} {fuel fuel' : Nat} {s t : σ} {r r' : ρ} {I : σ → Prop}
  {Q : ρ → Prop}

/-- At most `fuel` turns of a loop: each turn gives the next state, or the result. -/
def loop (step : σ → σ ⊕ ρ) : Nat → σ → Option ρ
  | 0, _ => none
  | fuel + 1, s =>
    match step s with
    | .inl s' => loop step fuel s'
    | .inr r => some r

theorem loop_next {s' : σ} (h : step s = .inl s') : loop step (fuel + 1) s = loop step fuel s' := by
  rw [loop, h]

theorem loop_done (h : step s = .inr r) : loop step (fuel + 1) s = some r := by
  rw [loop, h]

/-- What the invariant and the last turn give holds of whatever the loop returns. -/
theorem loop_rule (hs : I s) (hnext : ∀ s s', I s → step s = .inl s' → I s')
    (hdone : ∀ s r, I s → step s = .inr r → Q r) (h : loop step fuel s = some r) : Q r := by
  induction fuel generalizing s with
  | zero => cases h
  | succ fuel ih =>
    cases hstep : step s with
    | inl s' =>
      rw [loop_next hstep] at h
      exact ih (hnext s s' hs hstep) h
    | inr r' =>
      rw [loop_done hstep] at h
      cases h
      exact hdone s r hs hstep

/-- A loop with a measure that goes down ends, and what it returns is right. -/
theorem loop_total (m : σ → Nat) (hs : I s)
    (hnext : ∀ s s', I s → step s = .inl s' → I s' ∧ m s' < m s)
    (hdone : ∀ s r, I s → step s = .inr r → Q r) (hfuel : m s < fuel) :
    ∃ r, loop step fuel s = some r ∧ Q r := by
  induction fuel generalizing s with
  | zero => omega
  | succ fuel ih =>
    cases hstep : step s with
    | inl s' =>
      obtain ⟨hs', hlt⟩ := hnext s s' hs hstep
      rw [loop_next hstep]
      exact ih hs' (by omega)
    | inr r => exact ⟨r, loop_done hstep, hdone s r hs hstep⟩

/-- A loop that always finds another turn to make never returns. -/
theorem loop_diverges (hs : I s) (hnext : ∀ s, I s → ∃ s', step s = .inl s' ∧ I s') (fuel : Nat) :
    loop step fuel s = none := by
  induction fuel generalizing s with
  | zero => rfl
  | succ fuel ih =>
    obtain ⟨s', hstep, hs'⟩ := hnext s hs
    rw [loop_next hstep]
    exact ih hs'

theorem loop_mono (h : loop step fuel s = some r) (hle : fuel ≤ fuel') :
    loop step fuel' s = some r := by
  induction fuel generalizing s fuel' with
  | zero => cases h
  | succ fuel ih =>
    obtain _ | fuel' := fuel'
    · omega
    cases hstep : step s with
    | inl s' =>
      rw [loop_next hstep] at h ⊢
      exact ih h (by omega)
    | inr r' =>
      rw [loop_done hstep] at h ⊢
      exact h

theorem loop_unique (h : loop step fuel s = some r) (h' : loop step fuel' s = some r') : r = r' := by
  have hl := loop_mono h (Nat.le_max_left fuel fuel')
  have hr := loop_mono h' (Nat.le_max_right fuel fuel')
  rw [hl] at hr
  exact Option.some.inj hr

/-- The loop comes by `t` when it starts at `s`. -/
def Turns (step : σ → σ ⊕ ρ) : σ → σ → Prop := Relation.ReflTransGen fun s t => step s = .inl t

theorem loop_of_turns (h : Turns step s t) (hdone : step t = .inr r) :
    ∃ fuel, loop step fuel s = some r := by
  induction h using Relation.ReflTransGen.head_induction_on with
  | refl => exact ⟨1, loop_done hdone⟩
  | head hstep _ ih =>
    obtain ⟨fuel, hfuel⟩ := ih
    exact ⟨fuel + 1, by rw [loop_next hstep, hfuel]⟩

end Aabox.Lib
