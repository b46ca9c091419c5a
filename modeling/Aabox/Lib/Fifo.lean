import Aabox.Lib.Refine
import Mathlib.Data.List.Infix

/-! What a queue is for: the values come out as they went in, in order and each once. -/
namespace Aabox.Lib

variable {α : Type*}

/-- `pushed` is all that went in so far, `popped` all that came out. -/
structure Fifo (α : Type*) where
  pushed : List α
  popped : List α

namespace Fifo

variable {q : Fifo α} {as : List α}

def empty : Fifo α := ⟨[], []⟩

inductive Act (α : Type*)
  | push (a : α)
  | pop (a : α)

inductive Step : Fifo α → Act α → Fifo α → Prop
  | push (q : Fifo α) (a : α) : Step q (.push a) { q with pushed := q.pushed ++ [a] }
  | pop {q : Fifo α} {a : α} : q.popped ++ [a] <+: q.pushed →
    Step q (.pop a) { q with popped := q.popped ++ [a] }

theorem run_pushes (q : Fifo α) (as : List α) :
    Run Step q (as.map .push) { q with pushed := q.pushed ++ as } := by
  induction as generalizing q with
  | nil => simpa using Run.refl
  | cons a as ih =>
    have hrest := ih { q with pushed := q.pushed ++ [a] }
    rw [List.append_assoc, List.singleton_append] at hrest
    exact .stepL (.push q a) hrest

theorem run_pops {rest : List α} (h : q.pushed = q.popped ++ as ++ rest) :
    Run Step q (as.map .pop) { q with popped := q.popped ++ as } := by
  induction as generalizing q with
  | nil => simpa using Run.refl
  | cons a as ih =>
    have hpop : Step q (.pop a) { q with popped := q.popped ++ [a] } :=
      .pop ⟨as ++ rest, by simp [h]⟩
    have hrest := ih (q := { q with popped := q.popped ++ [a] }) (by simp [h])
    dsimp only at hrest
    rw [List.append_assoc, List.singleton_append] at hrest
    exact .stepL hpop hrest

/-- A system that never takes back what it has taken in or given out, and that has given out the
beginning of what it took in, does what a queue does. -/
theorem refines {σ β : Type*} {step : σ → β → σ → Prop} {I : σ → Prop} {ins outs : σ → List α}
    (hI : ∀ s b t, I s → step s b t → I t) (hins : ∀ s b t, I s → step s b t → ins s <+: ins t)
    (houts : ∀ s b t, I s → step s b t → outs s <+: outs t) (hle : ∀ s, I s → outs s <+: ins s) :
    Refines step Step fun s q => I s ∧ q.pushed = ins s ∧ q.popped = outs s where
  step := by
    rintro s b t ⟨_, _⟩ ⟨hs, rfl, rfl⟩ hstep
    have ht := hI s b t hs hstep
    obtain ⟨more, hmore⟩ := hins s b t hs hstep
    obtain ⟨out, hout⟩ := houts s b t hs hstep
    obtain ⟨rest, hrest⟩ := hle t ht
    have hpops : (⟨ins t, outs s⟩ : Fifo α).pushed = outs s ++ out ++ rest := by
      rw [hout, hrest]
    refine ⟨more.map .push ++ out.map .pop, ⟨ins t, outs t⟩, ?_, ht, rfl, rfl⟩
    have hpush := run_pushes ⟨ins s, outs s⟩ more
    have hpop := run_pops hpops
    dsimp only at hpush hpop
    rw [hmore] at hpush
    rw [hout] at hpop
    exact hpush.trans hpop

end Fifo
end Aabox.Lib
