import Mathlib.Data.List.Basic

/-! Items put on a wire one after another, when a write may fail part of the way through. -/
namespace Aabox.Lib

variable {α β : Type*}

/-- One write of an item; a failing write has taken that many elements of its encoding. -/
structure Attempt (β : Type*) where
  item : β
  fault : Option Nat
  deriving DecidableEq, Repr

variable (enc : β → List α)

def Attempt.written (a : Attempt β) : List α :=
  match a.fault with
  | none => enc a.item
  | some n => (enc a.item).take n

def Attempt.Complete (a : Attempt β) : Prop := ∀ n ∈ a.fault, (enc a.item).length ≤ n

instance (a : Attempt β) : Decidable (a.Complete enc) :=
  inferInstanceAs (Decidable (∀ n ∈ a.fault, _))

/-- What the other side receives. -/
def wireOf (as : List (Attempt β)) : List α := (as.map (Attempt.written enc)).flatten

def produced (as : List (Attempt β)) : List α := (as.map fun a => enc a.item).flatten

/-- Nothing is written after an item that was not written in full. -/
def Gapless : List (Attempt β) → Prop
  | [] => True
  | a :: as => (a.Complete enc ∨ as = []) ∧ Gapless as

instance decidableGapless : (as : List (Attempt β)) → Decidable (Gapless enc as)
  | [] => isTrue trivial
  | _ :: as =>
    have := decidableGapless as
    inferInstanceAs (Decidable ((_ ∨ as = []) ∧ _))

/-- After an item that was not written in full, nothing more is taken. -/
def StopsAtCut (as : List (Attempt β)) : Prop :=
  as.Pairwise fun a b => a.Complete enc ∨ b.written enc = []

instance (as : List (Attempt β)) [DecidableEq α] : Decidable (StopsAtCut enc as) :=
  inferInstanceAs (Decidable (as.Pairwise _))

variable {enc} {a : Attempt β} {as bs : List (Attempt β)}

theorem Attempt.written_complete (h : a.Complete enc) : a.written enc = enc a.item := by
  unfold Attempt.written
  split
  · rfl
  · rename_i n hn
    exact List.take_of_length_le (h n hn)

theorem Attempt.complete_of_no_fault (h : a.fault = none) : a.Complete enc := by
  intro n hn
  rw [h] at hn
  cases hn

theorem Attempt.written_prefix (a : Attempt β) : a.written enc <+: enc a.item := by
  unfold Attempt.written
  split
  · exact List.prefix_rfl
  · exact List.take_prefix ..

theorem wireOf_append (as bs : List (Attempt β)) :
    wireOf enc (as ++ bs) = wireOf enc as ++ wireOf enc bs := by simp [wireOf]

theorem wireOf_complete (h : ∀ a ∈ as, a.Complete enc) : wireOf enc as = produced enc as := by
  unfold wireOf produced
  rw [List.map_congr_left fun a ha => Attempt.written_complete (h a ha)]

theorem wireOf_nothing (h : ∀ a ∈ as, a.written enc = []) : wireOf enc as = [] := by
  apply List.flatten_eq_nil_iff.mpr
  intro bs hbs
  obtain ⟨a, ha, rfl⟩ := List.mem_map.mp hbs
  exact h a ha

theorem gapless_append (hbs : Gapless enc bs)
    (has : Gapless enc as) (h : bs = [] ∨ ∀ a ∈ as, a.Complete enc) : Gapless enc (as ++ bs) := by
  induction as with
  | nil => exact hbs
  | cons a as ih =>
    obtain ⟨hlast, hrest⟩ := has
    rcases h with rfl | hall
    · simpa using ⟨hlast, hrest⟩
    · exact ⟨.inl (hall a (List.mem_cons_self ..)),
        ih hrest (.inr fun b hb => hall b (List.mem_cons_of_mem _ hb))⟩

/-- What arrives is then a prefix of what was produced. -/
theorem StopsAtCut.wireOf_prefix (h : StopsAtCut enc as) :
    wireOf enc as <+: produced enc as := by
  induction as with
  | nil => exact List.prefix_rfl
  | cons a as ih =>
    obtain ⟨hlater, hrest⟩ := List.pairwise_cons.mp h
    by_cases hcomplete : a.Complete enc
    · simpa [wireOf, produced, Attempt.written_complete hcomplete] using ih hrest
    · have hnothing : wireOf enc as = [] :=
        wireOf_nothing fun b hb => (hlater b hb).resolve_left hcomplete
      have hcut : wireOf enc (a :: as) = a.written enc := by
        rw [← List.singleton_append, wireOf_append, hnothing, List.append_nil]
        simp [wireOf]
      have hproduced : produced enc (a :: as) = enc a.item ++ produced enc as := rfl
      rw [hcut, hproduced]
      exact a.written_prefix.trans (List.prefix_append ..)

end Aabox.Lib
