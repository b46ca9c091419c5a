import Aabox.Lib.Run

/-!
# One system seen through another

The runs of a part of a system, the abstract runs behind concrete ones, and runs that exist because
some rank goes down.
-/
namespace Aabox.Lib

variable {σ τ α β : Type*} {step : σ → α → σ → Prop} {spec : τ → β → τ → Prop} {R : σ → τ → Prop}
  {s t : σ} {u v : τ} {xs : List α}

/-- The move of a part under a label that may leave it out. -/
def side (next : τ → β → Option τ) (u : τ) : Option β → Option τ
  | none => some u
  | some b => next u b

/-- A run of the whole is, for a part of it, a run of the labels that concern the part. -/
theorem Run.part {step' : τ → β → τ → Prop} (part : σ → τ) {label : α → Option β}
    (hpart : ∀ s a t, step s a t →
      (label a).elim (part t = part s) fun b => step' (part s) b (part t))
    (h : Run step s xs t) : Run step' (part s) (xs.filterMap label) (part t) := by
  induction h with
  | refl => exact .refl
  | @stepL s u t a xs ha _ ih =>
    have hmove := hpart s a u ha
    cases hl : label a with
    | none =>
      rw [hl] at hmove
      rwa [List.filterMap_cons_none hl, ← show part u = part s from hmove]
    | some b =>
      rw [hl] at hmove
      rw [List.filterMap_cons_some hl]
      exact .stepL hmove ih

/-- Every concrete step is matched by abstract ones, and `R` is kept. -/
structure Refines (step : σ → α → σ → Prop) (spec : τ → β → τ → Prop) (R : σ → τ → Prop) :
    Prop where
  step : ∀ s a t u, R s u → step s a t → ∃ bs v, Run spec u bs v ∧ R t v

theorem Refines.run (h : Refines step spec R) (hrun : Run step s xs t) (hR : R s u) :
    ∃ bs v, Run spec u bs v ∧ R t v := by
  induction hrun generalizing u with
  | refl => exact ⟨[], u, .refl, hR⟩
  | stepL ha _ ih =>
    obtain ⟨bs, v, hbs, hv⟩ := h.step _ _ _ _ hR ha
    obtain ⟨cs, w, hcs, hw⟩ := ih hv
    exact ⟨bs ++ cs, w, hbs.trans hcs, hw⟩

/-- What holds of every abstract state that is reachable holds behind every concrete one. -/
theorem Refines.reachable (h : Refines step spec R) (hR : R s u) (ht : Reachable step s t) :
    ∃ v, Reachable spec u v ∧ R t v := by
  obtain ⟨xs, hrun⟩ := ht
  obtain ⟨bs, v, hbs, hv⟩ := h.run hrun hR
  exact ⟨v, ⟨bs, hbs⟩, hv⟩

/-- A system that can always go on with a smaller rank comes to where it need not. -/
theorem exists_run_of_rank {I G : σ → Prop} (rank : σ → Nat)
    (hstep : ∀ s, I s → G s ∨ ∃ a t, step s a t ∧ I t ∧ rank t < rank s) (hs : I s) :
    ∃ xs t, Run step s xs t ∧ I t ∧ G t := by
  obtain ⟨n, hn⟩ : ∃ n, rank s = n := ⟨_, rfl⟩
  induction n using Nat.strongRecOn generalizing s with
  | _ n ih =>
    rcases hstep s hs with hG | ⟨a, t, ha, ht, hlt⟩
    · exact ⟨[], s, .refl, hs, hG⟩
    · obtain ⟨xs, u, hrun, hu⟩ := ih (rank t) (hn ▸ hlt) ht rfl
      exact ⟨a :: xs, u, .stepL ha hrun, hu⟩

end Aabox.Lib
