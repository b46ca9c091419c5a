import Mathlib.Logic.Basic
import Mathlib.Data.List.Basic

/-! Labelled finite runs of a step relation, and the runs whose every step meets a guard. -/
namespace Aabox.Lib

variable {σ α : Type*} {step step' : σ → α → σ → Prop} {s t u : σ} {a : α} {xs ys : List α}

/-- A finite run, with the label of each step. -/
inductive Run (step : σ → α → σ → Prop) : σ → List α → σ → Prop
  | refl {s : σ} : Run step s [] s
  | stepL {s u t : σ} {a : α} {xs : List α} : step s a u → Run step u xs t → Run step s (a :: xs) t

def Reachable (step : σ → α → σ → Prop) (s₀ s : σ) : Prop := ∃ xs, Run step s₀ xs s

/-- The steps of `step` taken from a state and under a label that `cond` admits. -/
def Guard (step : σ → α → σ → Prop) (cond : σ → α → Prop) (s : σ) (a : α) (t : σ) : Prop :=
  step s a t ∧ cond s a

/-- What every step keeps, a whole run keeps. -/
theorem Run.invariant {I : σ → Prop} (hstep : ∀ s a t, I s → step s a t → I t)
    (h : Run step s xs t) (hs : I s) : I t := by
  induction h with
  | refl => exact hs
  | stepL ha _ ih => exact ih (hstep _ _ _ hs ha)

/-- What every step keeps of a state and of the labels that led to it. -/
theorem Run.history {I : σ → List α → Prop}
    (hstep : ∀ s xs a t, I s xs → step s a t → I t (xs ++ [a])) (h : Run step s xs t)
    (hs : I s []) : I t xs := by
  have hgen : ∀ {s xs}, Run step s xs t → ∀ ys, I s ys → I t (ys ++ xs) := by
    intro s xs h
    induction h with
    | refl =>
      intro ys hs
      rwa [List.append_nil]
    | stepL ha _ ih =>
      intro ys hs
      simpa using ih h (ys ++ [_]) (hstep _ _ _ _ hs ha)
  exact hgen h [] hs

theorem Run.mono (hle : ∀ s a t, step s a t → step' s a t) (h : Run step s xs t) :
    Run step' s xs t := by
  induction h with
  | refl => exact .refl
  | stepL ha _ ih => exact .stepL (hle _ _ _ ha) ih

theorem Run.trans (h : Run step s xs t) (h' : Run step t ys u) : Run step s (xs ++ ys) u := by
  induction h with
  | refl => exact h'
  | stepL ha _ ih => exact .stepL ha (ih h')

/-- A run that takes a step under which `I` becomes `J`, and keeps both, ends in `J`. -/
theorem Run.reaches {I J : σ → Prop} (hI : ∀ s x t, I s → step s x t → x ≠ a → I t)
    (ha : ∀ s t, I s → step s a t → J t) (hJ : ∀ s x t, J s → step s x t → J t)
    (h : Run step s xs t) (hs : I s) (hmem : a ∈ xs) : J t := by
  induction h with
  | refl => cases hmem
  | @stepL _ _ _ x _ hx hrest ih =>
    by_cases he : x = a
    · subst he
      exact hrest.invariant hJ (ha _ _ hs hx)
    · exact ih (hI _ _ _ hs hx he) ((List.mem_cons.mp hmem).resolve_left (Ne.symm he))

/-- A run whose steps meet one guard meets another that they imply while an invariant holds. -/
theorem Run.guard_mono {I : σ → Prop} {p q : σ → α → Prop}
    (hstep : ∀ s a t, I s → Guard step p s a t → I t)
    (hpq : ∀ s a t, I s → step s a t → p s a → q s a) (h : Run (Guard step p) s xs t) (hs : I s) :
    Run (Guard step q) s xs t := by
  induction h with
  | refl => exact .refl
  | stepL ha _ ih => exact .stepL ⟨ha.1, hpq _ _ _ hs ha.1 ha.2⟩ (ih (hstep _ _ _ hs ha))

/-- What a step that leads to it must start from, a run that leads to it starts from. -/
theorem Run.backward {q : σ → Prop} (hback : ∀ s a t, step s a t → q t → q s)
    (h : Run step s xs t) (ht : q t) : q s := by
  induction h with
  | refl => exact ht
  | stepL ha _ ih => exact hback _ _ _ ha (ih ht)

/-- The steps of such a run are all taken from states of the same kind. -/
theorem Run.guard_back {p : σ → α → Prop} {q : σ → Prop}
    (hback : ∀ s a t, step s a t → q t → q s) (h : Run (Guard step p) s xs t) (ht : q t) :
    Run (Guard step fun s a => p s a ∧ q s) s xs t := by
  induction h with
  | refl => exact .refl
  | stepL ha hrest ih =>
    have hmid := hrest.backward (fun s a t h => hback s a t h.1) ht
    exact .stepL ⟨ha.1, ha.2, hback _ _ _ ha.1 hmid⟩ (ih ht)

/-- Two guards that agree on every step of the system admit the same runs. -/
theorem Run.guard_congr {p q : σ → α → Prop} (hpq : ∀ s a t, step s a t → (p s a ↔ q s a)) :
    Run (Guard step p) s xs t ↔ Run (Guard step q) s xs t := by
  constructor
  · exact Run.mono fun s a t h => ⟨h.1, (hpq s a t h.1).mp h.2⟩
  · exact Run.mono fun s a t h => ⟨h.1, (hpq s a t h.1).mpr h.2⟩

/-- The relation of an executable step function. -/
def Steps (next : σ → α → Option σ) (s : σ) (a : α) (t : σ) : Prop := next s a = some t

instance [DecidableEq σ] (next : σ → α → Option σ) (s : σ) (a : α) (t : σ) :
    Decidable (Steps next s a t) := inferInstanceAs (Decidable (_ = _))

/-- A run of an executable step function is found by executing its labels. -/
theorem run_iff_foldlM {next : σ → α → Option σ} :
    Run (Steps next) s xs t ↔ xs.foldlM next s = some t := by
  constructor
  · intro h
    induction h with
    | refl => rfl
    | stepL ha _ ih => simpa [List.foldlM_cons, show next _ _ = some _ from ha] using ih
  · intro h
    induction xs generalizing s with
    | nil =>
      obtain rfl : s = t := by simpa using h
      exact .refl
    | cons a xs ih =>
      rw [List.foldlM_cons] at h
      obtain ⟨u, hu, ht⟩ := Option.bind_eq_some_iff.mp h
      exact .stepL hu (ih ht)

/-- A step function that refuses the steps a guard refuses. -/
def guarded (next : σ → α → Option σ) (cond : σ → α → Prop) [∀ s a, Decidable (cond s a)] (s : σ)
    (a : α) : Option σ := if cond s a then next s a else none

theorem run_guard_iff_foldlM {next : σ → α → Option σ} {cond : σ → α → Prop}
    [∀ s a, Decidable (cond s a)] :
    Run (Guard (Steps next) cond) s xs t ↔ xs.foldlM (guarded next cond) s = some t := by
  have hstep : ∀ s a t, Guard (Steps next) cond s a t ↔ Steps (guarded next cond) s a t := by
    intro s a t
    rw [Steps, guarded, Option.ite_none_right_eq_some]
    exact and_comm
  rw [← run_iff_foldlM]
  exact ⟨Run.mono fun s a t => (hstep s a t).mp, Run.mono fun s a t => (hstep s a t).mpr⟩

end Aabox.Lib
