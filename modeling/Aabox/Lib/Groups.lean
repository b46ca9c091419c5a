import Mathlib.Data.List.Induction

/-! A list cut after the elements that close a group. -/
namespace Aabox.Lib

variable {α : Type*} {p : α → Bool} {as bs cur : List α} {g : List α} {gs : List (List α)} {a : α}

/-- The groups that are closed, and the one that is open. -/
def cutStep (p : α → Bool) (s : List (List α) × List α) (a : α) : List (List α) × List α :=
  if p a then (s.1 ++ [s.2 ++ [a]], []) else (s.1, s.2 ++ [a])

def cut (p : α → Bool) (as : List α) : List (List α) × List α := as.foldl (cutStep p) ([], [])

/-- A group is closed by its last element and by no other. -/
def Closed (p : α → Bool) (g : List α) : Prop :=
  ∃ init a, g = init ++ [a] ∧ p a = true ∧ ∀ b ∈ init, p b = false

/-- The groups with the open one, if it has begun. -/
def groups (p : α → Bool) (as : List α) : List (List α) :=
  (cut p as).1 ++ if (cut p as).2 = [] then [] else [(cut p as).2]

theorem cutStep_close (h : p a = true) : cutStep p (gs, cur) a = (gs ++ [cur ++ [a]], []) := by
  rw [cutStep, if_pos h]

theorem cutStep_open (h : p a = false) : cutStep p (gs, cur) a = (gs, cur ++ [a]) := by
  rw [cutStep, if_neg (by simp [h])]

theorem cut_concat (p : α → Bool) (as : List α) (a : α) :
    cut p (as ++ [a]) = cutStep p (cut p as) a := by
  rw [cut, List.foldl_append]
  rfl

/-- What is cut off is closed, the rest is open, and nothing is lost. -/
theorem cut_spec (p : α → Bool) (as : List α) :
    (∀ g ∈ (cut p as).1, Closed p g) ∧ (∀ b ∈ (cut p as).2, p b = false) ∧
      (cut p as).1.flatten ++ (cut p as).2 = as := by
  induction as using List.reverseRecOn with
  | nil => exact ⟨by simp [cut], by simp [cut], rfl⟩
  | append_singleton as a ih =>
    obtain ⟨hclosed, hopen, hall⟩ := ih
    rw [cut_concat]
    by_cases ha : p a = true
    · rw [cutStep_close ha]
      refine ⟨?_, by simp, ?_⟩
      · intro g hg
        rcases List.mem_append.mp hg with hg | hg
        · exact hclosed g hg
        · rw [List.mem_singleton.mp hg]
          exact ⟨_, a, rfl, ha, hopen⟩
      · rw [List.flatten_append, List.flatten_singleton, List.append_nil, ← List.append_assoc, hall]
    · have ha : p a = false := by simpa using ha
      rw [cutStep_open ha]
      refine ⟨hclosed, ?_, ?_⟩
      · intro b hb
        rcases List.mem_append.mp hb with hb | hb
        · exact hopen b hb
        · rw [List.mem_singleton.mp hb]
          exact ha
      · rw [← List.append_assoc, hall]

theorem foldl_cutStep (gs : List (List α)) (cur as : List α) :
    as.foldl (cutStep p) (gs, cur) =
      (gs ++ (as.foldl (cutStep p) ([], cur)).1, (as.foldl (cutStep p) ([], cur)).2) := by
  induction as generalizing gs cur with
  | nil => simp
  | cons a as ih =>
    rw [List.foldl_cons, List.foldl_cons]
    by_cases ha : p a = true
    · rw [cutStep_close ha, cutStep_close ha, ih, ih ([] ++ [cur ++ [a]])]
      simp
    · have ha : p a = false := by simpa using ha
      rw [cutStep_open ha, cutStep_open ha]
      exact ih gs _

theorem foldl_open (h : ∀ b ∈ as, p b = false) (cur : List α) :
    as.foldl (cutStep p) ([], cur) = ([], cur ++ as) := by
  induction as generalizing cur with
  | nil => simp
  | cons a as ih =>
    rw [List.foldl_cons, cutStep_open (h a (List.mem_cons_self ..)),
      ih (fun b hb => h b (List.mem_cons_of_mem _ hb))]
    simp

/-- Cutting more of a list goes on from the open group. -/
theorem cut_append (p : α → Bool) (as bs : List α) :
    cut p (as ++ bs) =
      ((cut p as).1 ++ (cut p ((cut p as).2 ++ bs)).1, (cut p ((cut p as).2 ++ bs)).2) := by
  have hopen := foldl_open (cut_spec p as).2.1 []
  have hrest : cut p ((cut p as).2 ++ bs) = bs.foldl (cutStep p) ([], (cut p as).2) := by
    rw [cut, List.foldl_append, hopen, List.nil_append]
  rw [hrest, ← foldl_cutStep, cut, List.foldl_append]
  rfl

theorem cut_of_closed (h : Closed p g) : cut p g = ([g], []) := by
  obtain ⟨init, a, rfl, ha, hinit⟩ := h
  have hopen : cut p init = ([], init) := foldl_open hinit []
  rw [cut_concat, hopen, cutStep_close ha, List.nil_append]

/-- Groups that follow one another are cut where they end. -/
theorem cut_flatten (h : ∀ g ∈ gs, Closed p g) : cut p gs.flatten = (gs, []) := by
  induction gs with
  | nil => rfl
  | cons g gs ih =>
    rw [List.flatten_cons, cut_append, cut_of_closed (h g (List.mem_cons_self ..)),
      List.nil_append, ih fun g hg => h g (List.mem_cons_of_mem _ hg)]
    rfl

theorem closed_of_map {β : Type*} {f : β → α} {bs : List β} (h : Closed p (bs.map f)) :
    Closed (p ∘ f) bs := by
  obtain ⟨init, a, hmap, ha, hinit⟩ := h
  obtain ⟨bs₁, bs₂, rfl, rfl, hlast⟩ := List.map_eq_append_iff.mp hmap
  obtain ⟨b, rfl, rfl⟩ := List.map_eq_singleton_iff.mp hlast
  exact ⟨bs₁, b, rfl, ha, fun c hc => hinit _ (List.mem_map_of_mem hc)⟩

theorem flatten_groups (p : α → Bool) (as : List α) : (groups p as).flatten = as := by
  have hall := (cut_spec p as).2.2
  unfold groups
  split
  · rename_i hnil
    rw [hnil, List.append_nil] at hall
    rw [List.append_nil, hall]
  · rw [List.flatten_append, List.flatten_singleton, hall]

/-- Every group is closed, but for the last, which may be open. -/
theorem groups_closed {init : List (List α)} (h : groups p as = init ++ [g]) :
    (∀ g ∈ init, Closed p g) ∧ (Closed p g ∨ g ≠ [] ∧ ∀ b ∈ g, p b = false) := by
  obtain ⟨hclosed, hopen, _⟩ := cut_spec p as
  unfold groups at h
  split at h
  · rw [List.append_nil] at h
    rw [h] at hclosed
    exact ⟨fun g hg => hclosed g (List.mem_append_left _ hg),
      .inl (hclosed g (List.mem_append_right _ (List.mem_singleton_self g)))⟩
  · rename_i hne
    obtain ⟨rfl, hlast⟩ := List.append_inj' h rfl
    obtain rfl : _ = g := List.singleton_inj.mp hlast
    exact ⟨hclosed, .inr ⟨hne, hopen⟩⟩

end Aabox.Lib
