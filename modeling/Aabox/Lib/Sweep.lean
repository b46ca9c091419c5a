import Mathlib.Data.Nat.Basic

/-! Cutting a stream into items of known sizes, each starting where the one before ends. -/
namespace Aabox.Lib

variable {size size' : Nat → Option Nat} {i j n : Nat}

/-- The places a sweep from the start comes by; `size i` is the size of the item at `i`. -/
inductive Boundary (size : Nat → Option Nat) : Nat → Prop
  | zero : Boundary size 0
  | next {i n : Nat} : Boundary size i → size i = some n → Boundary size (i + n)

/-- Items do not overlap: the next boundary after an item's start is its end. -/
theorem Boundary.end_le (hpos : ∀ i n, size i = some n → 0 < n) (hi : Boundary size i)
    (hj : Boundary size j) (hij : i < j) : ∃ n, size i = some n ∧ i + n ≤ j := by
  induction j using Nat.strongRecOn generalizing i with
  | ind j ih =>
    cases hj with
    | zero => omega
    | @next j' m hj' hm =>
      have hmpos := hpos j' m hm
      rcases Nat.lt_trichotomy i j' with hlt | rfl | hgt
      · obtain ⟨n, hn, hle⟩ := ih j' (by omega) hi hj' hlt
        exact ⟨n, hn, by omega⟩
      · exact ⟨m, hm, Nat.le_refl _⟩
      -- `j'` starts an item that would reach over the boundary `i`
      · obtain ⟨m', hm', hle⟩ := ih i hij hj' hi hgt
        rw [hm] at hm'
        cases hm'
        omega

theorem Boundary.congr (h : ∀ i, Boundary size i → size' i = size i) :
    Boundary size' i ↔ Boundary size i := by
  constructor
  · intro hb
    induction hb with
    | zero => exact .zero
    | next _ hn ih => exact .next ih (h _ ih ▸ hn)
  · intro hb
    induction hb with
    | zero => exact .zero
    | next hb hn ih => exact .next ih ((h _ hb).trans hn)

end Aabox.Lib
