import Mathlib.Data.List.Basic

/-!
A sequence that arrives in pieces: one read takes from the front piece only, and what a read
leaves of a piece is the front of the next one.
-/
namespace Aabox.Lib

variable {α : Type*} {n k o : Nat} {c : List α} {cs : List (List α)}

/-- One read with room for `n` elements. -/
def readOnce (n : Nat) : List (List α) → List α × List (List α)
  | [] => ([], [])
  | c :: cs => if c.length ≤ n then (c, cs) else (c.take n, c.drop n :: cs)

/-- Reads repeated until `n` elements have come or the pieces have run out. -/
def readUpTo (n : Nat) : List (List α) → List α × List (List α)
  | [] => ([], [])
  | c :: cs =>
    if n = 0 then ([], c :: cs)
    else if c.length ≤ n then
      let rest := readUpTo (n - c.length) cs
      (c ++ rest.1, rest.2)
    else (c.take n, c.drop n :: cs)

/-- What is left of the pieces after their first `n` elements. -/
def skip : Nat → List (List α) → List (List α)
  | _, [] => []
  | n, c :: cs => if n < c.length then c.drop n :: cs else skip (n - c.length) cs

/-- The elements from position `o` to the end of its piece. -/
def readable : List (List α) → Nat → Nat
  | [], _ => 0
  | c :: cs, o => if o < c.length then c.length - o else readable cs (o - c.length)

/-- No piece is empty: an empty read means the end. -/
def Pieces (cs : List (List α)) : Prop := ∀ c ∈ cs, c ≠ []

instance [DecidableEq α] : Decidable (Pieces cs) :=
  inferInstanceAs (Decidable (∀ c ∈ cs, c ≠ []))

theorem Pieces.tail (h : Pieces (c :: cs)) : Pieces cs := fun d hd => h d (List.mem_cons_of_mem _ hd)

theorem Pieces.length_pos (h : Pieces (c :: cs)) : 0 < c.length :=
  List.length_pos_iff.mpr (h c (List.mem_cons_self ..))

theorem Pieces.cons (hc : c ≠ []) (h : Pieces cs) : Pieces (c :: cs) := by
  intro d hd
  rcases List.mem_cons.mp hd with rfl | hd
  · exact hc
  · exact h d hd

theorem Pieces.append {ds : List (List α)} (h : Pieces cs) (h' : Pieces ds) : Pieces (cs ++ ds) := by
  intro d hd
  rcases List.mem_append.mp hd with hd | hd
  · exact h d hd
  · exact h' d hd

theorem Pieces.flatten_eq_nil (h : Pieces cs) : cs.flatten = [] ↔ cs = [] := by
  cases cs with
  | nil => simp
  | cons c cs => simpa using fun hc => (h c (List.mem_cons_self ..) hc).elim

theorem pieces_skip (h : Pieces cs) (n : Nat) : Pieces (skip n cs) := by
  induction cs generalizing n with
  | nil => exact h
  | cons c cs ih =>
    unfold skip
    split
    · rename_i hn
      exact .cons (by simpa using hn) h.tail
    · exact ih h.tail _

theorem take_eq_take_append {xs : List α} (ys : List α) (h : n ≤ xs.length) :
    xs.take n = (xs ++ ys).take n := (List.take_append_of_le_length h).symm

/-- The first pieces of a stream hold the front of whatever the stream spells. -/
theorem take_flatten {ds : List (List α)} {xs ys : List α} (h : (cs ++ ds).flatten = xs ++ ys)
    (hlen : cs.flatten.length ≤ xs.length) : xs.take cs.flatten.length = cs.flatten := by
  rw [take_eq_take_append ys hlen, ← h, List.flatten_append, List.take_left]

theorem skip_zero (h : Pieces cs) : skip 0 cs = cs := by
  cases cs with
  | nil => rfl
  | cons c cs => simp [skip, h.length_pos]

theorem flatten_skip (n : Nat) (cs : List (List α)) : (skip n cs).flatten = cs.flatten.drop n := by
  induction cs generalizing n with
  | nil => simp [skip]
  | cons c cs ih =>
    unfold skip
    split
    · rename_i hn
      simp [List.drop_append_of_le_length (Nat.le_of_lt hn)]
    · rename_i hn
      simp [ih, List.drop_append, List.drop_eq_nil_of_le (Nat.le_of_not_lt hn)]

theorem skip_skip (h : Pieces cs) (n k : Nat) : skip k (skip n cs) = skip (n + k) cs := by
  induction cs generalizing n k with
  | nil => rfl
  | cons c cs ih =>
    by_cases hn : n < c.length
    · by_cases hk : n + k < c.length
      · simp [skip, hn, hk, show k < c.length - n by omega]
      · have hk' : ¬ k < c.length - n := by omega
        simp [skip, hn, hk, hk', show k - (c.length - n) = n + k - c.length by omega]
    · have hk : ¬ n + k < c.length := by omega
      simp [skip, hn, hk, ih h.tail, show n - c.length + k = n + k - c.length by omega]

theorem readable_skip (h : Pieces cs) (n o : Nat) : readable (skip n cs) o = readable cs (n + o) := by
  induction cs generalizing n o with
  | nil => rfl
  | cons c cs ih =>
    by_cases hn : n < c.length
    · by_cases ho : n + o < c.length
      · simp [skip, readable, hn, ho, show o < c.length - n by omega]
        omega
      · have ho' : ¬ o < c.length - n := by omega
        simp [skip, readable, hn, ho, ho', show o - (c.length - n) = n + o - c.length by omega]
    · have ho : ¬ n + o < c.length := by omega
      simp [skip, readable, hn, ho, ih h.tail, show n - c.length + o = n + o - c.length by omega]

theorem readable_zero_le (cs : List (List α)) : readable cs 0 ≤ cs.flatten.length := by
  induction cs with
  | nil => simp [readable]
  | cons c cs ih =>
    rw [readable, List.flatten_cons, List.length_append]
    split
    · omega
    · rw [Nat.zero_sub]
      omega

/-- One read returns what the front piece has, up to the room there is. -/
theorem readOnce_fst (h : Pieces cs) (n : Nat) :
    (readOnce n cs).1 = cs.flatten.take (min n (readable cs 0)) := by
  cases cs with
  | nil => simp [readOnce]
  | cons c cs =>
    by_cases hn : c.length ≤ n
    · simp [readOnce, hn, readable, h.length_pos]
    · have hmin : min n c.length = n := by omega
      rw [readable, if_pos h.length_pos, Nat.sub_zero, hmin, List.flatten_cons,
        List.take_append_of_le_length (by omega), readOnce, if_neg hn]

theorem readOnce_snd (h : Pieces cs) (n : Nat) :
    (readOnce n cs).2 = skip (min n (readable cs 0)) cs := by
  cases cs with
  | nil => rfl
  | cons c cs =>
    by_cases hc : c.length ≤ n
    · simp [readOnce, hc, readable, h.length_pos, skip, skip_zero h.tail]
    · simp [readOnce, hc, readable, h.length_pos, skip, show min n c.length = n by omega,
        show n < c.length by omega]

theorem readUpTo_fst (n : Nat) (cs : List (List α)) : (readUpTo n cs).1 = cs.flatten.take n := by
  induction cs generalizing n with
  | nil => simp [readUpTo]
  | cons c cs ih =>
    unfold readUpTo
    split
    · rename_i h0
      simp [h0]
    · split
      · rename_i hc
        simp [ih, List.take_append, List.take_of_length_le hc]
      · rename_i hc
        simp [List.take_append_of_le_length (Nat.le_of_not_le hc)]

theorem readUpTo_snd (h : Pieces cs) (n : Nat) : (readUpTo n cs).2 = skip n cs := by
  induction cs generalizing n with
  | nil => rfl
  | cons c cs ih =>
    unfold readUpTo
    split
    · rename_i h0
      rw [h0, skip_zero h]
    · split
      · rename_i hc
        simp [ih h.tail, skip, Nat.not_lt.mpr hc]
      · rename_i hc
        simp [skip, Nat.lt_of_not_le hc]

theorem skip_eq_nil (h : Pieces cs) (hn : cs.flatten.length ≤ n) : skip n cs = [] := by
  have hf : (skip n cs).flatten = [] := by rw [flatten_skip, List.drop_eq_nil_of_le hn]
  exact (pieces_skip h n).flatten_eq_nil.mp hf

theorem readable_append {ds : List (List α)} (h : Pieces cs) (hne : cs ≠ []) :
    readable (cs ++ ds) 0 = readable cs 0 := by
  cases cs with
  | nil => exact (hne rfl).elim
  | cons c cs => simp [readable, h.length_pos]

theorem readable_append_of_lt {ds : List (List α)} (h : o < cs.flatten.length) :
    readable (cs ++ ds) o = readable cs o := by
  induction cs generalizing o with
  | nil => simp at h
  | cons c cs ih =>
    rw [List.flatten_cons, List.length_append] at h
    by_cases ho : o < c.length
    · simp [readable, ho]
    · simp [readable, ho, ih (o := o - c.length) (by omega)]

theorem skip_append {ds : List (List α)} (h : Pieces cs) (hd : Pieces ds)
    (hn : n ≤ cs.flatten.length) : skip n (cs ++ ds) = skip n cs ++ ds := by
  induction cs generalizing n with
  | nil =>
    obtain rfl : n = 0 := by simpa using hn
    simpa [skip] using skip_zero hd
  | cons c cs ih =>
    rw [List.flatten_cons, List.length_append] at hn
    by_cases hc : n < c.length
    · simp [skip, hc]
    · simp [skip, hc, ih h.tail (n := n - c.length) (by omega)]

theorem skip_length_append {ds : List (List α)} (h : Pieces cs) (hd : Pieces ds) :
    skip cs.flatten.length (cs ++ ds) = ds := by
  rw [skip_append h hd (Nat.le_refl _), skip_eq_nil h (Nat.le_refl _), List.nil_append]

end Aabox.Lib
