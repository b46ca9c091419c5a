import Aabox.Lib.Bytes
import Mathlib.Tactic.Cases

/-! Byte strings that differ in a known set of places, and what is read outside of it. -/
namespace Aabox.Lib

variable {d d' d'' ys : Bytes} {off n p i : Nat} {W W' : Nat → Prop}

theorem getElem?_slice (d : Bytes) (off n i : Nat) :
    (slice d off n)[i]? = if i < n then d[off + i]? else none := by
  simp [slice, List.getElem?_take]

theorem getD_congr (h : d'[p]? = d[p]?) : d'.getD p 0 = d.getD p 0 := by
  rw [List.getD_eq_getElem?_getD, List.getD_eq_getElem?_getD, h]

theorem getD_slice (h : i < n) : (slice d off n).getD i 0 = d.getD (off + i) 0 := by
  rw [List.getD_eq_getElem?_getD, List.getD_eq_getElem?_getD, getElem?_slice, if_pos h]

theorem getElem?_splice (h : off + ys.length ≤ d.length) (p : Nat) :
    (splice d off ys)[p]? =
      if off ≤ p ∧ p < off + ys.length then ys[p - off]? else d[p]? := by
  have ht : (d.take off).length = off := by simp; omega
  unfold splice
  by_cases hp : p < off
  · have hn : ¬ (off ≤ p ∧ p < off + ys.length) := by omega
    rw [if_neg hn, List.append_assoc, List.getElem?_append_left (by omega), List.getElem?_take,
      if_pos hp]
  · by_cases hq : p < off + ys.length
    · rw [if_pos (by omega), List.append_assoc, List.getElem?_append_right (by omega), ht,
        List.getElem?_append_left (by omega)]
    · rw [if_neg (by omega), List.getElem?_append_right (by simp; omega), List.getElem?_drop]
      congr 1
      simp
      omega

theorem slice_congr (h : ∀ p, off ≤ p → p < off + n → d'[p]? = d[p]?) :
    slice d' off n = slice d off n := by
  apply List.ext_getElem?
  intro i
  rw [getElem?_slice, getElem?_slice]
  split
  · exact h _ (by omega) (by omega)
  · rfl

theorem slice_append_ge {xs : Bytes} (h : xs.length ≤ off) :
    slice (xs ++ d) off n = slice d (off - xs.length) n := by
  apply List.ext_getElem?
  intro i
  rw [getElem?_slice, getElem?_slice, List.getElem?_append_right (by omega)]
  congr 2
  omega

theorem splice_append_ge {xs : Bytes} (h : xs.length ≤ off) (ys : Bytes) :
    splice (xs ++ d) off ys = xs ++ splice d (off - xs.length) ys := by
  have hoff : off + ys.length - xs.length = off - xs.length + ys.length := by omega
  unfold splice
  rw [List.take_append, List.drop_append, List.take_of_length_le h,
    List.drop_of_length_le (by omega), hoff]
  simp only [List.nil_append, List.append_assoc]

theorem slice_middle {xs : Bytes} (zs : Bytes) (ho : xs.length = off) (hn : ys.length = n) :
    slice (xs ++ (ys ++ zs)) off n = ys := by
  subst ho hn
  rw [slice, List.drop_left, List.take_left]

theorem drop_congr (h : ∀ p, off ≤ p → d'[p]? = d[p]?) : d'.drop off = d.drop off := by
  apply List.ext_getElem?
  intro i
  rw [List.getElem?_drop, List.getElem?_drop]
  exact h _ (by omega)

theorem slice_splice_self (h : off + ys.length ≤ d.length) :
    slice (splice d off ys) off ys.length = ys := by
  apply List.ext_getElem?
  intro i
  rw [getElem?_slice, getElem?_splice h]
  split
  · rw [if_pos (by omega), Nat.add_sub_cancel_left]
  · rw [List.getElem?_eq_none (by omega)]

theorem splice_slice_self (h : off + n ≤ d.length) : splice d off (slice d off n) = d := by
  have hb : off + (slice d off n).length ≤ d.length := by rw [length_slice h]; exact h
  apply List.ext_getElem?
  intro p
  rw [getElem?_splice hb, length_slice h]
  split
  · rw [getElem?_slice, if_pos (by omega)]
    congr 1
    omega
  · rfl

theorem splice_splice {xs : Bytes} (h : off + ys.length ≤ d.length) (hl : xs.length = ys.length) :
    splice (splice d off xs) off ys = splice d off ys := by
  have hx : off + xs.length ≤ d.length := by omega
  apply List.ext_getElem?
  intro p
  rw [getElem?_splice (by rw [length_splice hx]; exact h), getElem?_splice hx, getElem?_splice h, hl]
  split
  · rfl
  · rfl

theorem slice_splice_apart (h : off + ys.length ≤ d.length)
    (hp : p + n ≤ off ∨ off + ys.length ≤ p) : slice (splice d off ys) p n = slice d p n := by
  apply slice_congr
  intro q hlo hhi
  rw [getElem?_splice h, if_neg (by omega)]

theorem length_slice_min (d : Bytes) (off n : Nat) :
    (slice d off n).length = min n (d.length - off) := by
  simp [slice]

theorem slice_min (d : Bytes) (off n : Nat) : slice d off (min n (d.length - off)) = slice d off n := by
  apply List.ext_getElem?
  intro i
  rw [getElem?_slice, getElem?_slice]
  by_cases hi : i < min n (d.length - off)
  · rw [if_pos hi, if_pos (by omega)]
  · rw [if_neg hi]
    split
    · rw [List.getElem?_eq_none (by omega)]
    · rfl

theorem slice_slice {k m : Nat} (h : k + m ≤ n) :
    slice (slice d off n) k m = slice d (off + k) m := by
  apply List.ext_getElem?
  intro i
  simp only [getElem?_slice]
  split
  · rw [if_pos (by omega), Nat.add_assoc]
  · rfl

/-- `d'` is `d`, up to the bytes at the places in `W`. -/
structure EqOff (W : Nat → Prop) (d d' : Bytes) : Prop where
  length : d'.length = d.length
  get : ∀ p, ¬ W p → d'[p]? = d[p]?

theorem EqOff.refl (W : Nat → Prop) (d : Bytes) : EqOff W d d := ⟨rfl, fun _ _ => rfl⟩

theorem EqOff.mono (h : EqOff W d d') (hw : ∀ p, W p → W' p) : EqOff W' d d' :=
  ⟨h.length, fun p hp => h.get p (fun hq => hp (hw p hq))⟩

theorem EqOff.trans (h : EqOff W d d') (h' : EqOff W d' d'') : EqOff W d d'' :=
  ⟨h'.length.trans h.length, fun p hp => (h'.get p hp).trans (h.get p hp)⟩

theorem EqOff.eq (h : EqOff W d d') (hw : ∀ p, ¬ W p) : d' = d :=
  List.ext_getElem? (fun p => h.get p (hw p))

theorem EqOff.slice (h : EqOff W d d') (hw : ∀ p, off ≤ p → p < off + n → ¬ W p) :
    slice d' off n = slice d off n :=
  slice_congr (fun p hp hq => h.get p (hw p hp hq))

theorem EqOff.splice (h : EqOff W d d') (hb : off + ys.length ≤ d'.length)
    (hw : ∀ p, off ≤ p → p < off + ys.length → W p) : EqOff W d (splice d' off ys) := by
  refine ⟨(length_splice hb).trans h.length, ?_⟩
  intro p hp
  rw [getElem?_splice hb, if_neg (fun hr => hp (hw p hr.1 hr.2))]
  exact h.get p hp

end Aabox.Lib
