import Aabox.Lib.Bytes
import Mathlib.Algebra.BigOperators.Group.Finset.Basic
import Mathlib.Algebra.BigOperators.Ring.Finset

/-! Adler-32 by its definition, and the two running sums that compute it. -/
namespace Aabox.Lib

variable {bs : Bytes} {b : UInt8}

/-- One more than the sum of the bytes. -/
def adlerLow (bs : Bytes) : Nat :=
  (1 + ∑ i ∈ Finset.range bs.length, (bs.getD i 0).toNat) % 65521

/-- The sum of the low sums of all nonempty prefixes: the `i`-th byte is in `bs.length - i`. -/
def adlerHigh (bs : Bytes) : Nat :=
  (bs.length + ∑ i ∈ Finset.range bs.length, (bs.length - i) * (bs.getD i 0).toNat) % 65521

def adler (bs : Bytes) : Nat := adlerHigh bs * 2 ^ 16 + adlerLow bs

theorem getD_snoc_of_lt {i : Nat} (h : i < bs.length) :
    (bs ++ [b]).getD i 0 = bs.getD i 0 := by
  rw [List.getD_eq_getElem?_getD, List.getD_eq_getElem?_getD, List.getElem?_append_left h]

theorem getD_snoc_length : (bs ++ [b]).getD bs.length 0 = b := by
  simp [List.getD_eq_getElem?_getD]

theorem sum_snoc (bs : Bytes) (b : UInt8) :
    ∑ i ∈ Finset.range (bs ++ [b]).length, ((bs ++ [b]).getD i 0).toNat =
      ∑ i ∈ Finset.range bs.length, (bs.getD i 0).toNat + b.toNat := by
  rw [List.length_append, List.length_singleton, Finset.sum_range_succ, getD_snoc_length]
  congr 1
  apply Finset.sum_congr rfl
  intro i hi
  rw [getD_snoc_of_lt (Finset.mem_range.mp hi)]

theorem weightedSum_snoc (bs : Bytes) (b : UInt8) :
    ∑ i ∈ Finset.range (bs ++ [b]).length, ((bs ++ [b]).length - i) * ((bs ++ [b]).getD i 0).toNat =
      ∑ i ∈ Finset.range bs.length, (bs.length - i) * (bs.getD i 0).toNat +
        ∑ i ∈ Finset.range bs.length, (bs.getD i 0).toNat + b.toNat := by
  rw [List.length_append, List.length_singleton, Finset.sum_range_succ, getD_snoc_length,
    ← Finset.sum_add_distrib, Nat.add_sub_cancel_left, Nat.one_mul]
  congr 1
  apply Finset.sum_congr rfl
  intro i hi
  have hlt := Finset.mem_range.mp hi
  rw [getD_snoc_of_lt hlt, show bs.length + 1 - i = bs.length - i + 1 by omega, Nat.succ_mul]

theorem adlerLow_snoc (bs : Bytes) (b : UInt8) :
    adlerLow (bs ++ [b]) = (adlerLow bs + b.toNat) % 65521 := by
  rw [adlerLow, adlerLow, sum_snoc]
  omega

theorem adlerHigh_snoc (bs : Bytes) (b : UInt8) :
    adlerHigh (bs ++ [b]) = (adlerHigh bs + adlerLow (bs ++ [b])) % 65521 := by
  rw [adlerHigh, adlerHigh, adlerLow, weightedSum_snoc, sum_snoc, List.length_append,
    List.length_singleton]
  omega

/-- The two running sums of the loop are the two halves of the checksum. -/
theorem foldl_adler (bs : Bytes) :
    bs.foldl (fun s byte =>
      ((s.1 + byte.toNat) % 65521, (s.2 + (s.1 + byte.toNat) % 65521) % 65521)) (1, 0) =
      (adlerLow bs, adlerHigh bs) := by
  induction bs using List.reverseRecOn with
  | nil => rfl
  | append_singleton bs b ih =>
    rw [List.foldl_append, ih, adlerHigh_snoc, adlerLow_snoc]
    rfl

theorem adlerLow_lt (bs : Bytes) : adlerLow bs < 2 ^ 16 :=
  Nat.lt_trans (Nat.mod_lt _ (by decide)) (by decide)

theorem adler_eq_or (bs : Bytes) : adlerHigh bs <<< 16 ||| adlerLow bs = adler bs := by
  rw [← Nat.shiftLeft_add_eq_or_of_lt (adlerLow_lt bs), Nat.shiftLeft_eq, adler]

end Aabox.Lib
