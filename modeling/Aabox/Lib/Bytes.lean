import Mathlib.Data.Nat.Basic
import Mathlib.Tactic.Ring
import Mathlib.Data.List.Basic

/-! Fixed-width encodings of natural numbers, and writes inside a byte string. -/
namespace Aabox.Lib

abbrev Bytes := List UInt8

variable {w n off : Nat} {bs ys : Bytes}

/-- The low `w` bytes of `n`, least significant first. -/
def leBytes : Nat → Nat → Bytes
  | 0, _ => []
  | w + 1, n => UInt8.ofNat n :: leBytes w (n / 256)

def leValue : Bytes → Nat
  | [] => 0
  | b :: bs => b.toNat + 256 * leValue bs

def beBytes (w n : Nat) : Bytes := (leBytes w n).reverse

def beValue (bs : Bytes) : Nat := leValue bs.reverse

@[simp] theorem length_leBytes (w n : Nat) : (leBytes w n).length = w := by
  induction w generalizing n with
  | zero => rfl
  | succ w ih => simp [leBytes, ih]

@[simp] theorem length_beBytes (w n : Nat) : (beBytes w n).length = w := by simp [beBytes]

theorem leValue_leBytes (w n : Nat) : leValue (leBytes w n) = n % 256 ^ w := by
  induction w generalizing n with
  | zero => simp [leBytes, leValue, Nat.mod_one]
  | succ w ih =>
    rw [leBytes, leValue, ih, Nat.pow_succ, Nat.mul_comm (256 ^ w), Nat.mod_mul]
    simp

theorem beValue_beBytes (w n : Nat) : beValue (beBytes w n) = n % 256 ^ w := by
  simp [beValue, beBytes, leValue_leBytes]

theorem leValue_leBytes_of_lt (h : n < 256 ^ w) : leValue (leBytes w n) = n := by
  rw [leValue_leBytes, Nat.mod_eq_of_lt h]

theorem beValue_beBytes_of_lt (h : n < 256 ^ w) : beValue (beBytes w n) = n := by
  rw [beValue_beBytes, Nat.mod_eq_of_lt h]

theorem leValue_lt (bs : Bytes) : leValue bs < 256 ^ bs.length := by
  induction bs with
  | nil => simp [leValue]
  | cons b bs ih =>
    have hb := b.toNat_lt
    have hp : 256 ^ (b :: bs).length = 256 * 256 ^ bs.length := by
      simp [Nat.pow_succ, Nat.mul_comm]
    rw [leValue, hp]
    omega

theorem leBytes_leValue (bs : Bytes) : leBytes bs.length (leValue bs) = bs := by
  induction bs with
  | nil => rfl
  | cons b bs ih =>
    have hb := b.toNat_lt
    have hlow : UInt8.ofNat (leValue (b :: bs)) = b := by
      apply UInt8.toNat_inj.mp
      rw [leValue, UInt8.toNat_ofNat']
      omega
    have hhigh : leValue (b :: bs) / 256 = leValue bs := by
      rw [leValue]
      omega
    rw [List.length_cons, leBytes, hlow, hhigh, ih]

theorem beBytes_beValue (bs : Bytes) : beBytes bs.length (beValue bs) = bs := by
  have h := leBytes_leValue bs.reverse
  rw [List.length_reverse] at h
  rw [beBytes, beValue, h, List.reverse_reverse]

theorem beValue_lt (bs : Bytes) : beValue bs < 256 ^ bs.length := by
  simpa [beValue] using leValue_lt bs.reverse

/-- The `len` bytes from `off` on. -/
def slice (bs : Bytes) (off len : Nat) : Bytes := (bs.drop off).take len

/-- `bs` with `ys` written over its bytes from `off` on. -/
def splice (bs : Bytes) (off : Nat) (ys : Bytes) : Bytes :=
  bs.take off ++ ys ++ bs.drop (off + ys.length)

theorem length_slice (h : off + n ≤ bs.length) : (slice bs off n).length = n := by
  simp [slice]
  omega

theorem leValue_slice_lt (bs : Bytes) (off n : Nat) : leValue (slice bs off n) < 256 ^ n := by
  have hlt := leValue_lt (slice bs off n)
  have hle : (slice bs off n).length ≤ n := by simp [slice]
  exact Nat.lt_of_lt_of_le hlt (Nat.pow_le_pow_right (by decide) hle)

theorem length_splice (h : off + ys.length ≤ bs.length) :
    (splice bs off ys).length = bs.length := by
  simp [splice]
  omega

end Aabox.Lib
