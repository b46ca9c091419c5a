import Aabox.Lib.Protobuf
import Aabox.Resigner.Frame

/-! `read_uleb128` undoes the canonical encoding wherever it stands, and reads no further. -/
namespace Aabox.Resigner.Dex
open Aabox.Lib

/-- `push_uleb128`: seven bits at a time, lowest first. -/
def pushUleb128 (value : Nat) : Bytes :=
  let byte := UInt8.ofNat (value &&& 0x7f)
  if value >>> 7 = 0 then [byte] else (byte ||| 0x80) :: pushUleb128 (value >>> 7)
termination_by value
decreasing_by
  rw [Nat.shiftRight_eq_div_pow] at *
  omega

variable {buf buf' : Bytes} {off n p q v shift result : Nat}

/-! ### Bits -/

theorem and_0x7f (n : Nat) : n &&& 0x7f = n % 128 := Nat.and_two_pow_sub_one_eq_mod n 7

theorem or_shiftLeft (h : result < 2 ^ shift) (n : Nat) :
    result ||| n <<< shift = result + n * 2 ^ shift := by
  rw [Nat.or_comm, ← Nat.shiftLeft_add_eq_or_of_lt h, Nat.shiftLeft_eq, Nat.add_comm]

theorem or_0x80 {b : UInt8} (h : b.toNat < 128) : b ||| 0x80 = UInt8.ofNat (b.toNat + 128) := by
  have hor : b.toNat ||| 1 <<< 7 = b.toNat + 1 * 2 ^ 7 := or_shiftLeft h 1
  apply UInt8.toNat_inj.mp
  rw [UInt8.toNat_or, UInt8.toNat_ofNat']
  exact hor.trans (by omega)

theorem and_0x80 (b : UInt8) : b &&& 0x80 = 0 ↔ b.toNat < 128 := by
  have hall : ∀ n < 256, n &&& 0x80 = 0 ↔ n < 128 := by decide +kernel
  rw [← hall _ b.toNat_lt, ← UInt8.toNat_inj, UInt8.toNat_and]
  rfl

/-! ### The encoding -/

theorem pushUleb128_eq (v : Nat) : pushUleb128 v = Protobuf.varint v := by
  induction v using Nat.strong_induction_on with
  | _ v ih =>
    rw [pushUleb128, Protobuf.varint, and_0x7f, Nat.shiftRight_eq_div_pow]
    by_cases hlt : v < 128
    · rw [if_pos (Nat.div_eq_of_lt hlt), if_pos hlt, Nat.mod_eq_of_lt hlt]
    · have hbyte : (UInt8.ofNat (v % 128)).toNat = v % 128 := by
        rw [UInt8.toNat_ofNat']
        omega
      rw [if_neg (by omega), if_neg hlt, or_0x80 (by omega), hbyte]
      exact congrArg _ (ih _ (by omega))

/-- What a byte puts into the accumulator, where the value fits it. -/
theorem or_group (hr : result < 2 ^ shift) (hfit : result + v * 2 ^ shift < 2 ^ 32) :
    result ||| u32 ((v % 128) <<< shift) = result + v % 128 * 2 ^ shift := by
  have hle : v % 128 * 2 ^ shift ≤ v * 2 ^ shift := Nat.mul_le_mul_right _ (Nat.mod_le v 128)
  have hsmall : (v % 128) <<< shift < 2 ^ 32 := by
    rw [Nat.shiftLeft_eq]
    omega
  rw [u32, Nat.mod_eq_of_lt hsmall, or_shiftLeft hr]

theorem ulebLoop_byte {b : UInt8} (h : buf[p]? = some b) :
    ulebLoop buf off (n + 1) p shift result =
      if b.toNat < 128 then .ok (p + 1, result ||| u32 ((b.toNat % 128) <<< shift))
      else ulebLoop buf off n (p + 1) (shift + 7) (result ||| u32 ((b.toNat % 128) <<< shift)) := by
  rw [ulebLoop, h]
  dsimp only
  rw [and_0x7f]
  by_cases hlast : b.toNat < 128
  · rw [if_pos ((and_0x80 b).mpr hlast), if_pos hlast]
  · rw [if_neg fun hand => hlast ((and_0x80 b).mp hand), if_neg hlast]

theorem ulebLoop_last (pre post : Bytes) (hlt : v < 128) (hr : result < 2 ^ shift)
    (hfit : result + v * 2 ^ shift < 2 ^ 32) :
    ulebLoop (pre ++ (Protobuf.varint v ++ post)) off (n + 1) pre.length shift result =
      .ok (pre.length + (Protobuf.varint v).length, result + v * 2 ^ shift) := by
  have hbyte : (UInt8.ofNat v).toNat = v := by
    rw [UInt8.toNat_ofNat']
    omega
  have hget : (pre ++ (Protobuf.varint v ++ post))[pre.length]? = some (UInt8.ofNat v) := by
    rw [Protobuf.varint_of_lt hlt]
    simp
  rw [ulebLoop_byte hget, hbyte, if_pos hlt, or_group hr hfit, Nat.mod_eq_of_lt hlt,
    Protobuf.varint_of_lt hlt]
  rfl

/-- The loop reads on from a partial result, as long as the whole fits 32 bits. -/
theorem ulebLoop_varint (pre post : Bytes) (hv : v < 128 ^ (n + 1)) (hr : result < 2 ^ shift)
    (hfit : result + v * 2 ^ shift < 2 ^ 32) :
    ulebLoop (pre ++ (Protobuf.varint v ++ post)) off (n + 1) pre.length shift result =
      .ok (pre.length + (Protobuf.varint v).length, result + v * 2 ^ shift) := by
  induction n generalizing pre v shift result with
  | zero => exact ulebLoop_last pre post (by simpa using hv) hr hfit
  | succ n ih =>
    by_cases hlt : v < 128
    · exact ulebLoop_last pre post hlt hr hfit
    have hcons : Protobuf.varint v = UInt8.ofNat (v % 128 + 128) :: Protobuf.varint (v / 128) := by
      rw [Protobuf.varint, if_neg hlt]
    have hbyte : (UInt8.ofNat (v % 128 + 128)).toNat = v % 128 + 128 := by
      rw [UInt8.toNat_ofNat']
      omega
    have hget : (pre ++ (Protobuf.varint v ++ post))[pre.length]? =
        some (UInt8.ofNat (v % 128 + 128)) := by
      rw [hcons]
      simp
    have hmod : (v % 128 + 128) % 128 = v % 128 := by omega
    have hshift : 2 ^ (shift + 7) = 128 * 2 ^ shift := by
      rw [Nat.pow_add, Nat.mul_comm]
    have hsplit : v % 128 * 2 ^ shift + v / 128 * 2 ^ (shift + 7) = v * 2 ^ shift := by
      rw [hshift, ← Nat.mul_assoc, ← Nat.add_mul, Nat.mul_comm (v / 128), Nat.mod_add_div]
    have hgroup : v % 128 * 2 ^ shift ≤ 127 * 2 ^ shift := Nat.mul_le_mul_right _ (by omega)
    have hsum : result + v % 128 * 2 ^ shift + v / 128 * 2 ^ (shift + 7) =
        result + v * 2 ^ shift := by omega
    have hv' : v / 128 < 128 ^ (n + 1) := by
      rw [Nat.pow_succ] at hv
      omega
    have hrest := @ih (v / 128) (shift + 7) (result + v % 128 * 2 ^ shift)
      (pre ++ [UInt8.ofNat (v % 128 + 128)]) hv' (by omega) (by omega)
    rw [List.append_assoc, List.length_append, List.length_singleton, hsum] at hrest
    rw [ulebLoop_byte hget, hbyte, if_neg (by omega), hmod, or_group hr hfit, hcons,
      List.cons_append, ← List.singleton_append, hrest, List.length_cons, Nat.add_assoc,
      Nat.add_comm 1]

/-! ### The bytes that are read -/

theorem ulebLoop_le (h : ulebLoop buf off n p shift result = .ok (q, v)) : q ≤ p + n := by
  induction n generalizing p shift result with
  | zero => cases h
  | succ n ih =>
    unfold ulebLoop at h
    split at h
    · cases h
    · dsimp only at h
      split at h
      · cases h
        omega
      · have := ih h
        omega

/-- Not even a failure depends on more than the five bytes. -/
theorem ulebLoop_congr (h : ∀ i, p ≤ i → i < p + n → buf'[i]? = buf[i]?) :
    ulebLoop buf' off n p shift result = ulebLoop buf off n p shift result := by
  induction n generalizing p shift result with
  | zero => rfl
  | succ n ih =>
    have hrest : ∀ shift result, ulebLoop buf' off n (p + 1) shift result =
        ulebLoop buf off n (p + 1) shift result :=
      fun _ _ => ih fun i hi hlt => h i (by omega) (by omega)
    rw [ulebLoop, ulebLoop, h p (Nat.le_refl p) (by omega)]
    cases buf[p]? with
    | none => rfl
    | some byte =>
      dsimp only
      rw [hrest]

/-- `read_uleb128` inverts the canonical encoding in any surroundings; elsewhere it fails or moves
on by one to five bytes, and looks at no others. -/
theorem readUleb128_exact :
    (∀ (v : UInt32) (pre post : Bytes),
      readUleb128 (pre ++ (pushUleb128 v.toNat ++ post)) pre.length =
        .ok (pre.length + (pushUleb128 v.toNat).length, v.toNat)) ∧
    (∀ buf off, (∃ e, readUleb128 buf off = .error e) ∨
      ∃ q v, readUleb128 buf off = .ok (q, v) ∧ off + 1 ≤ q ∧ q ≤ off + 5 ∧ q ≤ buf.length ∧
        ∀ buf', (∀ i, off ≤ i → i < q → buf'[i]? = buf[i]?) →
          readUleb128 buf' off = .ok (q, v)) ∧
    ∀ buf buf' off, (∀ i, off ≤ i → i < off + 5 → buf'[i]? = buf[i]?) →
      readUleb128 buf' off = readUleb128 buf off := by
  refine ⟨?_, ?_, fun _ _ _ => ulebLoop_congr⟩
  · intro v pre post
    have hv := v.toNat_lt
    rw [pushUleb128_eq, readUleb128, ulebLoop_varint pre post (by omega) (by decide) (by omega)]
    simp
  · intro buf off
    cases h : readUleb128 buf off with
    | error e => exact .inl ⟨e, rfl⟩
    | ok r =>
      obtain ⟨q, v⟩ := r
      obtain ⟨hlt, hle, hlocal⟩ := ulebLoop_local h
      exact .inr ⟨q, v, rfl, hlt, ulebLoop_le h, hle, hlocal⟩

end Aabox.Resigner.Dex
