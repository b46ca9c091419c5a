import Aabox.Lib.Sweep
import Aabox.Resigner.Dex

/-!
Dalvik instructions as their format table gives them, and what the rewrite loop does to a stream
of them: the instructions that read the field, and nothing else.
-/
namespace Aabox.Resigner.Dex
open Aabox.Lib

inductive Format
  | f00x | f10x | f10t | f11n | f11x | f12x
  | f20t | f20bc | f21c | f21h | f21s | f21t | f22b | f22c | f22cs | f22s | f22t | f22x | f23x
  | f30t | f31c | f31i | f31t | f32x | f35c | f35mi | f3rc | f3rmi
  | f45cc | f4rcc | f51l
  deriving DecidableEq, Repr

/-- The first digit of a format's name is its length in code units. -/
def Format.units : Format → Nat
  | f00x | f10x | f10t | f11n | f11x | f12x => 1
  | f20t | f20bc | f21c | f21h | f21s | f21t => 2
  | f22b | f22c | f22cs | f22s | f22t | f22x | f23x => 2
  | f30t | f31c | f31i | f31t | f32x | f35c | f35mi | f3rc | f3rmi => 3
  | f45cc | f4rcc => 4
  | f51l => 5

/-- Runs of opcodes of one format, each with its last opcode; an unused opcode counts as 10x. -/
def formats : List (Nat × Format) :=
  [(0x00, .f10x), (0x01, .f12x), (0x02, .f22x), (0x03, .f32x), (0x04, .f12x), (0x05, .f22x),
   (0x06, .f32x), (0x07, .f12x), (0x08, .f22x), (0x09, .f32x), (0x0d, .f11x), (0x0e, .f10x),
   (0x11, .f11x), (0x12, .f11n), (0x13, .f21s), (0x14, .f31i), (0x15, .f21h), (0x16, .f21s),
   (0x17, .f31i), (0x18, .f51l), (0x19, .f21h), (0x1a, .f21c), (0x1b, .f31c), (0x1c, .f21c),
   (0x1e, .f11x), (0x1f, .f21c), (0x20, .f22c), (0x21, .f12x), (0x22, .f21c), (0x23, .f22c),
   (0x24, .f35c), (0x25, .f3rc), (0x26, .f31t), (0x27, .f11x), (0x28, .f10t), (0x29, .f20t),
   (0x2a, .f30t), (0x2c, .f31t), (0x31, .f23x), (0x37, .f22t), (0x3d, .f21t), (0x43, .f10x),
   (0x51, .f23x), (0x5f, .f22c), (0x6d, .f21c), (0x72, .f35c), (0x73, .f10x), (0x78, .f3rc),
   (0x7a, .f10x), (0x8f, .f12x), (0xaf, .f23x), (0xcf, .f12x), (0xd7, .f22s), (0xe2, .f22b),
   -- the optimizer's own opcodes, which keep their lengths
   (0xe4, .f22c), (0xe6, .f21c), (0xe9, .f22c), (0xeb, .f21c), (0xec, .f00x), (0xed, .f20bc),
   (0xee, .f35mi), (0xef, .f3rmi), (0xf0, .f35c), (0xf1, .f10x), (0xf2, .f22cs), (0xf9, .f10x),
   (0xfa, .f45cc), (0xfb, .f4rcc), (0xfc, .f35c), (0xfd, .f3rc), (0xff, .f21c)]

def formatOf (opcode : UInt8) : Format :=
  ((formats.find? (fun f => opcode.toNat ≤ f.1)).map (·.2)).getD .f10x

/-- Code units of a switch or array table, or of a nop. -/
def tableUnits (code : Bytes) (i : Nat) : Option Nat :=
  let ident := code.getD (i + 1) 0
  if ident = 0x01 then (readU16 code (i + 2)).toOption.map (fun size => size * 2 + 4)
  else if ident = 0x02 then (readU16 code (i + 2)).toOption.map (fun size => size * 4 + 2)
  else if ident = 0x03 then do
    let element_width ← (readU16 code (i + 2)).toOption
    let size ← (readU32 code (i + 4)).toOption
    return (size * element_width + 1) / 2 + 4
  else some 1

/-- The length in bytes of what stands at `i`, by its opcode; it may be cut off. -/
def insnBytes (code : Bytes) (i : Nat) : Option Nat :=
  if code.length < i + 2 then none
  else if code.getD i 0 = 0 then (tableUnits code i).map (· * 2)
  else some ((formatOf (code.getD i 0)).units * 2)

/-- An instruction of `code`: reached by the sweep from its start, and whole. -/
def IsInsn (code : Bytes) (i n : Nat) : Prop :=
  Boundary (insnBytes code) i ∧ insnBytes code i = some n ∧ i + n ≤ code.length

/-- The bytes at `i` read as an sget-family instruction that names the field. -/
def IsSget (field : Nat) (code : Bytes) (i : Nat) : Prop :=
  0x60 ≤ code.getD i 0 ∧ code.getD i 0 ≤ 0x66 ∧ leValue (slice code (i + 2) 2) = field

instance (field : Nat) (code : Bytes) (i : Nat) : Decidable (IsSget field code i) :=
  inferInstanceAs (Decidable (_ ∧ _ ∧ _))

def IsTarget (field : Nat) (code : Bytes) (i : Nat) : Prop := IsInsn code i 4 ∧ IsSget field code i

variable {code code' : Bytes} {field i n : Nat}

theorem units_eq (opcode : UInt8) : opcode ≠ 0 → (formatOf opcode).units =
    if OPCODE_LENGTH_CODE_UNITS.getD opcode.toNat 0 = 0 then 1
    else OPCODE_LENGTH_CODE_UNITS.getD opcode.toNat 0 := by
  have h : ∀ k : Fin 256, UInt8.ofNat k ≠ 0 → (formatOf (UInt8.ofNat k)).units =
      if OPCODE_LENGTH_CODE_UNITS.getD (UInt8.ofNat k).toNat 0 = 0 then 1
      else OPCODE_LENGTH_CODE_UNITS.getD (UInt8.ofNat k).toNat 0 := by decide +kernel
  simpa using h ⟨opcode.toNat, opcode.toNat_lt⟩

theorem units_sget (opcode : UInt8) : 0x60 ≤ opcode → opcode ≤ 0x66 → opcode ≠ 0 ∧
    OPCODE_LENGTH_CODE_UNITS.getD opcode.toNat 0 = 2 := by
  have h : ∀ k : Fin 256, 0x60 ≤ UInt8.ofNat k → UInt8.ofNat k ≤ 0x66 → UInt8.ofNat k ≠ 0 ∧
      OPCODE_LENGTH_CODE_UNITS.getD (UInt8.ofNat k).toNat 0 = 2 := by decide +kernel
  simpa using h ⟨opcode.toNat, opcode.toNat_lt⟩

theorem units_pos (f : Format) : 0 < f.units := by cases f <;> decide

theorem toOption_readU16 (code : Bytes) (off : Nat) : (readU16 code off).toOption =
    if code.length < off + 2 then none else some (leValue (slice code off 2)) := by
  unfold readU16
  split <;> rfl

theorem toOption_readU32 (code : Bytes) (off : Nat) : (readU32 code off).toOption =
    if code.length < off + 4 then none else some (leValue (slice code off 4)) := by
  unfold readU32
  split <;> rfl

theorem payloadUnits_eq (code : Bytes) (i : Nat) : payloadUnits code i = tableUnits code i := by
  unfold payloadUnits tableUnits
  rw [toOption_readU16, toOption_readU32]
  by_cases h₄ : code.length < i + 4
  · have h₈ : code.length < i + 8 := by omega
    simp [h₄, h₈, Nat.add_assoc]
  · by_cases h₈ : code.length < i + 8
    · simp [h₄, h₈, Nat.add_assoc, Nat.add_comm 4, Nat.add_comm 2]
    · simp [h₄, h₈, Nat.add_assoc, Nat.add_comm 4, Nat.add_comm 2]

theorem IsSget.insnBytes (h : IsSget field code i) (hi : i + 2 ≤ code.length) :
    insnBytes code i = some 4 := by
  obtain ⟨h0, hu⟩ := units_sget _ h.1 h.2.1
  have hf := units_eq _ h0
  rw [hu, if_neg (by decide)] at hf
  rw [Dex.insnBytes, if_neg (by omega), if_neg h0, hf]

theorem tableUnits_pos (h : tableUnits code i = some n) : 0 < n := by
  unfold tableUnits at h
  dsimp only at h
  split at h
  · obtain ⟨_, _, rfl⟩ := Option.map_eq_some_iff.mp h
    omega
  · split at h
    · obtain ⟨_, _, rfl⟩ := Option.map_eq_some_iff.mp h
      omega
    · split at h
      · obtain ⟨_, _, h⟩ := Option.bind_eq_some_iff.mp h
        obtain ⟨_, _, h⟩ := Option.bind_eq_some_iff.mp h
        cases h
        omega
      · cases h
        decide

theorem two_le_insnBytes (h : insnBytes code i = some n) : 2 ≤ n := by
  unfold insnBytes at h
  split at h
  · cases h
  · split at h
    · obtain ⟨u, hu, rfl⟩ := Option.map_eq_some_iff.mp h
      have := tableUnits_pos hu
      omega
    · cases h
      have := units_pos (formatOf (code.getD i 0))
      omega

theorem IsInsn.sget_length (hi : IsInsn code i n) (hs : IsSget field code i) : n = 4 := by
  have h2 := two_le_insnBytes hi.2.1
  have hfit := hi.2.2
  exact Option.some.inj (hi.2.1.symm.trans (hs.insnBytes (by omega)))

theorem insnBytes_pos (i n : Nat) (h : insnBytes code i = some n) : 0 < n :=
  Nat.lt_of_lt_of_le (by decide) (two_le_insnBytes h)

theorem tableUnits_congr (hl : code'.length = code.length) (hid : code'[i + 1]? = code[i + 1]?)
    (h : ∀ p, i ≤ p → (∀ n, tableUnits code i = some n → p < i + n * 2) → code'[p]? = code[p]?) :
    tableUnits code' i = tableUnits code i := by
  -- the header of a table lies inside the table
  have hs : ∀ k m : Nat, (∀ n, tableUnits code i = some n → k + m ≤ n * 2) →
      slice code' (i + k) m = slice code (i + k) m := by
    intro k m hkm
    apply slice_congr
    intro p hp hq
    apply h p (by omega)
    intro n hn
    have := hkm n hn
    omega
  unfold tableUnits at hs ⊢
  simp only [toOption_readU16, toOption_readU32, getD_congr hid, hl] at hs ⊢
  by_cases h₁ : code.getD (i + 1) 0 = 0x01
  · simp only [if_pos h₁] at hs ⊢
    rw [hs 2 2]
    intro n hn
    obtain ⟨_, _, rfl⟩ := Option.map_eq_some_iff.mp hn
    omega
  · simp only [if_neg h₁] at hs ⊢
    by_cases h₂ : code.getD (i + 1) 0 = 0x02
    · simp only [if_pos h₂] at hs ⊢
      rw [hs 2 2]
      intro n hn
      obtain ⟨_, _, rfl⟩ := Option.map_eq_some_iff.mp hn
      omega
    · simp only [if_neg h₂] at hs ⊢
      by_cases h₃ : code.getD (i + 1) 0 = 0x03
      · simp only [if_pos h₃] at hs ⊢
        rw [hs 2 2, hs 4 4]
        all_goals
          intro n hn
          obtain ⟨_, _, hn⟩ := Option.bind_eq_some_iff.mp hn
          obtain ⟨_, _, hn⟩ := Option.bind_eq_some_iff.mp hn
          cases hn
          omega
      · simp only [if_neg h₃]

/-- The length of an item is read from the item alone. -/
theorem insnBytes_congr (hl : code'.length = code.length)
    (h : ∀ p, i ≤ p → (∀ n, insnBytes code i = some n → p < i + n) → code'[p]? = code[p]?) :
    insnBytes code' i = insnBytes code i := by
  have h2 : ∀ p, i ≤ p → p < i + 2 → code'[p]? = code[p]? := by
    intro p hp hq
    apply h p hp
    intro n hn
    have := two_le_insnBytes hn
    omega
  have h0 := getD_congr (h2 i (by omega) (by omega))
  unfold insnBytes at h ⊢
  rw [hl, h0]
  split
  · rfl
  · rename_i hlen
    split
    · rename_i hop
      congr 1
      apply tableUnits_congr hl (h2 _ (by omega) (by omega))
      intro p hp hn
      apply h p hp
      intro n hsize
      rw [if_neg hlen, if_pos hop] at hsize
      obtain ⟨u, hu, rfl⟩ := Option.map_eq_some_iff.mp hsize
      exact hn u hu
    · rfl

end Aabox.Resigner.Dex
