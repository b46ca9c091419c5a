import Aabox.Lib.Bytes

/-! Protobuf messages whose fields are varints: keys and values in groups of seven bits. -/
namespace Aabox.Lib.Protobuf

variable {n v number : Nat} {bs rest : Bytes}

/-- The base-128 varint of a number, least significant group first. -/
def varint (v : Nat) : Bytes :=
  if v < 128 then [UInt8.ofNat v] else UInt8.ofNat (v % 128 + 128) :: varint (v / 128)

/-- A varint of at most `n` groups, and what comes after it. -/
def takeVarint : Nat → Bytes → Option (Nat × Bytes)
  | 0, _ => none
  | _, [] => none
  | n + 1, b :: bs =>
    if b.toNat < 128 then some (b.toNat, bs)
    else (takeVarint n bs).map fun r => (b.toNat - 128 + 128 * r.1, r.2)

theorem varint_of_lt (h : v < 128) : varint v = [UInt8.ofNat v] := by
  rw [varint, if_pos h]

theorem varint_ne_nil (v : Nat) : varint v ≠ [] := by
  rw [varint]
  split
  · exact List.cons_ne_nil _ _
  · exact List.cons_ne_nil _ _

theorem takeVarint_varint (h : v < 128 ^ (n + 1)) (rest : Bytes) :
    takeVarint (n + 1) (varint v ++ rest) = some (v, rest) := by
  induction n generalizing v with
  | zero =>
    have hlt : v < 128 := by simpa using h
    have hbyte : (UInt8.ofNat v).toNat = v := by
      rw [UInt8.toNat_ofNat']
      omega
    rw [varint_of_lt hlt, List.singleton_append, takeVarint, hbyte, if_pos hlt]
  | succ n ih =>
    rw [varint]
    split
    · rename_i hlt
      have hbyte : (UInt8.ofNat v).toNat = v := by
        rw [UInt8.toNat_ofNat']
        omega
      rw [List.singleton_append, takeVarint, hbyte, if_pos hlt]
    · have hbyte : (UInt8.ofNat (v % 128 + 128)).toNat = v % 128 + 128 := by
        rw [UInt8.toNat_ofNat']
        omega
      have hlt : v / 128 < 128 ^ (n + 1) := by
        rw [Nat.pow_succ] at h
        exact Nat.div_lt_of_lt_mul (by rwa [Nat.mul_comm])
      have hsum : v % 128 + 128 - 128 + 128 * (v / 128) = v := by omega
      rw [List.cons_append, takeVarint, hbyte, if_neg (by omega), ih hlt, Option.map_some, hsum]

/-! ### Fields -/

structure Field where
  number : Nat
  value : Nat
  deriving DecidableEq, Repr

/-- Field numbers start at 1 and have 29 bits, values have 64. -/
structure Field.Valid (f : Field) : Prop where
  number_pos : 1 ≤ f.number
  number_lt : f.number < 2 ^ 29
  value_lt : f.value < 2 ^ 64

/-- The key carries the wire type, which is 0 for a varint. -/
def Field.encode (f : Field) : Bytes := varint (8 * f.number) ++ varint f.value

def takeField (bs : Bytes) : Option (Field × Bytes) :=
  (takeVarint 10 bs).bind fun key =>
    if key.1 % 8 ≠ 0 ∨ key.1 < 8 then none
    else (takeVarint 10 key.2).map fun r => (⟨key.1 / 8, r.1⟩, r.2)

/-- Fields up to the end of the bytes; `fuel` bounds their number. -/
def takeFields : Nat → Bytes → Option (List Field)
  | _, [] => some []
  | 0, _ :: _ => none
  | fuel + 1, b :: bs =>
    (takeField (b :: bs)).bind fun r => (takeFields fuel r.2).map (r.1 :: ·)

def fields (bs : Bytes) : Option (List Field) := takeFields bs.length bs

theorem Field.encode_ne_nil (f : Field) : f.encode ≠ [] := by
  intro h
  exact varint_ne_nil _ (List.append_eq_nil_iff.mp h).1

theorem takeField_encode {f : Field} (hf : f.Valid) (rest : Bytes) :
    takeField (f.encode ++ rest) = some (f, rest) := by
  obtain ⟨hpos, hnumber, hvalue⟩ := hf
  have hkey : 8 * f.number < 128 ^ 10 := by omega
  have hvalue : f.value < 128 ^ 10 := by omega
  rw [takeField, Field.encode, List.append_assoc, takeVarint_varint hkey, Option.bind_some,
    if_neg (by omega), takeVarint_varint hvalue, Option.map_some,
    Nat.mul_div_cancel_left _ (by decide)]

theorem takeFields_flatMap {fuel : Nat} {fs : List Field} (hfs : ∀ f ∈ fs, f.Valid)
    (hfuel : (fs.flatMap Field.encode).length ≤ fuel) :
    takeFields fuel (fs.flatMap Field.encode) = some fs := by
  induction fs generalizing fuel with
  | nil => cases fuel <;> rfl
  | cons f fs ih =>
    rw [List.flatMap_cons, List.length_append] at hfuel
    have hpos := List.length_pos_iff.mpr f.encode_ne_nil
    obtain _ | fuel := fuel
    · omega
    obtain ⟨b, bs, hcons⟩ := List.exists_cons_of_ne_nil f.encode_ne_nil
    have htail : takeFields fuel (fs.flatMap Field.encode) = some fs :=
      ih (fun g hg => hfs g (List.mem_cons_of_mem _ hg)) (by omega)
    rw [List.flatMap_cons, hcons, List.cons_append, takeFields, ← List.cons_append, ← hcons,
      takeField_encode (hfs f (List.mem_cons_self ..)), Option.bind_some, htail, Option.map_some]

/-- A sequence of encoded fields reads back as the fields. -/
theorem fields_flatMap {fs : List Field} (hfs : ∀ f ∈ fs, f.Valid) :
    fields (fs.flatMap Field.encode) = some fs :=
  takeFields_flatMap hfs (Nat.le_refl _)

/-! ### Scalar fields of a message -/

/-- The last of several values counts; a field that is absent is 0. -/
def lastValue (number : Nat) (fs : List Field) : Nat :=
  ((fs.reverse.find? fun f => f.number = number).map Field.value).getD 0

/-- An `int32` is the low 32 bits, in two's complement. -/
def int32 (v : Nat) : Int :=
  let low : Nat := v % 2 ^ 32
  if low < 2 ^ 31 then low else (low : Int) - 2 ^ 32

theorem int32_of_lt (h : v < 2 ^ 31) : int32 v = v := by
  have hlow : v % 2 ^ 32 = v := by omega
  unfold int32
  rw [hlow, if_pos h]

end Aabox.Lib.Protobuf
