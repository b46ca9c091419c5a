import Aabox.Resigner.Complete

/-!
The patcher in a checked build. `none` is a panic: a sum or product that does not fit its type, or
an index out of range. Counters of turns are plain numbers.
-/
namespace Aabox.Resigner.Dex.Checked
open Aabox.Lib

def fits (w n : Nat) : Option Nat := if n < 2 ^ w then some n else none

def addU32 (a b : Nat) : Option Nat := fits 32 (a + b)
def mulU32 (a b : Nat) : Option Nat := fits 32 (a * b)
def addUsize (a b : Nat) : Option Nat := fits 64 (a + b)
def mulUsize (a b : Nat) : Option Nat := fits 64 (a * b)

/-- A shift panics only where it is by as many bits as there are. -/
def shlU32 (a shift : Nat) : Option Nat := if shift < 32 then some (u32 (a <<< shift)) else none

/-- `bs[i]` -/
def byteAt (bs : Bytes) (i : Nat) : Option UInt8 := bs[i]?

/-- `[bs[off], .., bs[off + n - 1]]` -/
def bytesAt (bs : Bytes) (off n : Nat) : Option Bytes := (List.range' off n).mapM (byteAt bs)

/-- `&bs[start..stop]` -/
def subslice (bs : Bytes) (start stop : Nat) : Option Bytes :=
  if start ≤ stop ∧ stop ≤ bs.length then some (slice bs start (stop - start)) else none

/-- Writes to `bs[off]` and the places after it. -/
def writeAt (bs : Bytes) (off : Nat) (ys : Bytes) : Option Bytes :=
  if off + ys.length ≤ bs.length then some (splice bs off ys) else none

abbrev MayPanic (α : Type) := ExceptT String Option α

/-! ### Primitives and header -/

def readU16 (buf : Bytes) (off : Nat) : MayPanic Nat := do
  let stop ← addUsize off 2
  if buf.length < stop then throw s!"read_u16 out of bounds @ {off}"
  else
    let bytes ← bytesAt buf off 2
    return leValue bytes

def readU32 (buf : Bytes) (off : Nat) : MayPanic Nat := do
  let stop ← addUsize off 4
  if buf.length < stop then throw s!"read_u32 out of bounds @ {off}"
  else
    let bytes ← bytesAt buf off 4
    return leValue bytes

def ulebLoop (buf : Bytes) (off : Nat) : Nat → Nat → Nat → Nat → MayPanic (Nat × Nat)
  | 0, _, _, _ => throw s!"uleb128 overflow @ {off}"
  | n + 1, p, shift, result => do
    if buf.length ≤ p then throw s!"uleb128 truncated @ {off}"
    else
      let byte ← byteAt buf p
      let p ← addUsize p 1
      let bits ← shlU32 (byte.toNat &&& 0x7f) shift
      let result := result ||| bits
      if byte &&& 0x80 = 0 then return (p, result)
      else ulebLoop buf off n p (shift + 7) result

def readUleb128 (buf : Bytes) (off : Nat) : MayPanic (Nat × Nat) := ulebLoop buf off 5 off 0 0

def parse (dex : Bytes) : MayPanic DexHeader := do
  if dex.length < 0x70 then throw s!"dex too short ({dex.length} bytes)"
  else
    let magic ← subslice dex 0 4
    if magic ≠ DEX_MAGIC_PREFIX then throw "not a DEX file (bad magic)"
    else
      let endian ← readU32 dex 0x28
      if endian ≠ ENDIAN_CONSTANT then throw s!"unsupported DEX endian: 0x{hex endian}"
      else return {
        string_ids_size := ← readU32 dex 0x38
        string_ids_off := ← readU32 dex 0x3c
        type_ids_size := ← readU32 dex 0x40
        type_ids_off := ← readU32 dex 0x44
        field_ids_size := ← readU32 dex 0x50
        field_ids_off := ← readU32 dex 0x54
        class_defs_size := ← readU32 dex 0x60
        class_defs_off := ← readU32 dex 0x64 }

/-! ### String, type and field lookups -/

/-- `off + i * size`, in 32 bits. -/
def tableEntry (off i size : Nat) : Option Nat := do
  let before ← mulU32 i size
  addU32 off before

def findEntry (isIt : Nat → MayPanic Bool) : Nat → Nat → MayPanic (Option Nat)
  | 0, _ => return none
  | n + 1, i => do
    let found ← isIt i
    if found then return some i else findEntry isIt n (i + 1)

def isString (dex : Bytes) (h : DexHeader) (needle : Bytes) (i : Nat) : MayPanic Bool := do
  let entry ← tableEntry h.string_ids_off i 4
  let data_off ← readU32 dex entry
  let (str_start, _) ← readUleb128 dex data_off
  let stop ← addUsize str_start needle.length
  if dex.length < stop then return false
  else
    let bytes ← subslice dex str_start stop
    return bytes = needle ∧ dex[stop]? = some 0

def findStringIdx (dex : Bytes) (h : DexHeader) (needle : Bytes) : MayPanic (Option Nat) :=
  findEntry (isString dex h needle) h.string_ids_size 0

def isType (dex : Bytes) (h : DexHeader) (descriptor : Nat) (i : Nat) : MayPanic Bool := do
  let entry ← tableEntry h.type_ids_off i 4
  let s ← readU32 dex entry
  return s = descriptor

def findTypeIdx (dex : Bytes) (h : DexHeader) (descriptor : Nat) : MayPanic (Option Nat) :=
  findEntry (isType dex h descriptor) h.type_ids_size 0

def isField (dex : Bytes) (h : DexHeader) (id : Nat × Nat × Nat) (i : Nat) : MayPanic Bool := do
  let entry ← tableEntry h.field_ids_off i 8
  let class_idx ← readU16 dex entry
  let type_at ← addUsize entry 2
  let t_idx ← readU16 dex type_at
  let name_at ← addUsize entry 4
  let n_idx ← readU32 dex name_at
  return (class_idx, t_idx, n_idx) = id

def findFieldIdx (dex : Bytes) (h : DexHeader) (class_type_idx name_string_idx type_idx : Nat) :
    MayPanic (Option Nat) :=
  if 0xffff < class_type_idx ∨ 0xffff < type_idx then throw "type idx out of u16 range"
  else findEntry (isField dex h (class_type_idx, type_idx, name_string_idx)) h.field_ids_size 0

def locateSdkInt (dex : Bytes) : MayPanic (Option (DexHeader × Nat)) := do
  let h ← parse dex
  let some sdk_int_str ← findStringIdx dex h SDK_INT | return none
  let some i_str ← findStringIdx dex h INT | return none
  let some build_ver_str ← findStringIdx dex h BUILD_VERSION | return none
  let some i_type ← findTypeIdx dex h i_str | return none
  let some build_ver_type ← findTypeIdx dex h build_ver_str | return none
  let some field_idx ← findFieldIdx dex h build_ver_type sdk_int_str i_type | return none
  return some (h, field_idx)

/-! ### Instruction stream rewrite -/

def payloadUnits (insns : Bytes) (i : Nat) : Option (Option Nat) := do
  let ident ← byteAt insns (i + 1)
  if ident = 0x01 then
    let stop ← addUsize i 4
    if insns.length < stop then return none
    else
      let size ← bytesAt insns (i + 2) 2
      let doubled ← mulUsize (leValue size) 2
      return some (← addUsize 4 doubled)
  else if ident = 0x02 then
    let stop ← addUsize i 4
    if insns.length < stop then return none
    else
      let size ← bytesAt insns (i + 2) 2
      let doubled ← mulUsize (leValue size) 4
      return some (← addUsize 2 doubled)
  else if ident = 0x03 then
    let stop ← addUsize i 8
    if insns.length < stop then return none
    else
      let element_width ← bytesAt insns (i + 2) 2
      let size ← bytesAt insns (i + 4) 4
      let data_bytes ← mulUsize (leValue size) (leValue element_width)
      let rounded ← addUsize data_bytes 1
      return some (← addUsize 4 (rounded / 2))
  else return some 1

def rewriteStep (target_field_idx : Nat) (s : SgetLoop) :
    Option (SgetLoop ⊕ (Bytes × DexPatchResult)) := do
  let insns := s.insns
  let i := s.i
  let stop ← addUsize i 2
  if insns.length < stop then return .inr (insns, s.out)
  else
    let opcode ← byteAt insns i
    if opcode = 0x00 then
      match ← payloadUnits insns i with
      | none => return .inr (insns, s.out)
      | some units =>
        let i ← addUsize i (← mulUsize units 2)
        return .inl { s with i := i }
    else
      let units ← OPCODE_LENGTH_CODE_UNITS[opcode.toNat]?
      if units = 0 then
        let i ← addUsize i 2
        return .inl { s with i := i }
      else
        let inst_bytes ← mulUsize units 2
        let stop ← addUsize i inst_bytes
        if insns.length < stop then return .inr (insns, s.out)
        else if 0x60 ≤ opcode ∧ opcode ≤ 0x66 ∧ inst_bytes = 4 then
          let field_idx ← bytesAt insns (i + 2) 2
          if leValue field_idx = target_field_idx then
            let v_aa ← byteAt insns (i + 1)
            let insns ← writeAt insns i (const16 v_aa)
            return .inl {
              i := stop
              insns := insns
              out := ⟨s.out.patches + 1, s.out.bytes_rewritten + 4⟩ }
          else return .inl { s with i := stop }
        else return .inl { s with i := stop }

def rewriteLoop (target_field_idx : Nat) : Nat → SgetLoop → Option (Bytes × DexPatchResult)
  | 0, s => some (s.insns, s.out)
  | fuel + 1, s => do
    match ← rewriteStep target_field_idx s with
    | .inl s => rewriteLoop target_field_idx fuel s
    | .inr r => return r

def rewriteSgetInInsns (insns : Bytes) (target_field_idx : Nat) (out : DexPatchResult) :
    Option (Bytes × DexPatchResult) :=
  rewriteLoop target_field_idx (insns.length + 1) ⟨0, insns, out⟩

/-! ### Code item walker -/

def skipFields (dex : Bytes) : Nat → Nat → MayPanic Nat
  | 0, p => return p
  | n + 1, p => do
    let (p, _) ← readUleb128 dex p
    let (p, _) ← readUleb128 dex p
    skipFields dex n p

def methodCode (dex : Bytes) (p : Nat) : MayPanic (Nat × Nat) := do
  let (p, _) ← readUleb128 dex p
  let (p, _) ← readUleb128 dex p
  readUleb128 dex p

def insnsRange (dex : Bytes) (code_off : Nat) : MayPanic (Nat × Nat) := do
  let size_at ← addUsize code_off 12
  let insns_size ← readU32 dex size_at
  let insns_byte_start ← addUsize code_off 16
  let byte_size ← mulUsize insns_size 2
  match fits 64 (insns_byte_start + byte_size) with
  | none => throw "insns size overflow"
  | some insns_byte_end =>
    if dex.length < insns_byte_end then
      throw s!"code_item @ {code_off} insns out of bounds (end {insns_byte_end} > dex {dex.length})"
    else return (insns_byte_start, byte_size)

def visit (field_idx : Nat) (r : Nat × Nat) (b : Bytes × DexPatchResult) :
    Option (Bytes × DexPatchResult) := do
  let insns ← subslice b.1 r.1 (r.1 + r.2)
  let out ← rewriteSgetInInsns insns field_idx b.2
  return (splice b.1 r.1 out.1, out.2)

def walkMethods (field_idx : Nat) : Nat → Nat → Nat → Bytes × DexPatchResult →
    Option (Except String Nat × Bytes × DexPatchResult)
  | 0, _, methods_walked, b => return (.ok methods_walked, b)
  | n + 1, p, methods_walked, b => do
    match ← (methodCode b.1 p).run with
    | .error e => return (.error e, b)
    | .ok (p, code_off) =>
      if code_off = 0 then walkMethods field_idx n p methods_walked b
      else
        match ← (insnsRange b.1 code_off).run with
        | .error e => return (.error e, b)
        | .ok r =>
          let b ← visit field_idx r b
          walkMethods field_idx n p (methods_walked + 1) b

/-- Where the counts of a class end, and the counts: static and instance fields, direct and virtual
methods. -/
def classCounts (dex : Bytes) (class_data_off : Nat) : MayPanic (Nat × Nat × Nat × Nat × Nat) := do
  let (p, static_fields_size) ← readUleb128 dex class_data_off
  let (p, instance_fields_size) ← readUleb128 dex p
  let (p, direct_methods_size) ← readUleb128 dex p
  let (p, virtual_methods_size) ← readUleb128 dex p
  return (p, static_fields_size, instance_fields_size, direct_methods_size, virtual_methods_size)

def classDataMethods (dex : Bytes) (class_data_off : Nat) : MayPanic (Nat × Nat) := do
  let (p, static_fields_size, instance_fields_size, direct_methods_size, virtual_methods_size) ←
    classCounts dex class_data_off
  let fields ← addU32 static_fields_size instance_fields_size
  let p ← skipFields dex fields p
  let total_methods ← addU32 direct_methods_size virtual_methods_size
  return (p, total_methods)

def walkOneClassData (field_idx class_data_off : Nat) (b : Bytes × DexPatchResult) :
    Option (Except String Nat × Bytes × DexPatchResult) := do
  match ← (classDataMethods b.1 class_data_off).run with
  | .error e => return (.error e, b)
  | .ok (p, total_methods) => walkMethods field_idx total_methods p 0 b

def walkClass (h : DexHeader) (field_idx : Nat) (b : Bytes × DexPatchResult) (i : Nat) :
    Option (Bytes × DexPatchResult) := do
  let cd_off ← tableEntry h.class_defs_off i 32
  let data_at ← addUsize cd_off 24
  match ← (readU32 b.1 data_at).run with
  | .error _ => return b
  | .ok class_data_off =>
    if class_data_off = 0 then return b
    else
      let walked ← walkOneClassData field_idx class_data_off b
      return walked.2

def walkCodeItems (h : DexHeader) (field_idx : Nat) (b : Bytes × DexPatchResult) :
    Option (Bytes × DexPatchResult) :=
  (List.range h.class_defs_size).foldlM (walkClass h field_idx) b

/-! ### Header checksums and entry point -/

def adlerStep (sums : Nat × Nat) (byte : UInt8) : Option (Nat × Nat) := do
  let a ← addU32 sums.1 byte.toNat
  let a := a % MOD_ADLER
  let b ← addU32 sums.2 a
  return (a, b % MOD_ADLER)

def adler32 (buf : Bytes) : Option Nat := do
  let sums ← buf.foldlM adlerStep (1, 0)
  let high ← shlU32 sums.2 16
  return high ||| sums.1

def recomputeHeaderChecksums (sha1 : Sha1) (dex : Bytes) :
    Option (Except String Unit × Bytes) := do
  if dex.length < 32 then return (.error "dex too short for header recompute", dex)
  else
    let signed ← subslice dex 32 dex.length
    let dex ← writeAt dex 12 (sha1 signed).val
    let summed ← subslice dex 12 dex.length
    let adler ← adler32 summed
    let dex ← writeAt dex 8 (leBytes 4 adler)
    return (.ok (), dex)

def patchDex (sha1 : Sha1) (dex : Bytes) : Option (Except String DexPatchResult × Bytes) := do
  match ← (locateSdkInt dex).run with
  | .error e => return (.error e, dex)
  | .ok none => return (.ok .default, dex)
  | .ok (some (h, field_idx)) =>
    let (dex, result) ← walkCodeItems h field_idx (dex, .default)
    if 0 < result.patches then
      match ← recomputeHeaderChecksums sha1 dex with
      | (.error e, dex) => return (.error e, dex)
      | (.ok (), dex) => return (.ok result, dex)
    else return (.ok result, dex)

/-! ### Steps that do not panic -/

variable {α β : Type} {o : Option α} {a : α} {x : MayPanic α} {f : α → MayPanic β}
  {r : Except String α} {g : α → Except String β} {bs buf dex : Bytes}
  {off n p start stop : Nat}

theorem addU32_eq {a b : Nat} (h : a + b < 2 ^ 32) : addU32 a b = some (a + b) := if_pos h

theorem mulU32_eq {a b : Nat} (h : a * b < 2 ^ 32) : mulU32 a b = some (a * b) := if_pos h

theorem addUsize_eq {a b : Nat} (h : a + b < 2 ^ 64) : addUsize a b = some (a + b) := if_pos h

theorem mulUsize_eq {a b : Nat} (h : a * b < 2 ^ 64) : mulUsize a b = some (a * b) := if_pos h

theorem byteAt_eq {i : Nat} (h : i < bs.length) : byteAt bs i = some bs[i] :=
  List.getElem?_eq_getElem h

theorem bytesAt_eq (h : off + n ≤ bs.length) : bytesAt bs off n = some (slice bs off n) := by
  induction n generalizing off with
  | zero => simp [bytesAt, slice]
  | succ n ih =>
    have hlt : off < bs.length := by omega
    have hslice : slice bs off (n + 1) = bs[off] :: slice bs (off + 1) n := by
      rw [slice, List.drop_eq_getElem_cons hlt, List.take_succ_cons]
      rfl
    have htail := ih (show off + 1 + n ≤ bs.length by omega)
    rw [bytesAt] at htail
    rw [bytesAt, List.range'_succ, List.mapM_cons, byteAt, List.getElem?_eq_getElem hlt, htail,
      hslice]
    rfl

theorem subslice_eq (h : start ≤ stop) (h' : stop ≤ bs.length) :
    subslice bs start stop = some (slice bs start (stop - start)) := if_pos ⟨h, h'⟩

theorem writeAt_eq {ys : Bytes} (h : off + ys.length ≤ bs.length) :
    writeAt bs off ys = some (splice bs off ys) := if_pos h

/-- A step that panics nowhere and then does what the release build does. -/
theorem run_bind (hx : x.run = some r) (hf : ∀ a, r = .ok a → (f a).run = some (g a)) :
    (x >>= f).run = some (r >>= g) := by
  rw [ExceptT.run_bind, hx]
  cases r with
  | error e => rfl
  | ok a => exact hf a rfl

theorem run_lift (h : o = some a) :
    ((liftM o : MayPanic α) >>= f).run = (f a).run := by
  rw [h]
  rfl

theorem readU16_eq (h : off + 2 < 2 ^ 64) : (readU16 buf off).run = some (Dex.readU16 buf off) := by
  rw [readU16, Dex.readU16, run_lift (addUsize_eq h)]
  by_cases hlen : buf.length < off + 2
  · rw [if_pos hlen, if_pos hlen]
    rfl
  · rw [if_neg hlen, if_neg hlen, run_lift (bytesAt_eq (by omega))]
    rfl

theorem readU32_eq (h : off + 4 < 2 ^ 64) : (readU32 buf off).run = some (Dex.readU32 buf off) := by
  rw [readU32, Dex.readU32, run_lift (addUsize_eq h)]
  by_cases hlen : buf.length < off + 4
  · rw [if_pos hlen, if_pos hlen]
    rfl
  · rw [if_neg hlen, if_neg hlen, run_lift (bytesAt_eq (by omega))]
    rfl

theorem ulebLoop_eq {shift result : Nat} (hp : p + n < 2 ^ 64) (hs : shift + 7 * n ≤ 35) :
    (ulebLoop buf off n p shift result).run = some (Dex.ulebLoop buf off n p shift result) := by
  induction n generalizing p shift result with
  | zero => rfl
  | succ n ih =>
    rw [ulebLoop, Dex.ulebLoop]
    by_cases hlen : buf.length ≤ p
    · rw [if_pos hlen, List.getElem?_eq_none hlen]
      rfl
    · have hget := List.getElem?_eq_getElem (Nat.lt_of_not_le hlen)
      have hone : addUsize p 1 = some (p + 1) := addUsize_eq (by omega)
      have hshift : shlU32 (buf[p].toNat &&& 0x7f) shift =
          some (u32 ((buf[p].toNat &&& 0x7f) <<< shift)) := if_pos (by omega)
      rw [if_neg hlen, hget, run_lift (byteAt_eq (Nat.lt_of_not_le hlen)), run_lift hone,
        run_lift hshift]
      dsimp only
      split
      · rfl
      · exact ih (by omega) (by omega)

theorem readUleb128_eq (h : off + 5 < 2 ^ 64) :
    (readUleb128 buf off).run = some (Dex.readUleb128 buf off) :=
  ulebLoop_eq h (by omega)

theorem readU32_ok_lt {v : Nat} (h : Dex.readU32 buf off = .ok v) :
    off + 4 ≤ buf.length ∧ v < 2 ^ 32 := by
  unfold Dex.readU32 at h
  split at h
  · cases h
  · cases h
    exact ⟨by omega, leValue_slice_lt buf off 4⟩

theorem ulebLoop_lt {shift result q v : Nat} (hr : result < 2 ^ 32)
    (h : Dex.ulebLoop buf off n p shift result = .ok (q, v)) : v < 2 ^ 32 := by
  induction n generalizing p shift result with
  | zero => cases h
  | succ n ih =>
    unfold Dex.ulebLoop at h
    split at h
    · cases h
    · dsimp only at h
      have hor : ∀ b : Nat, result ||| u32 b < 2 ^ 32 := by
        intro b
        exact Nat.or_lt_two_pow hr (Nat.mod_lt _ (by decide))
      split at h
      · cases h
        exact hor _
      · exact ih (hor _) h

theorem readUleb128_lt {q v : Nat} (h : Dex.readUleb128 buf off = .ok (q, v)) :
    q ≤ buf.length ∧ v < 2 ^ 32 :=
  ⟨(readUleb128_bounds h).2, ulebLoop_lt (by decide) h⟩

theorem parse_eq (dex : Bytes) : (parse dex).run = some (DexHeader.parse dex) := by
  unfold parse DexHeader.parse
  by_cases hlen : dex.length < 0x70
  · rw [if_pos hlen, if_pos hlen]
    rfl
  · rw [if_neg hlen, if_neg hlen, run_lift (subslice_eq (by omega) (by omega))]
    by_cases hmagic : slice dex 0 4 ≠ DEX_MAGIC_PREFIX
    · rw [if_pos hmagic, if_pos hmagic]
      rfl
    · rw [if_neg hmagic, if_neg hmagic]
      refine run_bind (readU32_eq (by omega)) fun endian _ => ?_
      by_cases hend : endian ≠ ENDIAN_CONSTANT
      · rw [if_pos hend, if_pos hend]
        rfl
      · rw [if_neg hend, if_neg hend]
        refine run_bind (readU32_eq (by omega)) fun _ _ => ?_
        refine run_bind (readU32_eq (by omega)) fun _ _ => ?_
        refine run_bind (readU32_eq (by omega)) fun _ _ => ?_
        refine run_bind (readU32_eq (by omega)) fun _ _ => ?_
        refine run_bind (readU32_eq (by omega)) fun _ _ => ?_
        refine run_bind (readU32_eq (by omega)) fun _ _ => ?_
        refine run_bind (readU32_eq (by omega)) fun _ _ => ?_
        exact run_bind (readU32_eq (by omega)) fun _ _ => rfl

/-- The offsets in a header are values of 32 bits. -/
theorem parse_lt {h : DexHeader} (hp : DexHeader.parse dex = .ok h) :
    h.string_ids_off < 2 ^ 32 ∧ h.type_ids_off < 2 ^ 32 ∧ h.field_ids_off < 2 ^ 32 ∧
      h.class_defs_off < 2 ^ 32 := by
  unfold DexHeader.parse at hp
  obtain ⟨_, hp⟩ := throw_bind_eq_ok.mp hp
  obtain ⟨_, hp⟩ := throw_bind_eq_ok.mp hp
  obtain ⟨_, _, hp⟩ := bind_eq_ok.mp hp
  obtain ⟨_, hp⟩ := throw_bind_eq_ok.mp hp
  obtain ⟨_, _, hp⟩ := bind_eq_ok.mp hp
  obtain ⟨_, hstring, hp⟩ := bind_eq_ok.mp hp
  obtain ⟨_, _, hp⟩ := bind_eq_ok.mp hp
  obtain ⟨_, htype, hp⟩ := bind_eq_ok.mp hp
  obtain ⟨_, _, hp⟩ := bind_eq_ok.mp hp
  obtain ⟨_, hfield, hp⟩ := bind_eq_ok.mp hp
  obtain ⟨_, _, hp⟩ := bind_eq_ok.mp hp
  obtain ⟨_, hclass, hp⟩ := bind_eq_ok.mp hp
  cases hp
  exact ⟨(readU32_ok_lt hstring).2, (readU32_ok_lt htype).2, (readU32_ok_lt hfield).2,
    (readU32_ok_lt hclass).2⟩

/-! ### The lookups -/

theorem tableEntry_eq {i size : Nat} (h : off + i * size < 2 ^ 32) :
    tableEntry off i size = some (off + i * size) := by
  rw [tableEntry, mulU32_eq (by omega)]
  exact addU32_eq h

/-- A search that stops at the first entry it cannot read stays below the end of the file. -/
theorem findEntry_eq {isIt : Nat → MayPanic Bool} {isIt' : Nat → Except String Bool}
    {P : Nat → Prop} (heq : ∀ i, P i → (isIt i).run = some (isIt' i))
    (hnext : ∀ i, P i → isIt' i = .ok false → P (i + 1)) {i : Nat} (hi : P i) :
    (findEntry isIt n i).run = some (Dex.findEntry isIt' n i) := by
  induction n generalizing i with
  | zero => rfl
  | succ n ih =>
    rw [findEntry, ExceptT.run_bind, heq i hi, Dex.findEntry]
    cases hfound : isIt' i with
    | error e => rfl
    | ok found =>
      cases found with
      | true => rfl
      | false => exact ih (hnext i hi hfound)

variable {h : DexHeader} {needle : Bytes} {i : Nat}

theorem isString_eq (hlen : dex.length < 2 ^ 32) (hn : needle.length < 2 ^ 32)
    (hi : h.string_ids_off + i * 4 < 2 ^ 32) :
    (isString dex h needle i).run = some (Dex.isString dex h needle i) := by
  rw [isString, Dex.isString, run_lift (tableEntry_eq hi), u32_of_lt hi]
  refine run_bind (readU32_eq (by omega)) fun data_off hread => ?_
  have hoff := (readU32_ok_lt hread).2
  refine run_bind (readUleb128_eq (by omega)) fun r hstr => ?_
  obtain ⟨str_start, _⟩ := r
  have hle := (readUleb128_bounds hstr).2
  have hstop : addUsize str_start needle.length = some (str_start + needle.length) :=
    addUsize_eq (by omega)
  dsimp only
  rw [run_lift hstop]
  by_cases hfit : dex.length < str_start + needle.length
  · rw [if_pos hfit, if_pos hfit]
    rfl
  · rw [if_neg hfit, if_neg hfit, run_lift (subslice_eq (by omega) (by omega)),
      Nat.add_sub_cancel_left]
    rfl

theorem findStringIdx_eq (hlen : dex.length < 2 ^ 32) (hn : needle.length < 2 ^ 32)
    (hoff : h.string_ids_off < 2 ^ 32) :
    (findStringIdx dex h needle).run = some (Dex.findStringIdx dex h needle) := by
  apply findEntry_eq (P := fun i => h.string_ids_off + i * 4 < 2 ^ 32)
  · exact fun i hi => isString_eq hlen hn hi
  · intro i hi hno
    rw [Dex.isString, u32_of_lt hi] at hno
    obtain ⟨_, hread, _⟩ := bind_eq_ok.mp hno
    have := (readU32_ok_lt hread).1
    omega
  · omega

theorem isType_eq {descriptor : Nat} (hi : h.type_ids_off + i * 4 < 2 ^ 32) :
    (isType dex h descriptor i).run = some (Dex.isType dex h descriptor i) := by
  rw [isType, Dex.isType, run_lift (tableEntry_eq hi), u32_of_lt hi]
  exact run_bind (readU32_eq (by omega)) fun _ _ => rfl

theorem findTypeIdx_eq {descriptor : Nat} (hlen : dex.length < 2 ^ 32)
    (hoff : h.type_ids_off < 2 ^ 32) :
    (findTypeIdx dex h descriptor).run = some (Dex.findTypeIdx dex h descriptor) := by
  apply findEntry_eq (P := fun i => h.type_ids_off + i * 4 < 2 ^ 32)
  · exact fun i hi => isType_eq hi
  · intro i hi hno
    rw [Dex.isType, u32_of_lt hi] at hno
    obtain ⟨_, hread, _⟩ := bind_eq_ok.mp hno
    have := (readU32_ok_lt hread).1
    omega
  · omega

theorem isField_eq {id : Nat × Nat × Nat} (hi : h.field_ids_off + i * 8 < 2 ^ 32) :
    (isField dex h id i).run = some (Dex.isField dex h id i) := by
  have htype : addUsize (h.field_ids_off + i * 8) 2 = some (h.field_ids_off + i * 8 + 2) :=
    addUsize_eq (by omega)
  have hname : addUsize (h.field_ids_off + i * 8) 4 = some (h.field_ids_off + i * 8 + 4) :=
    addUsize_eq (by omega)
  rw [isField, Dex.isField, Dex.fieldId, run_lift (tableEntry_eq hi), u32_of_lt hi, bind_assoc]
  refine run_bind (readU16_eq (by omega)) fun class_idx _ => ?_
  rw [run_lift htype, bind_assoc]
  refine run_bind (readU16_eq (by omega)) fun t_idx _ => ?_
  rw [run_lift hname, bind_assoc]
  exact run_bind (readU32_eq (by omega)) fun n_idx _ => rfl

theorem findFieldIdx_eq {class_type_idx name_string_idx type_idx : Nat}
    (hlen : dex.length < 2 ^ 32) (hoff : h.field_ids_off < 2 ^ 32) :
    (findFieldIdx dex h class_type_idx name_string_idx type_idx).run =
      some (Dex.findFieldIdx dex h class_type_idx name_string_idx type_idx) := by
  unfold findFieldIdx Dex.findFieldIdx
  split
  · rfl
  · apply findEntry_eq (P := fun i => h.field_ids_off + i * 8 < 2 ^ 32)
    · exact fun i hi => isField_eq hi
    · intro i hi hno
      rw [Dex.isField, Dex.fieldId, u32_of_lt hi] at hno
      obtain ⟨_, hid, _⟩ := bind_eq_ok.mp hno
      obtain ⟨_, _, hid⟩ := bind_eq_ok.mp hid
      obtain ⟨_, _, hid⟩ := bind_eq_ok.mp hid
      obtain ⟨_, hread, _⟩ := bind_eq_ok.mp hid
      have := (readU32_ok_lt hread).1
      omega
    · omega

theorem locateSdkInt_eq (hlen : dex.length < 2 ^ 32) :
    (locateSdkInt dex).run = some (Dex.locateSdkInt dex) := by
  unfold locateSdkInt Dex.locateSdkInt
  refine run_bind (parse_eq dex) fun h hp => ?_
  obtain ⟨hstring, htype, hfield, _⟩ := parse_lt hp
  refine run_bind (findStringIdx_eq hlen (by decide) hstring) fun sdk_int_str _ => ?_
  rcases sdk_int_str with _ | sdk_int_str
  · rfl
  refine run_bind (findStringIdx_eq hlen (by decide) hstring) fun i_str _ => ?_
  rcases i_str with _ | i_str
  · rfl
  refine run_bind (findStringIdx_eq hlen (by decide) hstring) fun build_ver_str _ => ?_
  rcases build_ver_str with _ | build_ver_str
  · rfl
  refine run_bind (findTypeIdx_eq hlen htype) fun i_type _ => ?_
  rcases i_type with _ | i_type
  · rfl
  refine run_bind (findTypeIdx_eq hlen htype) fun build_ver_type _ => ?_
  rcases build_ver_type with _ | build_ver_type
  · rfl
  refine run_bind (findFieldIdx_eq hlen hfield) fun field_idx _ => ?_
  rcases field_idx with _ | field_idx
  · rfl
  · rfl

/-! ### The rewrite loop -/

variable {insns : Bytes} {field_idx : Nat} {s : SgetLoop} {out : DexPatchResult}

theorem bind_some {k : α → Option β} (h : o = some a) : (o >>= k) = k a := by
  rw [h]
  rfl

/-- The two switch payloads: a size, and so many entries of `scale` units behind `head` others. -/
theorem switchUnits_eq {head scale : Nat} (hhead : head ≤ 4) (hscale : scale ≤ 4)
    (hi : i + 2 ≤ insns.length) (hlen : insns.length < 2 ^ 32) :
    (do
      let stop ← addUsize i 4
      if insns.length < stop then return none
      else
        let size ← bytesAt insns (i + 2) 2
        let scaled ← mulUsize (leValue size) scale
        return some (← addUsize head scaled) : Option (Option Nat)) =
      some (if insns.length < i + 4 then none
        else some (head + leValue (slice insns (i + 2) 2) * scale)) := by
  have hsize := leValue_slice_lt insns (i + 2) 2
  have hscaled := Nat.mul_le_mul (Nat.le_of_lt hsize) hscale
  rw [bind_some (addUsize_eq (show i + 4 < 2 ^ 64 by omega))]
  split
  · rfl
  · rw [bind_some (bytesAt_eq (by omega)), bind_some (mulUsize_eq (by omega)),
      bind_some (addUsize_eq (by omega))]
    rfl

theorem payloadUnits_eq (hi : i + 2 ≤ insns.length) (hlen : insns.length < 2 ^ 32) :
    payloadUnits insns i = some (Dex.payloadUnits insns i) := by
  have hsize := leValue_slice_lt insns (i + 2) 2
  have hident : insns.getD (i + 1) 0 = insns[i + 1] := by
    rw [List.getD_eq_getElem?_getD, List.getElem?_eq_getElem (by omega)]
    rfl
  unfold payloadUnits Dex.payloadUnits
  rw [bind_some (byteAt_eq (show i + 1 < insns.length by omega)), hident]
  dsimp only
  split
  · exact switchUnits_eq (by decide) (by decide) hi hlen
  · split
    · exact switchUnits_eq (by decide) (by decide) hi hlen
    · split
      · have hwide := leValue_slice_lt insns (i + 4) 4
        have hprod : leValue (slice insns (i + 4) 4) * leValue (slice insns (i + 2) 2) <
            256 ^ 4 * 256 ^ 2 := Nat.mul_lt_mul'' hwide hsize
        rw [bind_some (addUsize_eq (show i + 8 < 2 ^ 64 by omega))]
        split
        · rfl
        · rw [bind_some (bytesAt_eq (by omega)), bind_some (bytesAt_eq (by omega)),
            bind_some (mulUsize_eq (by omega)), bind_some (addUsize_eq (by omega)),
            bind_some (addUsize_eq (by omega))]
          rfl
      · rfl

theorem payloadUnits_lt {u : Nat} (h : Dex.payloadUnits insns i = some u) : u < 2 ^ 48 := by
  have hsize := leValue_slice_lt insns (i + 2) 2
  have hwide := leValue_slice_lt insns (i + 4) 4
  have hprod : leValue (slice insns (i + 4) 4) * leValue (slice insns (i + 2) 2) <
      256 ^ 4 * 256 ^ 2 := Nat.mul_lt_mul'' hwide hsize
  unfold Dex.payloadUnits at h
  dsimp only at h
  split at h
  · split at h
    · cases h
    · cases h
      omega
  · split at h
    · split at h
      · cases h
      · cases h
        omega
    · split at h
      · split at h
        · cases h
        · cases h
          omega
      · cases h
        decide

theorem insnBytes_lt (h : insnBytes insns i = some n) : n < 2 ^ 49 := by
  unfold insnBytes at h
  split at h
  · cases h
  · split at h
    · obtain ⟨u, hu, rfl⟩ := Option.map_eq_some_iff.mp h
      rw [← Dex.payloadUnits_eq] at hu
      have := payloadUnits_lt hu
      omega
    · cases h
      cases formatOf (insns.getD i 0) <;> decide

theorem opcode_units (opcode : UInt8) : OPCODE_LENGTH_CODE_UNITS[opcode.toNat]? =
    some (OPCODE_LENGTH_CODE_UNITS.getD opcode.toNat 0) ∧
    OPCODE_LENGTH_CODE_UNITS.getD opcode.toNat 0 ≤ 5 := by
  have h : ∀ k : Fin 256, OPCODE_LENGTH_CODE_UNITS[k.val]? =
      some (OPCODE_LENGTH_CODE_UNITS.getD k.val 0) ∧
      OPCODE_LENGTH_CODE_UNITS.getD k.val 0 ≤ 5 := by decide +kernel
  exact h ⟨opcode.toNat, opcode.toNat_lt⟩

theorem rewriteStep_eq (hi : s.i < 2 ^ 60) (hlen : s.insns.length < 2 ^ 32) :
    rewriteStep field_idx s = some (Dex.rewriteStep field_idx s) := by
  unfold rewriteStep Dex.rewriteStep
  dsimp only
  rw [bind_some (addUsize_eq (show s.i + 2 < 2 ^ 64 by omega))]
  by_cases hend : s.insns.length < s.i + 2
  · rw [if_pos hend, if_pos hend]
    rfl
  · have hget : s.insns.getD s.i 0 = s.insns[s.i] := by
      rw [List.getD_eq_getElem?_getD, List.getElem?_eq_getElem (by omega)]
      rfl
    have hreg : s.insns.getD (s.i + 1) 0 = s.insns[s.i + 1] := by
      rw [List.getD_eq_getElem?_getD, List.getElem?_eq_getElem (by omega)]
      rfl
    rw [if_neg hend, if_neg hend, bind_some (byteAt_eq (show s.i < s.insns.length by omega)), hget]
    by_cases hop : s.insns[s.i] = 0x00
    · rw [if_pos hop, if_pos hop, bind_some (payloadUnits_eq (by omega) hlen)]
      cases hu : Dex.payloadUnits s.insns s.i with
      | none => rfl
      | some units =>
        have hlt := payloadUnits_lt hu
        dsimp only
        rw [bind_some (mulUsize_eq (show units * 2 < 2 ^ 64 by omega)),
          bind_some (addUsize_eq (show s.i + units * 2 < 2 ^ 64 by omega))]
        rfl
    · obtain ⟨hunits, hmax⟩ := opcode_units s.insns[s.i]
      rw [if_neg hop, if_neg hop, bind_some hunits]
      generalize OPCODE_LENGTH_CODE_UNITS.getD s.insns[s.i].toNat 0 = units at hmax
      by_cases hzero : units = 0
      · rw [if_pos hzero, if_pos hzero, bind_some (addUsize_eq (show s.i + 2 < 2 ^ 64 by omega))]
        rfl
      · rw [if_neg hzero, if_neg hzero,
          bind_some (mulUsize_eq (show units * 2 < 2 ^ 64 by omega)),
          bind_some (addUsize_eq (show s.i + units * 2 < 2 ^ 64 by omega))]
        by_cases hcut : s.insns.length < s.i + units * 2
        · rw [if_pos hcut, if_pos hcut]
          rfl
        · rw [if_neg hcut, if_neg hcut]
          by_cases hsget : 0x60 ≤ s.insns[s.i] ∧ s.insns[s.i] ≤ 0x66 ∧ units * 2 = 4
          · obtain ⟨hge, hle, hfour⟩ := hsget
            rw [if_pos ⟨hge, hle, hfour⟩, bind_some (bytesAt_eq (by omega))]
            by_cases hfield : leValue (slice s.insns (s.i + 2) 2) = field_idx
            · rw [if_pos hfield, if_pos ⟨hge, hle, hfour, hfield⟩,
                bind_some (byteAt_eq (show s.i + 1 < s.insns.length by omega)),
                bind_some (writeAt_eq (by rw [length_const16]; omega)), hreg]
              rfl
            · rw [if_neg hfield, if_neg fun hall => hfield hall.2.2.2]
              rfl
          · rw [if_neg hsget, if_neg fun hall => hsget ⟨hall.1, hall.2.1, hall.2.2.1⟩]
            rfl

theorem rewriteStep_next {s' : SgetLoop} (hlen : s.insns.length < 2 ^ 32)
    (h : Dex.rewriteStep field_idx s = .inl s') :
    s'.i < 2 ^ 60 ∧ s'.insns.length = s.insns.length := by
  cases hn : insnBytes s.insns s.i with
  | none =>
    rw [rewriteStep_none hn] at h
    cases h
  | some n =>
    have hsize := insnBytes_lt hn
    have hstart : s.i + 2 ≤ s.insns.length := by
      by_contra hlt
      rw [insnBytes, if_pos (by omega)] at hn
      cases hn
    rcases rewriteStep_some field_idx hn with ⟨_, heq⟩ | ⟨_, heq⟩ | ⟨rfl, hfit, _, heq⟩
    · rw [heq] at h
      cases h
    · rw [heq] at h
      cases h
      exact ⟨by dsimp only; omega, rfl⟩
    · rw [heq] at h
      cases h
      exact ⟨by dsimp only; omega, length_splice (by rw [length_const16]; exact hfit)⟩

theorem rewriteLoop_eq {fuel : Nat} {r : Bytes × DexPatchResult} (hi : s.i < 2 ^ 60)
    (hlen : s.insns.length < 2 ^ 32) (h : loop (Dex.rewriteStep field_idx) fuel s = some r) :
    rewriteLoop field_idx fuel s = some r := by
  induction fuel generalizing s with
  | zero => cases h
  | succ fuel ih =>
    rw [rewriteLoop, bind_some (rewriteStep_eq hi hlen)]
    cases hstep : Dex.rewriteStep field_idx s with
    | inl s' =>
      obtain ⟨hi', hlen'⟩ := rewriteStep_next hlen hstep
      rw [loop_next hstep] at h
      exact ih hi' (by rw [hlen']; exact hlen) h
    | inr r' =>
      rw [loop_done hstep] at h
      exact h

/-- The rewrite of a code item of less than 4 GiB panics nowhere. -/
theorem rewriteSget_eq (hlen : insns.length < 2 ^ 32) :
    rewriteSgetInInsns insns field_idx out =
      some (Dex.rewriteSgetInInsns insns field_idx out) :=
  rewriteLoop_eq (show 0 < 2 ^ 60 by decide) hlen (rewriteSget_loop insns field_idx out)

end Aabox.Resigner.Dex.Checked
