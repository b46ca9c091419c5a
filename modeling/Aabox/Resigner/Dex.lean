import Aabox.Lib.Edits
import Aabox.Lib.Loop

/-! The DEX patcher: table lookups, the `class_data` walk, and the instruction rewrite. -/
namespace Aabox.Resigner.Dex
open Aabox.Lib

def ascii (cs : List Char) : Bytes := cs.map (fun c => UInt8.ofNat c.toNat)

def DEX_MAGIC_PREFIX : Bytes := ascii ['d', 'e', 'x', '\n']
def ENDIAN_CONSTANT : Nat := 0x12345678
def CLAMPED_SDK_INT : Nat := 35

def SDK_INT : Bytes := ascii ['S', 'D', 'K', '_', 'I', 'N', 'T']
def INT : Bytes := ascii ['I']
def BUILD_VERSION : Bytes :=
  ascii ['L', 'a', 'n', 'd', 'r', 'o', 'i', 'd', '/', 'o', 's', '/',
    'B', 'u', 'i', 'l', 'd', '$', 'V', 'E', 'R', 'S', 'I', 'O', 'N', ';']

structure DexPatchResult where
  patches : Nat
  bytes_rewritten : Nat
  deriving DecidableEq, Repr

def DexPatchResult.default : DexPatchResult := ⟨0, 0⟩

/-- What a value of 32 bits keeps of a sum. -/
def u32 (n : Nat) : Nat := n % 2 ^ 32

def hex (n : Nat) : String := String.ofList (Nat.toDigits 16 n)

/-! ### Primitives -/

def readU16 (buf : Bytes) (off : Nat) : Except String Nat :=
  if buf.length < off + 2 then .error s!"read_u16 out of bounds @ {off}"
  else .ok (leValue (slice buf off 2))

def readU32 (buf : Bytes) (off : Nat) : Except String Nat :=
  if buf.length < off + 4 then .error s!"read_u32 out of bounds @ {off}"
  else .ok (leValue (slice buf off 4))

/-- The turns left of `read_uleb128`, at `p` with the value read so far. -/
def ulebLoop (buf : Bytes) (off : Nat) : Nat → Nat → Nat → Nat → Except String (Nat × Nat)
  | 0, _, _, _ => .error s!"uleb128 overflow @ {off}"
  | n + 1, p, shift, result =>
    match buf[p]? with
    | none => .error s!"uleb128 truncated @ {off}"
    | some byte =>
      let result := result ||| u32 ((byte.toNat &&& 0x7f) <<< shift)
      if byte &&& 0x80 = 0 then .ok (p + 1, result)
      else ulebLoop buf off n (p + 1) (shift + 7) result

def readUleb128 (buf : Bytes) (off : Nat) : Except String (Nat × Nat) :=
  ulebLoop buf off 5 off 0 0

/-! ### Header -/

structure DexHeader where
  string_ids_size : Nat
  string_ids_off : Nat
  type_ids_size : Nat
  type_ids_off : Nat
  field_ids_size : Nat
  field_ids_off : Nat
  class_defs_size : Nat
  class_defs_off : Nat
  deriving DecidableEq, Repr

def DexHeader.parse (dex : Bytes) : Except String DexHeader := do
  if dex.length < 0x70 then throw s!"dex too short ({dex.length} bytes)"
  if slice dex 0 4 ≠ DEX_MAGIC_PREFIX then throw "not a DEX file (bad magic)"
  let endian ← readU32 dex 0x28
  if endian ≠ ENDIAN_CONSTANT then throw s!"unsupported DEX endian: 0x{hex endian}"
  return {
    string_ids_size := ← readU32 dex 0x38
    string_ids_off := ← readU32 dex 0x3c
    type_ids_size := ← readU32 dex 0x40
    type_ids_off := ← readU32 dex 0x44
    field_ids_size := ← readU32 dex 0x50
    field_ids_off := ← readU32 dex 0x54
    class_defs_size := ← readU32 dex 0x60
    class_defs_off := ← readU32 dex 0x64 }

/-! ### String, type and field lookups -/

/-- The search all three lookups make: the first entry that `isIt`, from entry `i` on. -/
def findEntry (isIt : Nat → Except String Bool) : Nat → Nat → Except String (Option Nat)
  | 0, _ => .ok none
  | n + 1, i =>
    match isIt i with
    | .error e => .error e
    | .ok true => .ok (some i)
    | .ok false => findEntry isIt n (i + 1)

def isString (dex : Bytes) (h : DexHeader) (needle : Bytes) (i : Nat) : Except String Bool := do
  let data_off ← readU32 dex (u32 (h.string_ids_off + i * 4))
  let (str_start, _) ← readUleb128 dex data_off
  if dex.length < str_start + needle.length then return false
  return slice dex str_start needle.length = needle ∧ dex[str_start + needle.length]? = some 0

def findStringIdx (dex : Bytes) (h : DexHeader) (needle : Bytes) : Except String (Option Nat) :=
  findEntry (isString dex h needle) h.string_ids_size 0

def isType (dex : Bytes) (h : DexHeader) (descriptor : Nat) (i : Nat) : Except String Bool := do
  let s ← readU32 dex (u32 (h.type_ids_off + i * 4))
  return s = descriptor

def findTypeIdx (dex : Bytes) (h : DexHeader) (descriptor : Nat) : Except String (Option Nat) :=
  findEntry (isType dex h descriptor) h.type_ids_size 0

/-- `field_id_item`: class, type and name. -/
def fieldId (dex : Bytes) (h : DexHeader) (i : Nat) : Except String (Nat × Nat × Nat) := do
  let entry := u32 (h.field_ids_off + i * 8)
  let class_idx ← readU16 dex entry
  let t_idx ← readU16 dex (entry + 2)
  let n_idx ← readU32 dex (entry + 4)
  return (class_idx, t_idx, n_idx)

def isField (dex : Bytes) (h : DexHeader) (id : Nat × Nat × Nat) (i : Nat) :
    Except String Bool := do
  return (← fieldId dex h i) = id

def findFieldIdx (dex : Bytes) (h : DexHeader) (class_type_idx name_string_idx type_idx : Nat) :
    Except String (Option Nat) :=
  if 0xffff < class_type_idx ∨ 0xffff < type_idx then .error "type idx out of u16 range"
  else findEntry (isField dex h (class_type_idx, type_idx, name_string_idx)) h.field_ids_size 0

/-! ### Code item walker -/

variable {σ : Type*}

/-- `onInsns` gets a place in the file and the bytes there; it writes back as many bytes. -/
abbrev OnInsns (σ : Type*) := Nat → Bytes → σ → Bytes × σ

/-- Two values for each of `n` fields. -/
def skipFields (dex : Bytes) : Nat → Nat → Except String Nat
  | 0, p => .ok p
  | n + 1, p => do
    let (p, _) ← readUleb128 dex p
    let (p, _) ← readUleb128 dex p
    skipFields dex n p

/-- The code offset of the `encoded_method` at `p`, and where the next one starts. -/
def methodCode (dex : Bytes) (p : Nat) : Except String (Nat × Nat) := do
  let (p, _) ← readUleb128 dex p
  let (p, _) ← readUleb128 dex p
  readUleb128 dex p

/-- Start and byte length of the instructions of the `code_item` at `code_off`. -/
def insnsRange (dex : Bytes) (code_off : Nat) : Except String (Nat × Nat) := do
  let insns_size ← readU32 dex (code_off + 12)
  let insns_byte_start := code_off + 16
  -- no sum of two 32-bit values overflows `usize`
  let insns_byte_end := insns_byte_start + insns_size * 2
  if dex.length < insns_byte_end then
    throw s!"code_item @ {code_off} insns out of bounds (end {insns_byte_end} > dex {dex.length})"
  return (insns_byte_start, insns_size * 2)

/-- `on_insns(&mut dex[start..start + len])`. -/
def visit (onInsns : OnInsns σ) (r : Nat × Nat) (b : Bytes × σ) : Bytes × σ :=
  let out := onInsns r.1 (slice b.1 r.1 r.2) b.2
  (splice b.1 r.1 out.1, out.2)

/-- The methods left of a class; an error keeps what earlier methods had rewritten. -/
def walkMethods (onInsns : OnInsns σ) :
    Nat → Nat → Nat → Bytes × σ → Except String Nat × Bytes × σ
  | 0, _, methods_walked, b => (.ok methods_walked, b)
  | n + 1, p, methods_walked, b =>
    match methodCode b.1 p with
    | .error e => (.error e, b)
    | .ok (p, code_off) =>
      if code_off = 0 then walkMethods onInsns n p methods_walked b
      else
        match insnsRange b.1 code_off with
        | .error e => (.error e, b)
        | .ok r => walkMethods onInsns n p (methods_walked + 1) (visit onInsns r b)

/-- The start of the methods and their number. -/
def classDataMethods (dex : Bytes) (class_data_off : Nat) : Except String (Nat × Nat) := do
  let (p, static_fields_size) ← readUleb128 dex class_data_off
  let (p, instance_fields_size) ← readUleb128 dex p
  let (p, direct_methods_size) ← readUleb128 dex p
  let (p, virtual_methods_size) ← readUleb128 dex p
  let p ← skipFields dex (u32 (static_fields_size + instance_fields_size)) p
  return (p, u32 (direct_methods_size + virtual_methods_size))

def walkOneClassData (onInsns : OnInsns σ) (class_data_off : Nat) (b : Bytes × σ) :
    Except String Nat × Bytes × σ :=
  match classDataMethods b.1 class_data_off with
  | .error e => (.error e, b)
  | .ok (p, total_methods) => walkMethods onInsns total_methods p 0 b

/-- One turn of the class loop: a class that fails is skipped, its error only logged. -/
def walkClass (h : DexHeader) (onInsns : OnInsns σ) (b : Bytes × σ) (i : Nat) : Bytes × σ :=
  match readU32 b.1 (u32 (h.class_defs_off + i * 32) + 24) with
  | .error _ => b
  | .ok class_data_off =>
    if class_data_off = 0 then b else (walkOneClassData onInsns class_data_off b).2

def walkCodeItems (h : DexHeader) (onInsns : OnInsns σ) (b : Bytes × σ) : Bytes × σ :=
  (List.range h.class_defs_size).foldl (walkClass h onInsns) b

/-! ### Instruction stream rewrite -/

/-- Code units of each opcode; 0 is an unknown one. -/
def OPCODE_LENGTH_CODE_UNITS : List Nat :=
  [1, 1, 2, 3, 1, 2, 3, 1, 2, 3, 1, 1, 1, 1, 1, 1,
   1, 1, 1, 2, 3, 2, 2, 3, 5, 2, 2, 3, 2, 1, 1, 2,
   2, 1, 2, 2, 3, 3, 3, 1, 1, 2, 3, 3, 3, 2, 2, 2,
   2, 2, 2, 2, 2, 2, 2, 2, 2, 2, 2, 2, 2, 2, 0, 0,
   0, 0, 0, 0, 2, 2, 2, 2, 2, 2, 2, 2, 2, 2, 2, 2,
   2, 2, 2, 2, 2, 2, 2, 2, 2, 2, 2, 2, 2, 2, 2, 2,
   2, 2, 2, 2, 2, 2, 2, 2, 2, 2, 2, 2, 2, 2, 3, 3,
   3, 3, 3, 0, 3, 3, 3, 3, 3, 0, 0, 1, 1, 1, 1, 1,
   1, 1, 1, 1, 1, 1, 1, 1, 1, 1, 1, 1, 1, 1, 1, 1,
   2, 2, 2, 2, 2, 2, 2, 2, 2, 2, 2, 2, 2, 2, 2, 2,
   2, 2, 2, 2, 2, 2, 2, 2, 2, 2, 2, 2, 2, 2, 2, 2,
   1, 1, 1, 1, 1, 1, 1, 1, 1, 1, 1, 1, 1, 1, 1, 1,
   1, 1, 1, 1, 1, 1, 1, 1, 1, 1, 1, 1, 1, 1, 1, 1,
   2, 2, 2, 2, 2, 2, 2, 2, 2, 2, 2, 2, 2, 2, 2, 2,
   2, 2, 2, 2, 2, 2, 2, 2, 2, 2, 2, 2, 1, 2, 3, 3,
   3, 1, 2, 0, 0, 0, 0, 0, 0, 0, 4, 4, 3, 3, 2, 2]

/-- The units an opcode-0 item takes; `none` where its header is cut off. -/
def payloadUnits (insns : Bytes) (i : Nat) : Option Nat :=
  let ident := insns.getD (i + 1) 0
  if ident = 0x01 then
    if insns.length < i + 4 then none else some (4 + leValue (slice insns (i + 2) 2) * 2)
  else if ident = 0x02 then
    if insns.length < i + 4 then none else some (2 + leValue (slice insns (i + 2) 2) * 4)
  else if ident = 0x03 then
    if insns.length < i + 8 then none
    else
      let element_width := leValue (slice insns (i + 2) 2)
      let size := leValue (slice insns (i + 4) 4)
      let data_bytes := size * element_width
      some (4 + (data_bytes + 1) / 2)
  else some 1

/-- `const/16 vAA, #+35`. -/
def const16 (v_aa : UInt8) : Bytes := [0x13, v_aa] ++ leBytes 2 CLAMPED_SDK_INT

structure SgetLoop where
  i : Nat
  insns : Bytes
  out : DexPatchResult

/-- One turn of the rewrite loop. -/
def rewriteStep (target_field_idx : Nat) (s : SgetLoop) :
    SgetLoop ⊕ (Bytes × DexPatchResult) :=
  let insns := s.insns
  let i := s.i
  if insns.length < i + 2 then .inr (insns, s.out)
  else
    let opcode := insns.getD i 0
    if opcode = 0x00 then
      match payloadUnits insns i with
      | none => .inr (insns, s.out)
      | some units => .inl { s with i := i + units * 2 }
    else
      let units := OPCODE_LENGTH_CODE_UNITS.getD opcode.toNat 0
      if units = 0 then .inl { s with i := i + 2 }
      else
        let inst_bytes := units * 2
        if insns.length < i + inst_bytes then .inr (insns, s.out)
        else if 0x60 ≤ opcode ∧ opcode ≤ 0x66 ∧ inst_bytes = 4 ∧
            leValue (slice insns (i + 2) 2) = target_field_idx then
          .inl {
            i := i + inst_bytes
            insns := splice insns i (const16 (insns.getD (i + 1) 0))
            out := ⟨s.out.patches + 1, s.out.bytes_rewritten + 4⟩ }
        else .inl { s with i := i + inst_bytes }

/-- Every turn moves on by two bytes or more, so the fuel is never short. -/
def rewriteSgetInInsns (insns : Bytes) (target_field_idx : Nat) (out : DexPatchResult) :
    Bytes × DexPatchResult :=
  (loop (rewriteStep target_field_idx) (insns.length + 1) ⟨0, insns, out⟩).getD (insns, out)

/-! ### Header checksums -/

def MOD_ADLER : Nat := 65521

def adler32 (buf : Bytes) : Nat :=
  let (a, b) := buf.foldl (fun (a, b) byte =>
    let a := (a + byte.toNat) % MOD_ADLER
    (a, (b + a) % MOD_ADLER)) (1, 0)
  b <<< 16 ||| a

/-- A SHA-1 function: any input, 20 bytes out. -/
abbrev Sha1 := Bytes → { digest : Bytes // digest.length = 20 }

def recomputeHeaderChecksums (sha1 : Sha1) (dex : Bytes) : Except String Unit × Bytes :=
  if dex.length < 32 then (.error "dex too short for header recompute", dex)
  else
    let dex := splice dex 12 (sha1 (dex.drop 32)).val
    (.ok (), splice dex 8 (leBytes 4 (adler32 (dex.drop 12))))

/-! ### Entry point -/

/-- The lookups of `patch_dex`; `none` where one of the items is not there. -/
def locateSdkInt (dex : Bytes) : Except String (Option (DexHeader × Nat)) := do
  let h ← DexHeader.parse dex
  let some sdk_int_str ← findStringIdx dex h SDK_INT | return none
  let some i_str ← findStringIdx dex h INT | return none
  let some build_ver_str ← findStringIdx dex h BUILD_VERSION | return none
  let some i_type ← findTypeIdx dex h i_str | return none
  let some build_ver_type ← findTypeIdx dex h build_ver_str | return none
  let some field_idx ← findFieldIdx dex h build_ver_type sdk_int_str i_type | return none
  return some (h, field_idx)

/-- The closure `patch_dex` hands to the walker. -/
def rewriteInsns (field_idx : Nat) : OnInsns DexPatchResult := fun _ insns result =>
  rewriteSgetInInsns insns field_idx result

def patchDex (sha1 : Sha1) (dex : Bytes) : Except String DexPatchResult × Bytes :=
  match locateSdkInt dex with
  | .error e => (.error e, dex)
  | .ok none => (.ok .default, dex)
  | .ok (some (h, field_idx)) =>
    let (dex, result) := walkCodeItems h (rewriteInsns field_idx) (dex, .default)
    if 0 < result.patches then
      match recomputeHeaderChecksums sha1 dex with
      | (.error e, dex) => (.error e, dex)
      | (.ok (), dex) => (.ok result, dex)
    else (.ok result, dex)

end Aabox.Resigner.Dex
