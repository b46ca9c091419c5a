import Aabox.Lib.Reader
import Aabox.Resigner.Dalvik

/-!
What a DEX file says, item by item: its strings, types and fields, and the code of its methods.
Nothing here searches or rewrites; a well-formed file is one whose items stay out of each other's
way.
-/
namespace Aabox.Resigner.Dex
open Aabox.Lib

/-- Start and length. -/
abbrev Region := Nat × Nat

def Region.Has (r : Region) (p : Nat) : Prop := r.1 ≤ p ∧ p < r.1 + r.2

/-- No place in common. -/
def Apart (a b : Region) : Prop :=
  a.1 + a.2 ≤ b.1 ∨ b.1 + b.2 ≤ a.1 ∨ a.2 = 0 ∨ b.2 = 0

instance (a b : Region) : Decidable (Apart a b) := inferInstanceAs (Decidable (_ ∨ _ ∨ _ ∨ _))

/-- The bytes up to the terminator. -/
def cstring : Bytes → Option Bytes
  | [] => none
  | b :: bs => if b = 0 then some [] else (cstring bs).map (b :: ·)

/-- Where the data of string `i` lies, and what it says. -/
def stringItem (dex : Bytes) (h : DexHeader) (i : Nat) : Option (Region × Bytes) :=
  if i < h.string_ids_size then do
    let off ← (readU32 dex (h.string_ids_off + i * 4)).toOption
    let (start, _) ← (readUleb128 dex off).toOption
    let s ← cstring (dex.drop start)
    return ((off, start + s.length + 1 - off), s)
  else none

def stringName (dex : Bytes) (h : DexHeader) (i : Nat) : Option Bytes :=
  (stringItem dex h i).map (·.2)

def typeDescriptor (dex : Bytes) (h : DexHeader) (i : Nat) : Option Nat :=
  if i < h.type_ids_size then (readU32 dex (h.type_ids_off + i * 4)).toOption else none

def typeName (dex : Bytes) (h : DexHeader) (i : Nat) : Option Bytes :=
  (typeDescriptor dex h i).bind (stringName dex h)

/-- Class, type and name of field `i`. -/
def fieldItem (dex : Bytes) (h : DexHeader) (i : Nat) : Option (Nat × Nat × Nat) :=
  if i < h.field_ids_size then do
    let class_idx ← (readU16 dex (h.field_ids_off + i * 8)).toOption
    let type_idx ← (readU16 dex (h.field_ids_off + i * 8 + 2)).toOption
    let name_idx ← (readU32 dex (h.field_ids_off + i * 8 + 4)).toOption
    return (class_idx, type_idx, name_idx)
  else none

/-- Field `f` is `Landroid/os/Build$VERSION;->SDK_INT:I`. -/
def NamesSdkInt (dex : Bytes) (h : DexHeader) (f : Nat) : Prop :=
  ∃ class_idx type_idx name_idx, fieldItem dex h f = some (class_idx, type_idx, name_idx) ∧
    typeName dex h class_idx = some BUILD_VERSION ∧ typeName dex h type_idx = some INT ∧
    stringName dex h name_idx = some SDK_INT

/-! ### Methods and their code -/

def encodedField : Reader String Nat := Reader.bind readUleb128 fun _ => readUleb128

/-- The code offsets of the direct, then of the virtual methods; 0 for a method without code. -/
def classData : Reader String (List Nat) :=
  Reader.bind readUleb128 fun static_fields_size =>
  Reader.bind readUleb128 fun instance_fields_size =>
  Reader.bind readUleb128 fun direct_methods_size =>
  Reader.bind readUleb128 fun virtual_methods_size =>
  Reader.bind (Reader.many encodedField static_fields_size) fun _ =>
  Reader.bind (Reader.many encodedField instance_fields_size) fun _ =>
  Reader.bind (Reader.many methodCode direct_methods_size) fun direct_methods =>
  Reader.bind (Reader.many methodCode virtual_methods_size) fun virtual_methods =>
  Reader.pure (direct_methods ++ virtual_methods)

/-- Where the `class_data` of class `i` lies, and its code offsets; empty where it has none. -/
def classItem (dex : Bytes) (h : DexHeader) (i : Nat) : Except String (Region × List Nat) := do
  let off ← readU32 dex (h.class_defs_off + i * 32 + 24)
  if off = 0 then return ((0, 0), [])
  let (stop, code_offs) ← classData dex off
  return ((off, stop - off), code_offs.filter (· ≠ 0))

def classRegion (dex : Bytes) (h : DexHeader) (i : Nat) : Region :=
  ((classItem dex h i).toOption.map (·.1)).getD (0, 0)

def classCode (dex : Bytes) (h : DexHeader) (i : Nat) : List Nat :=
  ((classItem dex h i).toOption.map (·.2)).getD []

/-- The code items of all methods of all classes. -/
def codeItems (dex : Bytes) (h : DexHeader) : List Nat :=
  (List.range h.class_defs_size).flatMap (classCode dex h)

def codeRange (dex : Bytes) (code_off : Nat) : Region :=
  (insnsRange dex code_off).toOption.getD (0, 0)

def codeRanges (dex : Bytes) (h : DexHeader) : List Region :=
  (codeItems dex h).map (codeRange dex)

/-- An instruction of some method of some class: `n` bytes from place `p` of the file on. -/
def InsnAt (dex : Bytes) (h : DexHeader) (p n : Nat) : Prop :=
  ∃ r ∈ codeRanges dex h, ∃ i, p = r.1 + i ∧ IsInsn (slice dex r.1 r.2) i n

/-- The instruction at `p` is of the sget family and names `SDK_INT`. -/
def ReadsSdkInt (dex : Bytes) (h : DexHeader) (p : Nat) : Prop :=
  0x60 ≤ dex.getD p 0 ∧ dex.getD p 0 ≤ 0x66 ∧ NamesSdkInt dex h (leValue (slice dex (p + 2) 2))

/-! ### Well-formed files -/

def tables (h : DexHeader) : List Region :=
  [(h.string_ids_off, h.string_ids_size * 4), (h.type_ids_off, h.type_ids_size * 4),
   (h.field_ids_off, h.field_ids_size * 8), (h.class_defs_off, h.class_defs_size * 32)]

def stringRegion (dex : Bytes) (h : DexHeader) (i : Nat) : Region :=
  ((stringItem dex h i).map (·.1)).getD (0, 0)

/-- What the lookups and the walk read: the file up to its code and the two checksums. -/
def structuralRegions (dex : Bytes) (h : DexHeader) : List Region :=
  [(0, 8), (32, 0x50)] ++ tables h ++
    (List.range h.string_ids_size).map (stringRegion dex h) ++
    (List.range h.class_defs_size).map (classRegion dex h) ++
    (codeItems dex h).map (fun code_off => (code_off, 16))

def checksumRegion : Region := (8, 24)

structure WellFormed (dex : Bytes) (h : DexHeader) : Prop where
  parsed : DexHeader.parse dex = .ok h
  /-- A file's size is a 32-bit number. -/
  size : dex.length < 2 ^ 32
  tables_inside : ∀ m ∈ tables h, m.1 + m.2 ≤ dex.length
  strings_inside : ∀ i < h.string_ids_size, (stringItem dex h i).isSome
  classes_inside : ∀ i < h.class_defs_size, (classItem dex h i).toOption.isSome
  code_inside : ∀ code_off ∈ codeItems dex h, (insnsRange dex code_off).toOption.isSome
  string_unique : ∀ i < h.string_ids_size, ∀ j < h.string_ids_size,
    stringName dex h i = stringName dex h j → i = j
  type_unique : ∀ i < h.type_ids_size, ∀ j < h.type_ids_size,
    typeDescriptor dex h i = typeDescriptor dex h j → i = j
  field_unique : ∀ i < h.field_ids_size, ∀ j < h.field_ids_size,
    fieldItem dex h i = fieldItem dex h j → i = j
  code_apart : ∀ r ∈ codeRanges dex h, ∀ r' ∈ codeRanges dex h, r = r' ∨ Apart r r'
  structure_apart : ∀ m ∈ structuralRegions dex h, ∀ r ∈ codeRanges dex h, Apart m r
  checksum_apart : ∀ m ∈ structuralRegions dex h ++ codeRanges dex h, Apart m checksumRegion

instance (dex : Bytes) (h : DexHeader) : Decidable (DexHeader.parse dex = .ok h) :=
  match DexHeader.parse dex with
  | .error _ => isFalse (fun he => nomatch he)
  | .ok h' => decidable_of_iff (h' = h) ⟨congrArg _, Except.ok.inj⟩

end Aabox.Resigner.Dex
