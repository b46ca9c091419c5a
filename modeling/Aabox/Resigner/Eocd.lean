import Aabox.Resigner.Checked
import Aabox.Resigner.Sign
import Mathlib.Order.Bounds.Defs

/-! The search for the end record, in a build that checks its indices, and what it finds. -/
namespace Aabox.Resigner.Sign.Checked
open Aabox.Lib Dex.Checked

def isEocd (apk : Bytes) (i : Nat) : Option Bool := do
  let signature ← subslice apk i (i + 4)
  if signature = EOCD_MAGIC then
    let comment_len ← bytesAt apk (i + 20) 2
    return i + 22 + leValue comment_len = apk.length
  else return false

def findEocd (apk : Bytes) : List Nat → Option (Option Nat)
  | [] => some none
  | i :: is => do
    if ← isEocd apk i then return some i
    else findEocd apk is

def locateZipLayout (apk : Bytes) : Option (Except String ZipLayout) := do
  let max_back := min apk.length (22 + 65535)
  let scan_start := apk.length - max_back
  match ← findEocd apk (List.range' scan_start (apk.length - 21 - scan_start)).reverse with
  | none => return .error "EOCD not found"
  | some eocd_offset =>
    let cd_size ← bytesAt apk (eocd_offset + 12) 4
    let cd_offset ← bytesAt apk (eocd_offset + 16) 4
    return .ok { cd_offset := leValue cd_offset, cd_size := leValue cd_size, eocd_offset }

variable {apk : Bytes} {i p : Nat} {is : List Nat}

theorem isEocd_eq (h : i + 22 ≤ apk.length) : isEocd apk i = some (Sign.isEocd apk i) := by
  rw [isEocd, Sign.isEocd, bind_some (subslice_eq (by omega) (by omega)), Nat.add_sub_cancel_left]
  by_cases hmagic : slice apk i 4 = EOCD_MAGIC
  · rw [if_pos hmagic, bind_some (bytesAt_eq (by omega))]
    simp [hmagic]
  · rw [if_neg hmagic]
    simp [hmagic]

theorem findEocd_eq (h : ∀ i ∈ is, i + 22 ≤ apk.length) :
    findEocd apk is = some (is.find? (Sign.isEocd apk)) := by
  induction is with
  | nil => rfl
  | cons i is ih =>
    obtain ⟨hi, his⟩ := List.forall_mem_cons.mp h
    rw [findEocd, bind_some (isEocd_eq hi), List.find?_cons]
    cases Sign.isEocd apk i with
    | true => rfl
    | false => exact ih his

end Aabox.Resigner.Sign.Checked

namespace Aabox.Resigner.Sign
open Aabox.Lib Dex.Checked

/-- An end record at `p`, and a comment behind it up to the end of the file. -/
structure EndRecordAt (apk : Bytes) (p : Nat) : Prop where
  inside : p + 22 ≤ apk.length
  magic : slice apk p 4 = EOCD_MAGIC
  comment : p + 22 + leValue (slice apk (p + 20) 2) = apk.length

variable {apk : Bytes} {p : Nat} {layout : ZipLayout}

/-- A comment is no longer than its 16-bit length can say. -/
theorem EndRecordAt.near_end (h : EndRecordAt apk p) : apk.length ≤ p + 65557 := by
  have hlt := leValue_slice_lt apk (p + 20) 2
  have hcomment := h.comment
  omega

/-- The places that are looked at, the last one first. -/
def eocdPlaces (apk : Bytes) : List Nat :=
  let scan_start := apk.length - min apk.length (22 + 65535)
  (List.range' scan_start (apk.length - 21 - scan_start)).reverse

theorem mem_eocdPlaces : p ∈ eocdPlaces apk ↔ p + 22 ≤ apk.length ∧ apk.length ≤ p + 65557 := by
  unfold eocdPlaces
  dsimp only
  rw [List.mem_reverse, List.mem_range'_1]
  omega

theorem isEocd_iff (hp : p ∈ eocdPlaces apk) : isEocd apk p = true ↔ EndRecordAt apk p := by
  obtain ⟨hinside, -⟩ := mem_eocdPlaces.mp hp
  unfold isEocd
  rw [decide_eq_true_iff]
  constructor
  · rintro ⟨hmagic, hcomment⟩
    exact ⟨hinside, hmagic, hcomment⟩
  · intro h
    exact ⟨h.magic, h.comment⟩

theorem EndRecordAt.mem (h : EndRecordAt apk p) : p ∈ eocdPlaces apk :=
  mem_eocdPlaces.mpr ⟨h.inside, h.near_end⟩

/-- The search finds the last end record there is. -/
theorem find_eocd (h : (eocdPlaces apk).find? (isEocd apk) = some p) :
    IsGreatest {p | EndRecordAt apk p} p := by
  have hp := (isEocd_iff (List.mem_of_find?_eq_some h)).mp (List.find?_some h)
  refine ⟨hp, fun p' hp' => ?_⟩
  obtain ⟨-, before, after, hsplit, hbefore⟩ := List.find?_eq_some_iff_append.mp h
  have hsorted : (eocdPlaces apk).Pairwise (· > ·) :=
    List.pairwise_reverse.mpr List.pairwise_lt_range'
  have hmem := hp'.mem
  have htrue := (isEocd_iff hmem).mpr hp'
  rw [hsplit] at hsorted hmem
  rcases List.mem_append.mp hmem with hmem | hmem
  · have hfalse := hbefore p' hmem
    rw [htrue] at hfalse
    cases hfalse
  · rcases List.mem_cons.mp hmem with rfl | hmem
    · exact le_refl _
    · exact Nat.le_of_lt ((List.pairwise_cons.mp (List.pairwise_append.mp hsorted).2.1).1 p' hmem)

theorem locateZipLayout_find (apk : Bytes) : locateZipLayout apk =
    match (eocdPlaces apk).find? (isEocd apk) with
    | none => .error "EOCD not found"
    | some eocd_offset => .ok {
        cd_offset := leValue (slice apk (eocd_offset + 16) 4)
        cd_size := leValue (slice apk (eocd_offset + 12) 4)
        eocd_offset } := rfl

theorem locateZipLayout_checked (apk : Bytes) :
    Checked.locateZipLayout apk = some (locateZipLayout apk) := by
  have hfind : Checked.findEocd apk (eocdPlaces apk) =
      some ((eocdPlaces apk).find? (isEocd apk)) :=
    Checked.findEocd_eq fun _ hi => (mem_eocdPlaces.mp hi).1
  change Checked.findEocd apk (eocdPlaces apk) >>= _ = _
  rw [locateZipLayout_find, bind_some hfind]
  cases h : (eocdPlaces apk).find? (isEocd apk) with
  | none => rfl
  | some p =>
    have hinside := (find_eocd h).1.inside
    dsimp only
    rw [bind_some (bytesAt_eq (by omega)), bind_some (bytesAt_eq (by omega))]
    rfl

/-- The search indexes inside the file, finds an end record exactly where there is one, and then
the last of them with the fields stored there. -/
theorem locateZipLayout_exact (apk : Bytes) :
    Checked.locateZipLayout apk = some (locateZipLayout apk) ∧
    ((∃ layout, locateZipLayout apk = .ok layout) ↔
      ∃ p, apk.length ≤ p + 65557 ∧ EndRecordAt apk p) ∧
    ∀ layout, locateZipLayout apk = .ok layout →
      IsGreatest {p | EndRecordAt apk p} layout.eocd_offset ∧
        layout.cd_size = leValue (slice apk (layout.eocd_offset + 12) 4) ∧
        layout.cd_offset = leValue (slice apk (layout.eocd_offset + 16) 4) := by
  refine ⟨locateZipLayout_checked apk, ?_, ?_⟩
  · rw [locateZipLayout_find]
    cases h : (eocdPlaces apk).find? (isEocd apk) with
    | none =>
      constructor
      · rintro ⟨layout, hlayout⟩
        cases hlayout
      · rintro ⟨p, -, hp⟩
        exact (List.find?_eq_none.mp h p hp.mem ((isEocd_iff hp.mem).mpr hp)).elim
    | some p =>
      have hp := (find_eocd h).1
      exact ⟨fun _ => ⟨p, hp.near_end, hp⟩, fun _ => ⟨_, rfl⟩⟩
  · intro layout hlayout
    rw [locateZipLayout_find] at hlayout
    cases h : (eocdPlaces apk).find? (isEocd apk) with
    | none =>
      rw [h] at hlayout
      cases hlayout
    | some p =>
      rw [h] at hlayout
      cases hlayout
      exact ⟨find_eocd h, rfl, rfl⟩

end Aabox.Resigner.Sign
