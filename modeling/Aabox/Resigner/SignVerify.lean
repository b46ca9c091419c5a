import Aabox.Lib.Fallible
import Aabox.Resigner.Verify

/-! What `sign_apk_v2` writes is what the verification procedure looks for, part by part. -/
namespace Aabox.Resigner.Sign
open Aabox.Lib

variable {area : Bytes} {id n v : Nat} {pairs : List (Nat × Bytes)}

/-! ### Length prefixes -/

theorem encodeLpElements_eq (elements : List Bytes) :
    encodeLpElements elements = elements.flatMap (prefixed 4) := rfl

theorem encodeLpIntLpBytesPairs_eq (id : Nat) (b : Bytes) :
    encodeLpIntLpBytesPairs [(id, b)] = prefixed 4 (leBytes 4 id ++ prefixed 4 b) := by
  have hlen : (leBytes 4 id ++ prefixed 4 b).length = 8 + b.length := by
    simp
    omega
  rw [prefixed, hlen]
  simp [encodeLpIntLpBytesPairs, prefixed]

/-! ### The signing block -/

/-- The pair that fills up the last page, where one is needed. -/
def padding (pairs : List (Nat × Bytes)) : List (Nat × Bytes) :=
  let unpadded := 32 + (pairs.map fun (_, v) => 12 + v.length).sum
  if unpadded % 4096 ≠ 0 then
    [(VERITY_PADDING_BLOCK_ID, List.replicate (paddingSize unpadded - 12) 0)]
  else []

def encodePair (p : Nat × Bytes) : Bytes := prefixed 8 (leBytes 4 p.1 ++ p.2)

/-- The size on both ends, and the magic. -/
def framed (area : Bytes) : Bytes :=
  leBytes 8 (area.length + 24) ++ area ++ leBytes 8 (area.length + 24) ++ APK_SIG_BLOCK_MAGIC

theorem length_framed (area : Bytes) : (framed area).length = area.length + 32 := by
  simp [framed, APK_SIG_BLOCK_MAGIC]
  omega

theorem length_encodePair (p : Nat × Bytes) : (encodePair p).length = 12 + p.2.length := by
  simp [encodePair]
  omega

theorem length_flatMap_encodePair (pairs : List (Nat × Bytes)) :
    (pairs.flatMap encodePair).length = (pairs.map fun p => 12 + p.2.length).sum := by
  simp only [List.length_flatMap, length_encodePair]

theorem twelve_le_paddingSize (total : Nat) : 12 ≤ paddingSize total := by
  unfold paddingSize ANDROID_COMMON_PAGE_ALIGNMENT_BYTES
  dsimp only
  split
  · omega
  · omega

theorem paddingPair_eq (h : 12 ≤ n) :
    paddingPair n = encodePair (VERITY_PADDING_BLOCK_ID, List.replicate (n - 12) 0) := by
  have hlen : (leBytes 4 VERITY_PADDING_BLOCK_ID ++ List.replicate (n - 12) (0 : UInt8)).length =
      n - 8 := by
    simp
    omega
  rw [encodePair, prefixed, hlen, paddingPair, List.append_assoc, Nat.sub_sub]

/-- The block is the given pairs and the padding, encoded alike, in a frame. -/
theorem buildSigningBlock_eq (pairs : List (Nat × Bytes)) :
    buildSigningBlock pairs = framed ((pairs ++ padding pairs).flatMap encodePair) := by
  have hpairs : pairs.flatMap (fun (id, v) => leBytes 8 (4 + v.length) ++ leBytes 4 id ++ v) =
      pairs.flatMap encodePair := by
    apply List.flatMap_congr
    rintro ⟨id, v⟩ _
    simp [encodePair, prefixed]
  have hsum := length_flatMap_encodePair pairs
  have hunpadded : 8 + 8 + 16 + (pairs.map fun (_, v) => 8 + 4 + v.length).sum =
      32 + (pairs.map fun p => 12 + p.2.length).sum := rfl
  unfold buildSigningBlock framed
  dsimp only
  rw [hpairs, hunpadded]
  generalize hs : (pairs.map fun p => 12 + p.2.length).sum = size at hsum ⊢
  by_cases hpad : (32 + size) % ANDROID_COMMON_PAGE_ALIGNMENT_BYTES ≠ 0
  · have hpadding : padding pairs =
        [(VERITY_PADDING_BLOCK_ID, List.replicate (paddingSize (32 + size) - 12) 0)] := by
      rw [← hs] at hpad ⊢
      exact if_pos hpad
    have h12 := twelve_le_paddingSize (32 + size)
    rw [if_pos hpad, hpadding, List.flatMap_append, List.flatMap_singleton, ← paddingPair_eq h12]
    have hlen : (pairs.flatMap encodePair ++ paddingPair (paddingSize (32 + size))).length + 24 =
        32 + size + paddingSize (32 + size) - 8 := by
      rw [paddingPair_eq h12, List.length_append, length_encodePair, hsum, List.length_replicate]
      omega
    rw [hlen]
    simp only [List.append_assoc]
  · have hpadding : padding pairs = [] := by
      rw [← hs] at hpad
      exact if_neg hpad
    rw [if_neg hpad, hpadding, List.append_nil, List.append_nil, hsum,
      show 32 + size - 8 = size + 24 by omega]

/-! ### Finding it again -/

/-- An end record without a comment, over a directory of `cd_size` bytes at `cd_offset`. -/
structure EndRecord (eocd : Bytes) (cd_offset cd_size : Nat) : Prop where
  length : eocd.length = 22
  magic : slice eocd 0 4 = EOCD_MAGIC
  comment : leValue (slice eocd 20 2) = 0
  cd_size : leValue (slice eocd 12 4) = cd_size
  cd_offset : leValue (slice eocd 16 4) = cd_offset

theorem findEocd_eq {xs eocd : Bytes} {o z : Nat} (h : EndRecord eocd o z) :
    Verify.findEocd (xs ++ eocd) = some xs.length := by
  have hlen : (xs ++ eocd).length - 22 - 0 = xs.length := by
    rw [List.length_append, h.length]
    omega
  unfold Verify.findEocd
  rw [if_neg (by rw [List.length_append, h.length]; omega)]
  -- the search starts with the empty comment
  rw [List.range_succ_eq_map, List.find?_cons_of_pos, Option.map_some, hlen]
  dsimp only
  rw [hlen, slice_append_ge (Nat.le_refl _), slice_append_ge (by omega), Nat.sub_self,
    Nat.add_sub_cancel_left]
  exact decide_eq_true ⟨h.magic, h.comment⟩

theorem blockMagic_eq : Verify.blockMagic = APK_SIG_BLOCK_MAGIC := by decide

/-- Where the parts of a signed file are, a reader finds them. -/
theorem findSigningBlock_eq {before central eocd : Bytes} {entries : List Bytes}
    (hrecord : EndRecord eocd (before.length + (area.length + 32)) central.length)
    (harea : area = entries.flatMap (prefixed 8)) (hsize : area.length + 24 < 256 ^ 8)
    (hentries : ∀ e ∈ entries, e.length < 256 ^ 8)
    (hpairs : entries.mapM (takeInt 4) = some pairs) :
    Verify.findSigningBlock (before ++ framed area ++ central ++ eocd) = some {
      start := before.length
      cd_offset := before.length + (area.length + 32)
      eocd_offset := before.length + (area.length + 32) + central.length
      pairs } := by
  have hmagic : APK_SIG_BLOCK_MAGIC.length = 16 := rfl
  have hend : (before ++ framed area ++ central).length =
      before.length + (area.length + 32) + central.length := by
    rw [List.length_append, List.length_append, length_framed]
  have hdir : ∀ k n, slice (before ++ framed area ++ central ++ eocd)
      (before.length + (area.length + 32) + central.length + k) n = slice eocd k n := by
    intro k n
    rw [slice_append_ge (by omega), hend, Nat.add_sub_cancel_left]
  have hfooter : slice (before ++ framed area ++ central ++ eocd)
      (before.length + (area.length + 32) - 16) 16 = APK_SIG_BLOCK_MAGIC := by
    have hcut : before ++ framed area ++ central ++ eocd =
        (before ++ leBytes 8 (area.length + 24) ++ area ++ leBytes 8 (area.length + 24)) ++
          (APK_SIG_BLOCK_MAGIC ++ (central ++ eocd)) := by
      simp [framed]
    rw [hcut]
    exact slice_middle _ (by simp; omega) hmagic
  have hsize₂ : slice (before ++ framed area ++ central ++ eocd)
      (before.length + (area.length + 32) - 24) 8 = leBytes 8 (area.length + 24) := by
    have hcut : before ++ framed area ++ central ++ eocd =
        (before ++ leBytes 8 (area.length + 24) ++ area) ++
          (leBytes 8 (area.length + 24) ++ (APK_SIG_BLOCK_MAGIC ++ (central ++ eocd))) := by
      simp [framed]
    rw [hcut]
    exact slice_middle _ (by simp; omega) (by simp)
  have hsize₁ : slice (before ++ framed area ++ central ++ eocd) before.length 8 =
      leBytes 8 (area.length + 24) := by
    have hcut : before ++ framed area ++ central ++ eocd =
        before ++ (leBytes 8 (area.length + 24) ++
          (area ++ (leBytes 8 (area.length + 24) ++ (APK_SIG_BLOCK_MAGIC ++ (central ++ eocd))))) := by
      simp [framed]
    rw [hcut]
    exact slice_middle _ rfl (by simp)
  have hitems : slice (before ++ framed area ++ central ++ eocd) (before.length + 8) area.length =
      area := by
    have hcut : before ++ framed area ++ central ++ eocd =
        (before ++ leBytes 8 (area.length + 24)) ++
          (area ++ (leBytes 8 (area.length + 24) ++ (APK_SIG_BLOCK_MAGIC ++ (central ++ eocd)))) := by
      simp [framed]
    rw [hcut]
    exact slice_middle _ (by simp) rfl
  unfold Verify.findSigningBlock
  rw [findEocd_eq hrecord]
  simp only [Option.bind_eq_bind, Option.bind_some]
  rw [hend, hdir, hdir, hrecord.cd_size, hrecord.cd_offset, if_neg (by omega), hfooter,
    if_neg (by simp [blockMagic_eq]), hsize₂, leValue_leBytes_of_lt hsize, if_neg (by omega),
    show before.length + (area.length + 32) - (area.length + 24 + 8) = before.length by omega,
    hsize₁, leValue_leBytes_of_lt hsize, if_neg (by simp), Nat.add_sub_cancel, hitems, harea,
    items_flatMap (by decide) hentries, Option.bind_some, hpairs]
  rfl

end Aabox.Resigner.Sign
