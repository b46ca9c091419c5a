import Aabox.Resigner.SignedApk

/-! What the signing block holds, byte for byte, and what signing leaves of the archive around it.
-/
namespace Aabox.Resigner.Sign
open Aabox.Lib

variable {C : Crypto} {signer : Signer C} {apk out digest sig : Bytes} {layout : ZipLayout}
  {modulus_len n : Nat} {pairs : List (Nat × Bytes)}

/-! ### The block's layout -/

/-- The entries of a pair area, each a `u64` size, a `u32` id and the value. -/
def decodePairs (area : Bytes) : Option (List (Nat × Bytes)) :=
  (items 8 area).bind fun entries => entries.mapM (takeInt 4)

/-- Size, pair area, size again, magic: the parts of a block by their places in it. -/
structure BlockLayout (block : Bytes) (pairs : List (Nat × Bytes)) : Prop where
  pos : 0 < block.length
  aligned : block.length % ANDROID_COMMON_PAGE_ALIGNMENT_BYTES = 0
  head : leValue (slice block 0 8) = block.length - 8
  tail : leValue (slice block (block.length - 24) 8) = block.length - 8
  magic : block.drop (block.length - 16) = APK_SIG_BLOCK_MAGIC
  area : decodePairs (slice block 8 (block.length - 24 - 8)) = some pairs

/-- The length of a block whose pairs take `n` bytes. -/
def paddedSize (n : Nat) : Nat :=
  if (32 + n) % 4096 ≠ 0 then 32 + n + paddingSize (32 + n) else 32 + n

theorem length_padding (pairs : List (Nat × Bytes)) :
    32 + (pairs.map fun p => 12 + p.2.length).sum + ((padding pairs).flatMap encodePair).length =
      paddedSize (pairs.map fun p => 12 + p.2.length).sum := by
  have hpad : padding pairs =
      if (32 + (pairs.map fun p => 12 + p.2.length).sum) % 4096 ≠ 0 then
        [(VERITY_PADDING_BLOCK_ID, List.replicate
          (paddingSize (32 + (pairs.map fun p => 12 + p.2.length).sum) - 12) 0)]
      else [] := rfl
  rw [hpad, paddedSize]
  split
  · rw [List.flatMap_singleton, length_encodePair, List.length_replicate]
    have := twelve_le_paddingSize (32 + (pairs.map fun p => 12 + p.2.length).sum)
    omega
  · rfl

theorem length_buildSigningBlock (pairs : List (Nat × Bytes)) :
    (buildSigningBlock pairs).length = paddedSize (pairs.map fun p => 12 + p.2.length).sum := by
  have hpad := length_padding pairs
  rw [buildSigningBlock_eq, length_framed, List.flatMap_append, List.length_append,
    length_flatMap_encodePair]
  omega

theorem paddedSize_aligned (n : Nat) : paddedSize n % 4096 = 0 := by
  unfold paddedSize paddingSize ANDROID_COMMON_PAGE_ALIGNMENT_BYTES
  dsimp only
  split
  · split
    · omega
    · omega
  · omega

theorem framed_head (area : Bytes) : slice (framed area) 0 8 = leBytes 8 (area.length + 24) := by
  have hcut : framed area = [] ++ (leBytes 8 (area.length + 24) ++
      (area ++ leBytes 8 (area.length + 24) ++ APK_SIG_BLOCK_MAGIC)) := by
    simp [framed]
  rw [hcut]
  exact slice_middle _ rfl (length_leBytes 8 _)

theorem framed_tail (area : Bytes) :
    slice (framed area) (area.length + 8) 8 = leBytes 8 (area.length + 24) := by
  have hcut : framed area = (leBytes 8 (area.length + 24) ++ area) ++
      (leBytes 8 (area.length + 24) ++ APK_SIG_BLOCK_MAGIC) := by
    simp [framed]
  rw [hcut]
  exact slice_middle _ (by simp; omega) (length_leBytes 8 _)

theorem framed_magic (area : Bytes) :
    (framed area).drop (area.length + 16) = APK_SIG_BLOCK_MAGIC := by
  unfold framed
  apply List.drop_left'
  simp
  omega

theorem framed_area (area : Bytes) : slice (framed area) 8 area.length = area := by
  have hcut : framed area = leBytes 8 (area.length + 24) ++
      (area ++ (leBytes 8 (area.length + 24) ++ APK_SIG_BLOCK_MAGIC)) := by
    simp [framed]
  rw [hcut]
  exact slice_middle _ (length_leBytes 8 _) rfl

theorem decodePairs_encoded (hids : ∀ p ∈ pairs, p.1 < 2 ^ 32)
    (hfit : (pairs.flatMap encodePair).length < 256 ^ 8) :
    decodePairs (pairs.flatMap encodePair) = some pairs := by
  rw [decodePairs, flatMap_encodePair, items_flatMap (by decide) (entry_lt hfit), Option.bind_some,
    mapM_takeInt pairs hids]

theorem framed_layout (hids : ∀ p ∈ pairs, p.1 < 2 ^ 32)
    (hfit : (framed (pairs.flatMap encodePair)).length < 2 ^ 64)
    (haligned : (framed (pairs.flatMap encodePair)).length % 4096 = 0) :
    BlockLayout (framed (pairs.flatMap encodePair)) pairs := by
  have hlen := length_framed (pairs.flatMap encodePair)
  generalize harea : pairs.flatMap encodePair = area at *
  have hsize : area.length + 24 < 256 ^ 8 := by omega
  constructor
  · omega
  · exact haligned
  · rw [framed_head, leValue_leBytes_of_lt hsize]
    omega
  · rw [hlen, show area.length + 32 - 24 = area.length + 8 by omega, framed_tail,
      leValue_leBytes_of_lt hsize]
    omega
  · rw [hlen, show area.length + 32 - 16 = area.length + 16 by omega, framed_magic]
  · rw [hlen, show area.length + 32 - 24 - 8 = area.length by omega, framed_area, ← harea]
    exact decodePairs_encoded hids (by rw [harea]; omega)

/-- The block is whole pages, and its pair area reads back as the pairs and at most one padding
pair of zeros. -/
theorem buildSigningBlock_layout (hids : ∀ p ∈ pairs, p.1 < 2 ^ 32)
    (hfit : (buildSigningBlock pairs).length < 2 ^ 64) :
    ∃ pad, BlockLayout (buildSigningBlock pairs) (pairs ++ pad) ∧
      (pad = [] ∨ ∃ k, pad = [(VERITY_PADDING_BLOCK_ID, List.replicate k 0)]) := by
  have haligned := paddedSize_aligned (pairs.map fun p => 12 + p.2.length).sum
  rw [← length_buildSigningBlock] at haligned
  refine ⟨padding pairs, ?_, padding_zeros pairs⟩
  rw [buildSigningBlock_eq] at hfit haligned ⊢
  exact framed_layout (padding_ids hids) hfit haligned

theorem buildSigningBlock_layout_pair : ∃ pad,
    BlockLayout (buildSigningBlock [(0x7109871a, [1, 2, 3])]) ([(0x7109871a, [1, 2, 3])] ++ pad) ∧
      (pad = [] ∨ ∃ k, pad = [(VERITY_PADDING_BLOCK_ID, List.replicate k 0)]) := by
  apply buildSigningBlock_layout
  · decide
  · rw [length_buildSigningBlock]
    decide

/-! ### The archive around it -/

theorem locateZipLayout_inside (h : locateZipLayout apk = .ok layout) :
    layout.eocd_offset + 22 ≤ apk.length := by
  unfold locateZipLayout at h
  dsimp only at h
  split at h
  · cases h
  · rename_i o hfound
    cases h
    have hmem := List.mem_of_find?_eq_some hfound
    rw [List.mem_reverse, List.mem_range'_1] at hmem
    dsimp only
    omega

/-- The input with zeros and a block put in before its directory, and the directory's place put
in the end record. -/
structure Intact (apk out : Bytes) (layout : ZipLayout) (pad : Nat) (block offset : Bytes) :
    Prop where
  pad_lt : pad < ANDROID_COMMON_PAGE_ALIGNMENT_BYTES
  pad_aligned : (layout.cd_offset + pad) % ANDROID_COMMON_PAGE_ALIGNMENT_BYTES = 0
  block_aligned : block.length % ANDROID_COMMON_PAGE_ALIGNMENT_BYTES = 0
  offset_length : offset.length = 4
  offset_value : leValue offset = layout.cd_offset + pad + block.length
  parts : out = apk.take layout.cd_offset ++ List.replicate pad 0 ++ block ++
    splice (apk.drop layout.cd_offset) (layout.eocd_offset - layout.cd_offset + 16) offset

/-- Only a signing block of the signer has been put in. -/
def KeepsZip (signer : Signer C) (apk : Bytes) (layout : ZipLayout) (out : Bytes) : Prop :=
  ∃ pad offset digest sig, digest.length = 32 ∧
    C.sign signer.key_pair (signedData signer digest) = .ok sig ∧
    Intact apk out layout pad
      (buildSigningBlock [(APK_SIGNATURE_SCHEME_V2_BLOCK_ID, v2Body signer digest sig)]) offset

def pageUp (n : Nat) : Nat := (n + 4095) / 4096 * 4096

/-- The length of the signing block, for signatures of `modulus_len` bytes. -/
def signedBlockSize (signer : Signer C) (modulus_len : Nat) : Nat :=
  paddedSize (12 + (32 + signer.cert_der.length + modulus_len +
    signer.public_key_spki_der.length + 64))

theorem length_signedBlock (signer : Signer C) (hdigest : digest.length = 32)
    (hsig : sig.length = modulus_len) :
    (buildSigningBlock
      [(APK_SIGNATURE_SCHEME_V2_BLOCK_ID, v2Body signer digest sig)]).length =
      signedBlockSize signer modulus_len := by
  rw [length_buildSigningBlock, signedBlockSize, ← hsig, ← hdigest, ← length_v2Body signer]
  simp

theorem length_digest (C : Crypto) (x y z : Bytes) : (computeChunkedSha256 C x y z).length = 32 :=
  (C.sha256 _).property

theorem le_pageUp (n : Nat) : n ≤ pageUp n := by
  unfold pageUp
  omega

theorem pageUp_unique {n pad : Nat} (hlt : pad < ANDROID_COMMON_PAGE_ALIGNMENT_BYTES)
    (h : (n + pad) % ANDROID_COMMON_PAGE_ALIGNMENT_BYTES = 0) : n + pad = pageUp n := by
  unfold ANDROID_COMMON_PAGE_ALIGNMENT_BYTES at hlt h
  unfold pageUp
  omega

theorem padToPage_eq (bs : Bytes) :
    padToPage bs = bs ++ List.replicate (pageUp bs.length - bs.length) 0 := by
  unfold padToPage pageUp ANDROID_COMMON_PAGE_ALIGNMENT_BYTES
  dsimp only
  congr 2
  split
  · omega
  · omega

theorem length_padToPage (bs : Bytes) : (padToPage bs).length = pageUp bs.length := by
  have hle := le_pageUp bs.length
  rw [padToPage_eq, List.length_append, List.length_replicate]
  omega

/-- The end record of `apk` is the last part of what follows its directory. -/
theorem splice_eocd (hsize : layout.cd_offset + layout.cd_size = layout.eocd_offset)
    (hinside : layout.eocd_offset + 22 ≤ apk.length) (offset : Bytes) :
    slice apk layout.cd_offset layout.cd_size ++ splice (apk.drop layout.eocd_offset) 16 offset =
      splice (apk.drop layout.cd_offset) (layout.eocd_offset - layout.cd_offset + 16) offset := by
  have hcut : apk.drop layout.cd_offset =
      slice apk layout.cd_offset layout.cd_size ++ apk.drop layout.eocd_offset := by
    rw [slice, ← hsize, ← List.drop_drop, List.take_append_drop]
  have hlen : (slice apk layout.cd_offset layout.cd_size).length = layout.cd_size :=
    length_slice (by omega)
  rw [hcut, splice_append_ge (by omega), hlen,
    show layout.eocd_offset - layout.cd_offset + 16 - layout.cd_size = 16 by omega]

/-- The parts of the output, by their lengths. -/
theorem signApkV2_built (hlayout : locateZipLayout apk = .ok layout)
    (hok : signApkV2 apk signer = .ok out) :
    layout.cd_offset + layout.cd_size ≤ layout.eocd_offset ∧
    ∃ digest sig, digest.length = 32 ∧
      C.sign signer.key_pair (signedData signer digest) = .ok sig ∧
      let before := padToPage (apk.take layout.cd_offset)
      let block := buildSigningBlock
        [(APK_SIGNATURE_SCHEME_V2_BLOCK_ID, v2Body signer digest sig)]
      before.length = pageUp layout.cd_offset ∧
      out = before ++ block ++ slice apk layout.cd_offset layout.cd_size ++
        splice (apk.drop layout.eocd_offset) 16 (leBytes 4 (before.length + block.length)) := by
  have hinside := locateZipLayout_inside hlayout
  obtain ⟨hcd, sig, hsig, hout⟩ := signApkV2_parts hlayout hok
  have htake : (apk.take layout.cd_offset).length = layout.cd_offset := by
    rw [List.length_take]
    omega
  have hbefore := length_padToPage (apk.take layout.cd_offset)
  rw [htake] at hbefore
  exact ⟨hcd, _, sig, length_digest C _ _ _, hsig, hbefore, hout⟩

/-- With the end record right behind the directory, and offsets that fit it, nothing is lost. -/
theorem keepsZip_of_fits
    (hkey : ∀ data sig, C.sign signer.key_pair data = .ok sig → sig.length = modulus_len)
    (hlayout : locateZipLayout apk = .ok layout) (hok : signApkV2 apk signer = .ok out)
    (hsize : layout.cd_offset + layout.cd_size = layout.eocd_offset)
    (hfit : pageUp layout.cd_offset + signedBlockSize signer modulus_len < 2 ^ 32) :
    KeepsZip signer apk layout out := by
  have hinside := locateZipLayout_inside hlayout
  obtain ⟨_, digest, sig, hdigest, hsig, hbefore, hout⟩ := signApkV2_built hlayout hok
  have htake : (apk.take layout.cd_offset).length = layout.cd_offset := by
    rw [List.length_take]
    omega
  have hblock := length_signedBlock signer hdigest (hkey _ _ hsig)
  have hle := le_pageUp layout.cd_offset
  refine ⟨pageUp layout.cd_offset - layout.cd_offset, _, digest, sig, hdigest, hsig, ?_, ?_, ?_,
    length_leBytes 4 (pageUp layout.cd_offset + signedBlockSize signer modulus_len), ?_, ?_⟩
  · unfold pageUp ANDROID_COMMON_PAGE_ALIGNMENT_BYTES
    omega
  · unfold pageUp ANDROID_COMMON_PAGE_ALIGNMENT_BYTES
    omega
  · rw [hblock]
    exact paddedSize_aligned _
  · rw [leValue_leBytes_of_lt hfit, hblock]
    omega
  · rw [hbefore, hblock, List.append_assoc, splice_eocd hsize hinside, padToPage_eq, htake] at hout
    exact hout

/-- Where nothing is lost, nothing stood between the directory and the end record. -/
theorem fits_of_keepsZip
    (hkey : ∀ data sig, C.sign signer.key_pair data = .ok sig → sig.length = modulus_len)
    (hlayout : locateZipLayout apk = .ok layout) (hok : signApkV2 apk signer = .ok out)
    (h : KeepsZip signer apk layout out) :
    layout.cd_offset + layout.cd_size = layout.eocd_offset ∧
      pageUp layout.cd_offset + signedBlockSize signer modulus_len < 2 ^ 32 := by
  have hinside := locateZipLayout_inside hlayout
  obtain ⟨hcd, digest, sig, hdigest, hsig, hbefore, hout⟩ := signApkV2_built hlayout hok
  obtain ⟨pad, offset, digest', sig', hdigest', hsig', hi⟩ := h
  have htake : (apk.take layout.cd_offset).length = layout.cd_offset := by
    rw [List.length_take]
    omega
  have hblock := length_signedBlock signer hdigest (hkey _ _ hsig)
  have hblock' := length_signedBlock signer hdigest' (hkey _ _ hsig')
  have hpad := pageUp_unique hi.pad_lt hi.pad_aligned
  have hvalue := leValue_lt offset
  rw [hi.offset_length, hi.offset_value, hblock', hpad] at hvalue
  refine ⟨?_, by omega⟩
  -- both descriptions of the output have its length
  have hcentral : (slice apk layout.cd_offset layout.cd_size).length = layout.cd_size :=
    length_slice (by omega)
  have hrecord : 16 + 4 ≤ (apk.drop layout.eocd_offset).length := by
    rw [List.length_drop]
    omega
  have hrest : layout.eocd_offset - layout.cd_offset + 16 + offset.length ≤
      (apk.drop layout.cd_offset).length := by
    rw [List.length_drop, hi.offset_length]
    omega
  have hlen := congrArg List.length (hout.symm.trans hi.parts)
  simp only [List.length_append] at hlen
  rw [hbefore, htake, hblock, hblock', hcentral, List.length_replicate, length_splice hrest,
    length_splice (by rw [length_leBytes]; exact hrecord), List.length_drop, List.length_drop] at hlen
  omega

/-- Exactly then does signing keep the archive. -/
theorem keepsZip_iff
    (hkey : ∀ data sig, C.sign signer.key_pair data = .ok sig → sig.length = modulus_len)
    (hlayout : locateZipLayout apk = .ok layout) (hok : signApkV2 apk signer = .ok out) :
    KeepsZip signer apk layout out ↔
      layout.cd_offset + layout.cd_size = layout.eocd_offset ∧
        pageUp layout.cd_offset + signedBlockSize signer modulus_len < 2 ^ 32 := by
  constructor
  · exact fits_of_keepsZip hkey hlayout hok
  · rintro ⟨hsize, hfit⟩
    exact keepsZip_of_fits hkey hlayout hok hsize hfit

theorem sampleSigner_modulus : ∀ data sig,
    sampleCrypto.sign sampleSigner.key_pair data = .ok sig → sig.length = 1 := by
  intro data sig h
  cases h
  rfl

theorem keepsZip_sampleApk : ∃ out layout, signApkV2 sampleApk sampleSigner = .ok out ∧
    locateZipLayout sampleApk = .ok layout ∧ KeepsZip sampleSigner sampleApk layout out := by
  have hsigned : (signApkV2 sampleApk sampleSigner).toOption.isSome = true := by decide +kernel
  obtain ⟨out, hout⟩ := Option.isSome_iff_exists.mp hsigned
  have heocd : EocdWithoutComment sampleApk := ⟨by decide, by decide, by decide⟩
  have hlayout := locateZipLayout_eq heocd
  refine ⟨out, _, toOption_eq_some.mp hout, hlayout, ?_⟩
  exact (keepsZip_iff sampleSigner_modulus hlayout (toOption_eq_some.mp hout)).mpr (by decide)

/-- `sampleApk` with a byte between its directory and its end record. -/
def gapApk : Bytes :=
  [1, 2, 3, 4, 5] ++ [6, 7, 8] ++ [9] ++
    EOCD_MAGIC ++ List.replicate 8 0 ++ leBytes 4 3 ++ leBytes 4 5 ++ [0, 0]

/-- That byte is gone from the signed file. -/
theorem gapApk_lost : ∃ out layout, signApkV2 gapApk sampleSigner = .ok out ∧
    locateZipLayout gapApk = .ok layout ∧ ¬ KeepsZip sampleSigner gapApk layout out := by
  have hsigned : (signApkV2 gapApk sampleSigner).toOption.isSome = true := by decide +kernel
  obtain ⟨out, hout⟩ := Option.isSome_iff_exists.mp hsigned
  have heocd : EocdWithoutComment gapApk := ⟨by decide, by decide, by decide⟩
  have hlayout := locateZipLayout_eq heocd
  refine ⟨out, _, toOption_eq_some.mp hout, hlayout, ?_⟩
  intro h
  have hfits := fits_of_keepsZip sampleSigner_modulus hlayout (toOption_eq_some.mp hout) h
  exact absurd hfits.1 (by decide)

end Aabox.Resigner.Sign
