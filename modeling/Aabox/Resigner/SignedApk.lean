import Aabox.Resigner.SignVerify

/-! A file that `sign_apk_v2` signed is accepted by the v2 verification procedure. -/
namespace Aabox.Resigner.Sign
open Aabox.Lib

variable {C : Crypto} {signer : Signer C} {apk out acc region digest sig body x y z : Bytes}
  {layout : ZipLayout} {n : Nat}

/-! ### The content digest -/

theorem length_chunks (region : Bytes) : (Verify.chunks region).length = chunkCount region.length := by
  unfold Verify.chunks chunkCount CONTENT_DIGESTED_CHUNK_MAX_SIZE_BYTES
  rw [List.length_map, List.length_range]
  split
  · omega
  · omega

/-- The digests of the first `k` chunks. -/
def firstDigests (C : Crypto) (region : Bytes) (k : Nat) : Bytes :=
  ((List.range k).map fun i => slice region (i * 0x100000) 0x100000).flatMap (Verify.chunkDigest C)

theorem firstDigests_succ (C : Crypto) (region : Bytes) (k : Nat) :
    firstDigests C region (k + 1) =
      firstDigests C region k ++ Verify.chunkDigest C (slice region (k * 0x100000) 0x100000) := by
  simp [firstDigests, List.range_succ]

/-- After `k` turns the loop stands at chunk `k`. -/
structure ChunkInv (C : Crypto) (acc region : Bytes) (s : Nat × Bytes) (k : Nat) : Prop where
  count : k ≤ (Verify.chunks region).length
  off : s.1 = min (k * 0x100000) region.length
  digests : s.2 = acc ++ firstDigests C region k

theorem chunkInv_step {s s' : Nat × Bytes} {k : Nat} (h : ChunkInv C acc region s k)
    (hstep : chunkStep C region s = .inl s') :
    ChunkInv C acc region s' (k + 1) ∧ region.length - s'.1 < region.length - s.1 := by
  have hoff := h.off
  unfold chunkStep at hstep
  split at hstep
  · rename_i hlt
    have hk : s.1 = k * 0x100000 := by omega
    cases hstep
    unfold CONTENT_DIGESTED_CHUNK_MAX_SIZE_BYTES
    refine ⟨⟨?_, ?_, ?_⟩, ?_⟩
    · rw [Verify.chunks, List.length_map, List.length_range]
      omega
    · dsimp only
      omega
    · rw [firstDigests_succ, ← List.append_assoc, ← h.digests, Verify.chunkDigest, ← hk,
        length_slice_min, slice_min]
    · dsimp only
      omega
  · cases hstep

theorem chunkInv_done {s : Nat × Bytes} {k : Nat} {r : Bytes} (h : ChunkInv C acc region s k)
    (hstep : chunkStep C region s = .inr r) :
    r = acc ++ (Verify.chunks region).flatMap (Verify.chunkDigest C) := by
  have hoff := h.off
  have hcount := h.count
  unfold chunkStep at hstep
  split at hstep
  · cases hstep
  · cases hstep
    rw [Verify.chunks, List.length_map, List.length_range] at hcount
    have hk : k = (region.length + 0xfffff) / 0x100000 := by omega
    rw [h.digests, hk]
    rfl

theorem digestRegion_eq (C : Crypto) (acc region : Bytes) :
    digestRegion C acc region = acc ++ (Verify.chunks region).flatMap (Verify.chunkDigest C) := by
  have hinit : ChunkInv C acc region (0, acc) 0 := ⟨Nat.zero_le _, by simp, by simp [firstDigests]⟩
  have htotal : ∃ r, loop (chunkStep C region) (region.length + 1) (0, acc) = some r ∧
      r = acc ++ (Verify.chunks region).flatMap (Verify.chunkDigest C) := by
    apply loop_total (I := fun s => ∃ k, ChunkInv C acc region s k)
      (m := fun s => region.length - s.1) ⟨0, hinit⟩
    · rintro s s' ⟨k, h⟩ hstep
      obtain ⟨hnext, hlt⟩ := chunkInv_step h hstep
      exact ⟨⟨k + 1, hnext⟩, hlt⟩
    · rintro s r ⟨k, h⟩ hstep
      exact chunkInv_done h hstep
    · dsimp only
      omega
  obtain ⟨r, hr, hq⟩ := htotal
  rw [digestRegion, hr]
  exact hq

/-- Signer and verifier digest the same chunks, in the same frame. -/
theorem computeChunkedSha256_eq (C : Crypto) (x y z : Bytes) :
    computeChunkedSha256 C x y z =
      (C.sha256 ([0x5a] ++ leBytes 4 ([x, y, z].flatMap Verify.chunks).length ++
        ([x, y, z].flatMap Verify.chunks).flatMap (Verify.chunkDigest C))).val := by
  unfold computeChunkedSha256
  simp only [List.foldl_cons, List.foldl_nil, digestRegion_eq, ← length_chunks, List.flatMap_cons,
    List.flatMap_nil, List.flatMap_append, List.length_append, List.append_nil, List.append_assoc,
    Nat.add_assoc]

/-! ### The signer block -/

def signedData (signer : Signer C) (digest : Bytes) : Bytes :=
  encodeLpElements [encodeLpIntLpBytesPairs [(SIG_ALG_RSA_PKCS1_V1_5_SHA256, digest)],
    encodeLpElements [signer.cert_der], [], []]

def signerElement (signer : Signer C) (digest sig : Bytes) : Bytes :=
  encodeLpElements [signedData signer digest,
    encodeLpIntLpBytesPairs [(SIG_ALG_RSA_PKCS1_V1_5_SHA256, sig)], signer.public_key_spki_der]

def v2Body (signer : Signer C) (digest sig : Bytes) : Bytes :=
  encodeLpElements [encodeLpElements [signerElement signer digest sig]]

theorem buildV2BlockBody_ok (h : buildV2BlockBody signer digest = .ok body) :
    ∃ sig, C.sign signer.key_pair (signedData signer digest) = .ok sig ∧
      body = v2Body signer digest sig := by
  obtain ⟨sig, hsig, h⟩ := bind_eq_ok.mp h
  cases h
  exact ⟨sig, hsig, rfl⟩

/-- What the verifier reads back. -/
def signerBlock (signer : Signer C) (digest sig : Bytes) : Verify.SignerBlock where
  signed_data := signedData signer digest
  digests := [(SIG_ALG_RSA_PKCS1_V1_5_SHA256, digest)]
  certificates := [signer.cert_der]
  attributes := []
  signatures := [(SIG_ALG_RSA_PKCS1_V1_5_SHA256, sig)]
  public_key := signer.public_key_spki_der

theorem algorithmEntries_eq (hid : n < 2 ^ 32) (hx : x.length + 8 < 2 ^ 32) :
    Verify.algorithmEntries (encodeLpIntLpBytesPairs [(n, x)]) = some [(n, x)] := by
  have hentry : Verify.algorithmEntry (leBytes 4 n ++ prefixed 4 x) = some (n, x) := by
    unfold Verify.algorithmEntry
    rw [takeInt_leBytes (by omega)]
    have := takePrefixed_prefixed (w := 4) (x := x) (by omega) []
    rw [List.append_nil] at this
    simp [this]
  have hitems : items 4 (prefixed 4 (leBytes 4 n ++ prefixed 4 x)) =
      some [leBytes 4 n ++ prefixed 4 x] := by
    apply items_singleton
    · decide
    · simp
      omega
  unfold Verify.algorithmEntries
  rw [encodeLpIntLpBytesPairs_eq, hitems]
  simp [hentry]

theorem length_pairs (n : Nat) (x : Bytes) :
    (encodeLpIntLpBytesPairs [(n, x)]).length = x.length + 12 := by
  rw [encodeLpIntLpBytesPairs_eq]
  simp
  omega

theorem length_signedData (signer : Signer C) (digest : Bytes) :
    (signedData signer digest).length = digest.length + signer.cert_der.length + 32 := by
  simp only [signedData, encodeLpElements_eq, List.flatMap_cons, List.flatMap_nil,
    List.length_append, length_prefixed, length_pairs, List.length_nil]
  omega

theorem length_signerElement (signer : Signer C) (digest sig : Bytes) :
    (signerElement signer digest sig).length =
      digest.length + signer.cert_der.length + sig.length +
        signer.public_key_spki_der.length + 56 := by
  simp only [signerElement, encodeLpElements_eq, List.flatMap_cons, List.flatMap_nil,
    List.length_append, length_prefixed, length_pairs, List.length_nil, length_signedData]
  omega

theorem v2Body_eq (signer : Signer C) (digest sig : Bytes) :
    v2Body signer digest sig = prefixed 4 (prefixed 4 (signerElement signer digest sig)) := by
  simp [v2Body, encodeLpElements_eq]

theorem length_v2Body (signer : Signer C) (digest sig : Bytes) :
    (v2Body signer digest sig).length =
      digest.length + signer.cert_der.length + sig.length +
        signer.public_key_spki_der.length + 64 := by
  rw [v2Body_eq, length_prefixed, length_prefixed, length_signerElement]
  omega

theorem parseSigner_eq (h : (signerElement signer digest sig).length < 2 ^ 32) :
    Verify.parseSigner (signerElement signer digest sig) = some (signerBlock signer digest sig) := by
  have hdata := length_signedData signer digest
  have hlen := length_signerElement signer digest sig
  have hcert : items 4 (encodeLpElements [signer.cert_der]) = some [signer.cert_der] := by
    rw [encodeLpElements_eq, List.flatMap_singleton]
    exact items_singleton (by decide) (by omega)
  have hcert' : (encodeLpElements [signer.cert_der]).length = signer.cert_der.length + 4 := by
    simp [encodeLpElements]
    omega
  have hdigests := algorithmEntries_eq (n := SIG_ALG_RSA_PKCS1_V1_5_SHA256) (x := digest)
    (by decide) (by omega)
  have hsigs := algorithmEntries_eq (n := SIG_ALG_RSA_PKCS1_V1_5_SHA256) (x := sig)
    (by decide) (by omega)
  have hd := length_pairs SIG_ALG_RSA_PKCS1_V1_5_SHA256 digest
  have hs := length_pairs SIG_ALG_RSA_PKCS1_V1_5_SHA256 sig
  -- the fields of the signer, then those of the signed data
  have helement : signerElement signer digest sig =
      prefixed 4 (signedData signer digest) ++
        (prefixed 4 (encodeLpIntLpBytesPairs [(SIG_ALG_RSA_PKCS1_V1_5_SHA256, sig)]) ++
          (prefixed 4 signer.public_key_spki_der ++ [])) := by
    simp [signerElement, encodeLpElements_eq]
  have hfirst : takePrefixed 4 (signedData signer digest) =
      some (encodeLpIntLpBytesPairs [(SIG_ALG_RSA_PKCS1_V1_5_SHA256, digest)],
        prefixed 4 (encodeLpElements [signer.cert_der]) ++ (prefixed 4 [] ++ prefixed 4 [])) := by
    have hparts : signedData signer digest =
        prefixed 4 (encodeLpIntLpBytesPairs [(SIG_ALG_RSA_PKCS1_V1_5_SHA256, digest)]) ++
          (prefixed 4 (encodeLpElements [signer.cert_der]) ++ (prefixed 4 [] ++ prefixed 4 [])) := by
      simp [signedData, encodeLpElements_eq]
    rw [hparts]
    exact takePrefixed_prefixed (by omega) _
  unfold Verify.parseSigner
  simp only [Option.bind_eq_bind]
  rw [helement, takePrefixed_prefixed (by omega), Option.bind_some]
  dsimp only
  rw [takePrefixed_prefixed (by omega), Option.bind_some]
  dsimp only
  rw [takePrefixed_prefixed (by omega), Option.bind_some, hfirst, Option.bind_some]
  dsimp only
  rw [takePrefixed_prefixed (by omega), Option.bind_some]
  dsimp only
  rw [takePrefixed_prefixed (by simp), Option.bind_some, hdigests, Option.bind_some, hcert,
    Option.bind_some, hsigs]
  rfl

theorem parseSigners_eq (h : (v2Body signer digest sig).length < 2 ^ 32) :
    Verify.parseSigners (v2Body signer digest sig) = some [signerBlock signer digest sig] := by
  have hbody : v2Body signer digest sig =
      prefixed 4 (prefixed 4 (signerElement signer digest sig)) ++ [] := by
    rw [v2Body_eq, List.append_nil]
  rw [v2Body_eq, length_prefixed, length_prefixed] at h
  have hitems : items 4 (prefixed 4 (signerElement signer digest sig)) =
      some [signerElement signer digest sig] := items_singleton (by decide) (by omega)
  unfold Verify.parseSigners
  simp only [Option.bind_eq_bind]
  rw [hbody, takePrefixed_prefixed (by rw [length_prefixed]; omega), Option.bind_some]
  dsimp only
  rw [hitems, Option.bind_some]
  simp [parseSigner_eq (show (signerElement signer digest sig).length < 2 ^ 32 by omega)]

theorem verifySigner_eq (hm : signer.Matches)
    (hsig : C.sign signer.key_pair (signedData signer digest) = .ok sig) :
    Verify.verifySigner C digest (signerBlock signer digest sig) = true := by
  have hverify := hm _ _ hsig
  simp [Verify.verifySigner, signerBlock, Verify.supported, SIG_ALG_RSA_PKCS1_V1_5_SHA256, hverify,
    signer.spki_eq]

/-! ### The signed file -/

/-- The end record ends the file. -/
structure EocdWithoutComment (apk : Bytes) : Prop where
  length : 22 ≤ apk.length
  magic : slice apk (apk.length - 22) 4 = EOCD_MAGIC
  comment : leValue (slice apk (apk.length - 2) 2) = 0

theorem locateZipLayout_eq (h : EocdWithoutComment apk) : locateZipLayout apk = .ok {
    cd_offset := leValue (slice apk (apk.length - 22 + 16) 4)
    cd_size := leValue (slice apk (apk.length - 22 + 12) 4)
    eocd_offset := apk.length - 22 } := by
  have hlen := h.length
  have hfound : isEocd apk (apk.length - 22) = true := by
    refine decide_eq_true ⟨h.magic, ?_⟩
    rw [show apk.length - 22 + 20 = apk.length - 2 by omega, h.comment]
    omega
  -- the search starts from the end
  have hrange : List.range' (apk.length - min apk.length (22 + 65535))
      (apk.length - 21 - (apk.length - min apk.length (22 + 65535))) =
      List.range' (apk.length - min apk.length (22 + 65535))
        (apk.length - 22 - (apk.length - min apk.length (22 + 65535))) ++ [apk.length - 22] := by
    rw [show apk.length - 21 - (apk.length - min apk.length (22 + 65535)) =
      apk.length - 22 - (apk.length - min apk.length (22 + 65535)) + 1 by omega,
      List.range'_concat, Nat.one_mul]
    congr 2
    omega
  unfold locateZipLayout
  dsimp only
  rw [hrange, List.reverse_append, List.reverse_singleton, List.singleton_append,
    List.find?_cons_of_pos hfound]

/-- Pointing the end record elsewhere changes its directory offset and nothing else. -/
theorem endRecord_of_eocd (h : EocdWithoutComment apk) (hn : n < 2 ^ 32) :
    EndRecord (splice (apk.drop (apk.length - 22)) 16 (leBytes 4 n)) n
      (leValue (slice apk (apk.length - 22 + 12) 4)) := by
  have hlen := h.length
  have hb : 16 + (leBytes 4 n).length ≤ (apk.drop (apk.length - 22)).length := by
    rw [length_leBytes, List.length_drop]
    omega
  have hslice : ∀ k m, slice (apk.drop (apk.length - 22)) k m =
      slice apk (apk.length - 22 + k) m := by
    intro k m
    simp [slice]
  have hself := slice_splice_self hb
  rw [length_leBytes] at hself hb
  constructor
  · rw [length_splice (by rw [length_leBytes]; exact hb), List.length_drop]
    omega
  · rw [slice_splice_apart (by rw [length_leBytes]; exact hb) (by omega), hslice]
    exact h.magic
  · rw [slice_splice_apart (by rw [length_leBytes]; exact hb) (by rw [length_leBytes]; omega),
      hslice, show apk.length - 22 + 20 = apk.length - 2 by omega]
    exact h.comment
  · rw [slice_splice_apart (by rw [length_leBytes]; exact hb) (by omega), hslice]
  · rw [hself, leValue_leBytes_of_lt (by omega)]

/-- The parts of the output, and that the signature is over the signed data in it. -/
theorem signApkV2_parts (hlayout : locateZipLayout apk = .ok layout)
    (hok : signApkV2 apk signer = .ok out) :
    layout.cd_offset + layout.cd_size ≤ layout.eocd_offset ∧
    ∃ sig,
      let before := padToPage (apk.take layout.cd_offset)
      let central := slice apk layout.cd_offset layout.cd_size
      let eocd := apk.drop layout.eocd_offset
      let digest := computeChunkedSha256 C before central (splice eocd 16 (leBytes 4 before.length))
      let block := buildSigningBlock
        [(APK_SIGNATURE_SCHEME_V2_BLOCK_ID, v2Body signer digest sig)]
      C.sign signer.key_pair (signedData signer digest) = .ok sig ∧
      out = before ++ block ++ central ++
        splice eocd 16 (leBytes 4 (before.length + block.length)) := by
  unfold signApkV2 at hok
  rw [hlayout] at hok
  obtain ⟨layout, hlayout, hok⟩ := bind_eq_ok.mp hok
  cases hlayout
  obtain ⟨hinside, hok⟩ := throw_bind_eq_ok.mp hok
  obtain ⟨body, hbody, hok⟩ := bind_eq_ok.mp hok
  obtain ⟨sig, hsig, rfl⟩ := buildV2BlockBody_ok hbody
  cases hok
  exact ⟨Nat.le_of_not_lt hinside, sig, hsig, rfl⟩

theorem signApkV2_ok (h : EocdWithoutComment apk) (hok : signApkV2 apk signer = .ok out) :
    ∃ before central sig, central.length = leValue (slice apk (apk.length - 22 + 12) 4) ∧
      let eocd := apk.drop (apk.length - 22)
      let digest := computeChunkedSha256 C before central (splice eocd 16 (leBytes 4 before.length))
      let block := buildSigningBlock
        [(APK_SIGNATURE_SCHEME_V2_BLOCK_ID, v2Body signer digest sig)]
      C.sign signer.key_pair (signedData signer digest) = .ok sig ∧
      out = before ++ block ++ central ++
        splice eocd 16 (leBytes 4 (before.length + block.length)) := by
  obtain ⟨hinside, sig, hsig, hout⟩ := signApkV2_parts (locateZipLayout_eq h) hok
  have hlen := h.length
  dsimp only at hinside
  refine ⟨_, _, sig, ?_, hsig, hout⟩
  apply length_slice
  dsimp only
  omega

theorem mapM_takeInt (pairs : List (Nat × Bytes)) (hids : ∀ p ∈ pairs, p.1 < 2 ^ 32) :
    (pairs.map fun p => leBytes 4 p.1 ++ p.2).mapM (takeInt 4) = some pairs := by
  induction pairs with
  | nil => rfl
  | cons p pairs ih =>
    have hp := hids p (List.mem_cons_self ..)
    rw [List.map_cons, List.mapM_cons, takeInt_leBytes (by omega),
      ih (fun q hq => hids q (List.mem_cons_of_mem _ hq))]
    rfl

/-- The padding stands behind the given pairs, and is nothing but zeros. -/
theorem padding_zeros (pairs : List (Nat × Bytes)) :
    padding pairs = [] ∨ ∃ k, padding pairs = [(VERITY_PADDING_BLOCK_ID, List.replicate k 0)] := by
  unfold padding
  dsimp only
  split
  · exact .inr ⟨_, rfl⟩
  · exact .inl rfl

theorem padding_ids {pairs : List (Nat × Bytes)} (hids : ∀ p ∈ pairs, p.1 < 2 ^ 32) :
    ∀ p ∈ pairs ++ padding pairs, p.1 < 2 ^ 32 := by
  intro p hp
  rcases List.mem_append.mp hp with hp | hp
  · exact hids p hp
  · rcases padding_zeros pairs with hpad | ⟨k, hpad⟩
    · rw [hpad] at hp
      cases hp
    · rw [hpad, List.mem_singleton] at hp
      subst hp
      exact (by decide : VERITY_PADDING_BLOCK_ID < 2 ^ 32)

/-- The pair area as the entries that a reader splits it into. -/
theorem flatMap_encodePair (pairs : List (Nat × Bytes)) :
    pairs.flatMap encodePair =
      (pairs.map fun p => leBytes 4 p.1 ++ p.2).flatMap (prefixed 8) := by
  rw [List.flatMap_map]
  rfl

theorem entry_lt {pairs : List (Nat × Bytes)} (hfit : (pairs.flatMap encodePair).length < n) :
    ∀ e ∈ pairs.map (fun p => leBytes 4 p.1 ++ p.2), e.length < n := by
  intro e he
  obtain ⟨p, hp, rfl⟩ := List.mem_map.mp he
  have hmem : encodePair p ∈ pairs.map encodePair := List.mem_map_of_mem hp
  have hle := (List.sublist_flatten_of_mem hmem).length_le
  rw [← List.flatMap_def, length_encodePair] at hle
  rw [List.length_append, length_leBytes]
  omega

/-- The verifier finds the block that was put in, and the pairs in it. -/
theorem findSigningBlock_built {before central eocd : Bytes} {pairs : List (Nat × Bytes)}
    (hids : ∀ p ∈ pairs, p.1 < 2 ^ 32)
    (hrecord : EndRecord eocd (before.length + (buildSigningBlock pairs).length) central.length)
    (hsize : (buildSigningBlock pairs).length < 2 ^ 32) :
    Verify.findSigningBlock (before ++ buildSigningBlock pairs ++ central ++ eocd) = some {
      start := before.length
      cd_offset := before.length + (buildSigningBlock pairs).length
      eocd_offset := before.length + (buildSigningBlock pairs).length + central.length
      pairs := pairs ++ padding pairs } := by
  rw [buildSigningBlock_eq, length_framed] at hrecord hsize ⊢
  have hfit : ((pairs ++ padding pairs).flatMap encodePair).length < 256 ^ 8 := by omega
  exact findSigningBlock_eq hrecord (flatMap_encodePair _) (by omega) (entry_lt hfit)
    (mapM_takeInt _ (padding_ids hids))

/-- The verifier's view of the contents is what the signer digested. -/
theorem contents_eq {before block central eocd : Bytes} {pairs : List (Nat × Bytes)}
    (hlen : 20 ≤ eocd.length) :
    Verify.contents
      (before ++ block ++ central ++ splice eocd 16 (leBytes 4 n))
      { start := before.length
        cd_offset := before.length + block.length
        eocd_offset := before.length + block.length + central.length
        pairs } =
      [before, central, splice eocd 16 (leBytes 4 before.length)] := by
  have hstart : (before ++ block ++ central ++ splice eocd 16 (leBytes 4 n)).take before.length =
      before := by
    rw [List.append_assoc, List.append_assoc, List.take_left]
  have hcentral : slice (before ++ block ++ central ++ splice eocd 16 (leBytes 4 n))
      (before.length + block.length)
      (before.length + block.length + central.length - (before.length + block.length)) =
      central := by
    rw [List.append_assoc]
    exact slice_middle _ (by simp) (by omega)
  have hend : (before ++ block ++ central ++ splice eocd 16 (leBytes 4 n)).drop
      (before.length + block.length + central.length) = splice eocd 16 (leBytes 4 n) :=
    List.drop_left' (by rw [List.length_append, List.length_append])
  simp only [Verify.contents, hstart, hcentral, hend]
  rw [splice_splice (by rw [length_leBytes]; exact hlen) (by simp)]

/-- A signed file passes verification, with the one signer it was signed with. -/
theorem signApkV2_verifies (hm : signer.Matches) (h : EocdWithoutComment apk)
    (hok : signApkV2 apk signer = .ok out) (hsize : out.length < 2 ^ 32) :
    ∃ digest sig, C.sign signer.key_pair (signedData signer digest) = .ok sig ∧
      Verify.verifyV2 C out = some [signerBlock signer digest sig] := by
  obtain ⟨before, central, sig, hcentral, hsig, hout⟩ := signApkV2_ok h hok
  have heocd : (apk.drop (apk.length - 22)).length = 22 := by
    have := h.length
    rw [List.length_drop]
    omega
  generalize hdigest : computeChunkedSha256 C before central
    (splice (apk.drop (apk.length - 22)) 16 (leBytes 4 before.length)) = digest at hsig hout
  generalize hpairs : [(APK_SIGNATURE_SCHEME_V2_BLOCK_ID, v2Body signer digest sig)] = pairs at hout
  have hlen : out.length = before.length + (buildSigningBlock pairs).length + central.length + 22 := by
    rw [hout]
    simp only [List.length_append]
    rw [length_splice (by rw [length_leBytes, heocd]; decide), heocd]
  have hrecord := endRecord_of_eocd h
    (n := before.length + (buildSigningBlock pairs).length) (by omega)
  rw [← hcentral] at hrecord
  have hids : ∀ p ∈ pairs, p.1 < 2 ^ 32 := by
    rw [← hpairs]
    intro p hp
    obtain rfl : p = _ := by simpa using hp
    exact (by decide : APK_SIGNATURE_SCHEME_V2_BLOCK_ID < 2 ^ 32)
  have hfind := findSigningBlock_built hids hrecord (by omega)
  rw [← hout] at hfind
  have hbody : (v2Body signer digest sig).length < 2 ^ 32 := by
    have hblock := congrArg List.length (buildSigningBlock_eq pairs)
    rw [length_framed, ← hpairs, List.flatMap_append, List.length_append, List.flatMap_singleton,
      length_encodePair, hpairs] at hblock
    dsimp only at hblock
    omega
  refine ⟨digest, sig, hsig, ?_⟩
  unfold Verify.verifyV2
  simp only [Option.bind_eq_bind]
  rw [hfind, Option.bind_some]
  dsimp only
  have hv2 : (pairs ++ padding pairs).find? (fun p => p.1 = 0x7109871a) =
      some (APK_SIGNATURE_SCHEME_V2_BLOCK_ID, v2Body signer digest sig) := by
    rw [← hpairs]
    exact List.find?_cons_of_pos (decide_eq_true rfl)
  rw [hv2, Option.bind_some]
  dsimp only
  rw [parseSigners_eq hbody, Option.bind_some]
  have hcontent : Verify.contentDigest C out {
      start := before.length
      cd_offset := before.length + (buildSigningBlock pairs).length
      eocd_offset := before.length + (buildSigningBlock pairs).length + central.length
      pairs := pairs ++ padding pairs } = digest := by
    rw [Verify.contentDigest, hout, contents_eq (by omega), ← hdigest, computeChunkedSha256_eq]
  rw [hcontent, if_pos]
  · rfl
  · simp [verifySigner_eq hm hsig]

/-- A number below 55 that stands for the message. -/
def residue (data : Bytes) : Nat := (data.foldl (· + ·) 0).toNat % 55

/-- RSA with the modulus 55; a certificate is a header of two bytes and the public key. -/
def sampleCrypto : Crypto where
  KeyPair := Nat
  sha256 bs := ⟨List.replicate 31 0 ++ [bs.foldl (· + ·) 0], by simp⟩
  sign d data := .ok [UInt8.ofNat (residue data ^ d % 55)]
  verify key data sig :=
    match key, sig with
    | [n, e], [s] => s.toNat ^ e.toNat % n.toNat == residue data
    | _, _ => false
  spki cert := some (cert.drop 2)

def sampleSigner : Signer sampleCrypto where
  key_pair := (27 : Nat)
  cert_der := [0x30, 0x02, 55, 3]
  public_key_spki_der := [55, 3]
  spki_eq := rfl

/-- Five bytes of entries, a directory of three bytes, and the end record. -/
def sampleApk : Bytes :=
  [1, 2, 3, 4, 5] ++ [6, 7, 8] ++
    EOCD_MAGIC ++ List.replicate 8 0 ++ leBytes 4 3 ++ leBytes 4 5 ++ [0, 0]

theorem sampleSigner_matches : sampleSigner.Matches := by
  intro data sig h
  cases h
  have hrsa : ∀ m < 55, (UInt8.ofNat (m ^ 27 % 55)).toNat ^ 3 % 55 = m := by decide
  have hm := hrsa (residue data) (Nat.mod_lt _ (by decide))
  exact beq_iff_eq.mpr hm

theorem signApkV2_verifies_sampleApk : ∃ out digest sig,
    signApkV2 sampleApk sampleSigner = .ok out ∧
      Verify.verifyV2 sampleCrypto out = some [signerBlock sampleSigner digest sig] := by
  have hsigned : (signApkV2 sampleApk sampleSigner).toOption.map List.length = some 8217 := by
    decide +kernel
  obtain ⟨out, hout, hlen⟩ := Option.map_eq_some_iff.mp hsigned
  have hok := toOption_eq_some.mp hout
  obtain ⟨digest, sig, _, hverify⟩ := signApkV2_verifies sampleSigner_matches
    ⟨by decide, by decide, by decide⟩ hok (by omega)
  exact ⟨out, digest, sig, hok, hverify⟩

end Aabox.Resigner.Sign
