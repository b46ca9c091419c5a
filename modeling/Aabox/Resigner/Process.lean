import Aabox.Resigner.Cert
import Aabox.Resigner.Complete
import Aabox.Resigner.Intact
import Aabox.Resigner.Repack
import Mathlib.Logic.Function.Basic

/-! `process_apk`: from the file that was downloaded to the file that can be installed. -/
namespace Aabox.Resigner.Apk
open Aabox.Lib Dex Sign

/-! ### Files -/

structure Path where
  dir : Name
  file : Name
  deriving DecidableEq, Repr

def Path.display (p : Path) : String := String.ofList (p.dir ++ '/' :: p.file)

abbrev Disk := Path → Option Bytes

def Disk.read (disk : Disk) (p : Path) : Except String Bytes :=
  match disk p with
  | some bs => .ok bs
  | none => .error "No such file or directory (os error 2)"

/-- How a write goes: in full, not at all, or only so many bytes of it. -/
inductive Writing
  | full | refused (e : String) | cut (n : Nat) (e : String)
  deriving DecidableEq, Repr

/-- `std::fs::write` -/
def Disk.write (disk : Disk) (p : Path) (bs : Bytes) : Writing → Except String Unit × Disk
  | .full => (.ok (), Function.update disk p (some bs))
  | .refused e => (.error e, disk)
  | .cut n e => (.error e, Function.update disk p (some (bs.take n)))

/-! ### The pipeline -/

structure ProcessReport where
  input_bytes : Nat
  output_bytes : Nat
  sdk_int_patches : Nat
  dex_files_patched : Nat
  elapsed_ms : Nat
  deriving DecidableEq, Repr

section
variable {C : Crypto} (zip : ZipCrate) (sha1 : Sha1) (L : Loader C)

def load (key_path cert_path : Path) (disk : Disk) : Except String (Signer C) := do
  let key_bytes ← context s!"reading key {key_path.display}" (disk.read key_path)
  let cert_bytes ← context s!"reading cert {cert_path.display}" (disk.read cert_path)
  fromBytes L key_bytes cert_bytes

/-- The steps before the output is written: the input, the output and the counts. -/
def rebuild (input key_path cert_path : Path) (disk : Disk) :
    Except String (Bytes × Bytes × PatchStats) := do
  let signer ← context s!"loading signer from {key_path.display} + {cert_path.display}"
    (load L key_path cert_path disk)
  let apk_bytes ← context s!"reading {input.display}" (disk.read input)
  let (repacked, patch_stats) ← context "repacking + patching APK"
    (repackAndPatch zip sha1 apk_bytes)
  let signed ← context "re-signing APK with v2 scheme" (signApkV2 repacked signer)
  return (apk_bytes, signed, patch_stats)

def processApk (input output key_path cert_path : Path) (writing : Writing) (elapsed_ms : Nat)
    (disk : Disk) : Except String ProcessReport × Disk :=
  match rebuild zip sha1 L input key_path cert_path disk with
  | .error e => (.error e, disk)
  | .ok (apk_bytes, signed, patch_stats) =>
    match disk.write output signed writing with
    | (.error e, disk) => (.error s!"writing {output.display}: {e}", disk)
    | (.ok (), disk) => (.ok {
        input_bytes := apk_bytes.length
        output_bytes := signed.length
        sdk_int_patches := patch_stats.sdk_int_patches
        dex_files_patched := patch_stats.dex_files_patched
        elapsed_ms := elapsed_ms }, disk)

end

variable {C : Crypto} {zip : ZipCrate} {sha1 : Sha1} {L : Loader C} {disk disk' disk₁ disk₂ : Disk}
  {input output output₂ key_path cert_path p : Path} {writing writing₂ : Writing}
  {elapsed_ms elapsed_ms₂ modulus_len : Nat} {report report₂ : ProcessReport}
  {bs apk out : Bytes} {stats : PatchStats} {es : List Entry} {e : Entry} {signer : Signer C}
  {layout : ZipLayout} {pad : Nat} {block offset : Bytes}

theorem read_eq_ok : disk.read p = .ok bs ↔ disk p = some bs := by
  unfold Disk.read
  cases disk p with
  | none =>
    constructor
    · intro h
      cases h
    · intro h
      cases h
  | some bs' =>
    constructor
    · intro h
      cases h
      rfl
    · intro h
      cases h
      rfl

theorem rebuild_ok (h : rebuild zip sha1 L input key_path cert_path disk = .ok (apk, out, stats)) :
    ∃ signer repacked, load L key_path cert_path disk = .ok signer ∧ disk input = some apk ∧
      repackAndPatch zip sha1 apk = .ok (repacked, stats) ∧
      signApkV2 repacked signer = .ok out := by
  unfold rebuild at h
  rcases bind_eq_ok.mp h with ⟨signer, hload, h⟩
  rcases bind_eq_ok.mp h with ⟨apk_bytes, hread, h⟩
  rcases bind_eq_ok.mp h with ⟨⟨repacked, patch_stats⟩, hrepack, h⟩
  rcases bind_eq_ok.mp h with ⟨signed, hsign, h⟩
  cases h
  rw [context_ok] at hload hread hrepack hsign
  exact ⟨signer, repacked, hload, read_eq_ok.mp hread, hrepack, hsign⟩

/-- What a run that reports something has done. -/
theorem processApk_ok (h : processApk zip sha1 L input output key_path cert_path writing elapsed_ms
    disk = (.ok report, disk')) : ∃ apk out stats,
      rebuild zip sha1 L input key_path cert_path disk = .ok (apk, out, stats) ∧
      disk' = Function.update disk output (some out) ∧
      report = ⟨apk.length, out.length, stats.sdk_int_patches, stats.dex_files_patched,
        elapsed_ms⟩ := by
  unfold processApk at h
  cases hbuilt : rebuild zip sha1 L input key_path cert_path disk with
  | error e =>
    rw [hbuilt] at h
    cases h
  | ok built =>
    rcases built with ⟨apk, out, stats⟩
    rw [hbuilt] at h
    cases writing with
    | full =>
      cases h
      exact ⟨apk, out, stats, rfl, rfl, rfl⟩
    | refused e => cases h
    | cut n e => cases h

/-- No run touches a file but its output. -/
theorem processApk_frame (hp : p ≠ output) : (processApk zip sha1 L input output key_path cert_path
    writing elapsed_ms disk).2 p = disk p := by
  unfold processApk
  cases rebuild zip sha1 L input key_path cert_path disk with
  | error e => rfl
  | ok built =>
    cases writing with
    | full => exact Function.update_of_ne hp _ _
    | refused e => rfl
    | cut n e => exact Function.update_of_ne hp _ _

/-! ### What the output is -/

/-- A reader that goes by the end record finds the same directory, behind what was put in. -/
theorem intact_located (h : Intact apk out layout pad block offset) (heocd : EocdWithoutComment apk)
    (hlayout : locateZipLayout apk = .ok layout)
    (hinside : layout.cd_offset + layout.cd_size ≤ layout.eocd_offset) :
    EocdWithoutComment out ∧ ∃ layout', locateZipLayout out = .ok layout' ∧
      layout'.cd_offset + layout'.cd_size ≤ layout'.eocd_offset ∧
      apk.take layout.cd_offset <+: out.take layout'.cd_offset ∧
      slice out layout'.cd_offset layout'.cd_size = slice apk layout.cd_offset layout.cd_size := by
  have hlen := heocd.length
  have heq := locateZipLayout_eq heocd
  rw [hlayout] at heq
  cases heq
  dsimp only at hinside h ⊢
  generalize hcd : leValue (slice apk (apk.length - 22 + 16) 4) = cd at *
  generalize hsize : leValue (slice apk (apk.length - 22 + 12) 4) = size at *
  have hparts := h.parts
  have hvalue := h.offset_value
  dsimp only at hparts hvalue
  have htake : (apk.take cd).length = cd := by
    rw [List.length_take]
    omega
  have hpre : (apk.take cd ++ List.replicate pad 0 ++ block).length = cd + pad + block.length := by
    rw [List.length_append, List.length_append, htake, List.length_replicate]
  generalize hp : apk.take cd ++ List.replicate pad 0 ++ block = pre at *
  have hb : apk.length - 22 - cd + 16 + offset.length ≤ (apk.drop cd).length := by
    rw [List.length_drop, h.offset_length]
    omega
  have htail : out.length = pre.length + (apk.length - cd) := by
    rw [hparts, List.length_append, length_splice hb, List.length_drop]
  have hslice : ∀ k n, pre.length ≤ k → slice out k n =
      slice (splice (apk.drop cd) (apk.length - 22 - cd + 16) offset) (k - pre.length) n := by
    intro k n hk
    rw [hparts, slice_append_ge hk]
  -- outside of the four bytes of the offset the end of the file is as it was
  have hkeep : ∀ k n, pre.length ≤ k → (k + n + 6 ≤ out.length ∨ out.length ≤ k + 2) →
      slice out k n = slice apk (k - pre.length + cd) n := by
    intro k n hk hapart
    have hdrop : ∀ j, slice (apk.drop cd) j n = slice apk (j + cd) n := by
      intro j
      rw [slice, slice, List.drop_drop, Nat.add_comm]
    rw [hslice k n hk, slice_splice_apart hb (by rw [h.offset_length]; omega), hdrop]
  have hplace : leValue (slice out (out.length - 22 + 16) 4) = pre.length := by
    have hself := slice_splice_self hb
    rw [h.offset_length] at hself
    rw [hslice _ _ (by omega),
      show out.length - 22 + 16 - pre.length = apk.length - 22 - cd + 16 by omega, hself, hvalue,
      hpre]
  have hout : EocdWithoutComment out := by
    constructor
    · omega
    · rw [hkeep _ _ (by omega) (by omega),
        show out.length - 22 - pre.length + cd = apk.length - 22 by omega]
      exact heocd.magic
    · rw [hkeep _ _ (by omega) (by omega),
        show out.length - 2 - pre.length + cd = apk.length - 2 by omega]
      exact heocd.comment
  have hsame : leValue (slice out (out.length - 22 + 12) 4) = size := by
    rw [hkeep _ _ (by omega) (by omega),
      show out.length - 22 + 12 - pre.length + cd = apk.length - 22 + 12 by omega, hsize]
  refine ⟨hout, _, locateZipLayout_eq hout, ?_, ?_, ?_⟩
  · dsimp only
    omega
  · dsimp only
    rw [hplace, hparts, List.take_left, ← hp, List.append_assoc]
    exact List.prefix_append _ _
  · dsimp only
    rw [hplace, hsame, hkeep _ _ (Nat.le_refl _) (by omega), Nat.sub_self, Nat.zero_add]

/-- The crate on what it has written itself. There is an end record without a comment; fewer than
65535 files are listed right before it, if the record says that the list ends below 4 GiB, and are
read by their places in the list, so that a signing block put in before it does not matter. -/
structure ZipCrate.Usual (zip : ZipCrate) : Prop where
  faithful : zip.Faithful
  ends : ∀ os bytes, zip.Writes os bytes → EocdWithoutComment bytes
  behind : ∀ os bytes layout, zip.Writes os bytes → os.length < 65535 →
    locateZipLayout bytes = .ok layout → layout.cd_offset + layout.cd_size < 2 ^ 32 - 1 →
    layout.cd_offset + layout.cd_size = layout.eocd_offset
  moves : ∀ os bytes out layout pad pairs offset, zip.Writes os bytes → (os.map Prod.fst).Nodup →
    os.length < 65535 → locateZipLayout bytes = .ok layout →
    Intact bytes out layout pad (buildSigningBlock pairs) offset → out.length < 2 ^ 32 →
    zip.Lists out (os.map Output.entry)

/-- The key belongs to the certificate; its signatures are of one length. -/
def Signer.Usual (signer : Signer C) (modulus_len : Nat) : Prop :=
  signer.Matches ∧
    ∀ data sig, C.sign signer.key_pair data = .ok sig → sig.length = modulus_len

/-- The entries that are kept, as they are written. -/
def rebuilt (sha1 : Sha1) (es : List Entry) : List Entry :=
  (es.filter fun e => ¬ isSigningArtefact e.name).map (Entry.repacked sha1)

theorem length_rebuilt (sha1 : Sha1) (es : List Entry) :
    (rebuilt sha1 es).length ≤ es.length := by
  rw [rebuilt, List.length_map]
  exact List.length_filter_le _ _

/-- A file with the signer's block in it verifies, whatever else stands in the signing block. -/
theorem built_verifies {before central eocd digest sig : Bytes} {pairs : List (Nat × Bytes)}
    (hm : signer.Matches) (hsig : C.sign signer.key_pair (signedData signer digest) = .ok sig)
    (hdigest : computeChunkedSha256 C before central (splice eocd 16 (leBytes 4 before.length)) =
      digest) (heocd : 20 ≤ eocd.length) (hids : ∀ p ∈ pairs, p.1 < 2 ^ 32)
    (hv2 : pairs.find? (fun p => p.1 = 0x7109871a) =
      some (APK_SIGNATURE_SCHEME_V2_BLOCK_ID, v2Body signer digest sig))
    (hrecord : EndRecord
      (splice eocd 16 (leBytes 4 (before.length + (buildSigningBlock pairs).length)))
      (before.length + (buildSigningBlock pairs).length) central.length)
    (hsize : (buildSigningBlock pairs).length < 2 ^ 32) :
    Verify.verifyV2 C (before ++ buildSigningBlock pairs ++ central ++
      splice eocd 16 (leBytes 4 (before.length + (buildSigningBlock pairs).length))) =
      some [signerBlock signer digest sig] := by
  have hbody : (v2Body signer digest sig).length < 2 ^ 32 := by
    have hfit : (pairs.flatMap encodePair).length < 2 ^ 32 := by
      have hblock := congrArg List.length (buildSigningBlock_eq pairs)
      rw [length_framed, List.flatMap_append, List.length_append] at hblock
      omega
    have hlt := entry_lt hfit _ (List.mem_map_of_mem (List.mem_of_find?_eq_some hv2))
    rw [List.length_append] at hlt
    dsimp only at hlt
    omega
  have hpad : (pairs ++ padding pairs).find? (fun p => p.1 = 0x7109871a) =
      some (APK_SIGNATURE_SCHEME_V2_BLOCK_ID, v2Body signer digest sig) := by
    rw [List.find?_append, hv2, Option.some_or]
  have hcontent := @contents_eq (before.length + (buildSigningBlock pairs).length) before
    (buildSigningBlock pairs) central eocd (pairs ++ padding pairs) heocd
  unfold Verify.verifyV2
  simp only [Option.bind_eq_bind]
  rw [findSigningBlock_built hids hrecord hsize, Option.bind_some]
  dsimp only
  rw [hpad, Option.bind_some]
  dsimp only
  rw [parseSigners_eq hbody, Option.bind_some, Verify.contentDigest, hcontent,
    ← computeChunkedSha256_eq, hdigest, if_pos]
  · rfl
  · simp [verifySigner_eq hm hsig]

theorem signed_verifies (hm : signer.Matches) (heocd : EocdWithoutComment apk)
    (hok : signApkV2 apk signer = .ok out) (hsize : out.length < 2 ^ 32) :
    ∃ digest sig, C.sign signer.key_pair (signedData signer digest) = .ok sig ∧
      Verify.verifyV2 C out = some [signerBlock signer digest sig] := by
  have hrecord : (apk.drop (apk.length - 22)).length = 22 := by
    have := heocd.length
    rw [List.length_drop]
    omega
  rcases signApkV2_ok heocd hok with ⟨before, central, sig, hcentral, hsig, hout⟩
  have hlen := congrArg List.length hout
  simp only [List.length_append] at hlen
  have hend := endRecord_of_eocd heocd (n := before.length + (buildSigningBlock
    [(APK_SIGNATURE_SCHEME_V2_BLOCK_ID, v2Body signer (computeChunkedSha256 C before central
      (splice (apk.drop (apk.length - 22)) 16 (leBytes 4 before.length))) sig)]).length) (by omega)
  rw [← hcentral] at hend
  refine ⟨_, sig, hsig, ?_⟩
  rw [hout]
  apply built_verifies hm hsig rfl (by omega)
  · intro p hp
    rcases List.mem_singleton.mp hp with rfl
    exact (by decide : APK_SIGNATURE_SCHEME_V2_BLOCK_ID < 2 ^ 32)
  · exact List.find?_cons_of_pos (decide_eq_true rfl)
  · exact hend
  · omega

/-- A signed archive of the crate lists what was written. -/
theorem signed_lists (hz : zip.Usual) {os : List Output}
    (hkey : ∀ data sig, C.sign signer.key_pair data = .ok sig → sig.length = modulus_len)
    (hwrites : zip.Writes os apk) (hd : (os.map Prod.fst).Nodup) (hfew : os.length < 65535)
    (hok : signApkV2 apk signer = .ok out) (hsize : out.length < 2 ^ 32) :
    zip.Lists out (os.map Output.entry) := by
  cases hlayout : locateZipLayout apk with
  | error e =>
    rw [locateZipLayout_eq (hz.ends os apk hwrites)] at hlayout
    cases hlayout
  | ok layout =>
    have hinside := locateZipLayout_inside hlayout
    rcases signApkV2_built hlayout hok with ⟨hcd, digest, sig, hdigest, hsig, hbefore, hout⟩
    have hblock := length_signedBlock signer hdigest (hkey _ _ hsig)
    have hcentral : (slice apk layout.cd_offset layout.cd_size).length = layout.cd_size :=
      length_slice (by omega)
    have hrecord : 16 + 4 ≤ (apk.drop layout.eocd_offset).length := by
      rw [List.length_drop]
      omega
    -- the directory and what stands before it are parts of the file
    have hle := le_pageUp layout.cd_offset
    have hlen := congrArg List.length hout
    simp only [List.length_append] at hlen
    rw [hbefore, hblock, hcentral, length_splice (by rw [length_leBytes]; exact hrecord)] at hlen
    have hbehind := hz.behind os apk layout hwrites hfew hlayout (by omega)
    rcases keepsZip_of_fits hkey hlayout hok hbehind (by omega) with
      ⟨pad, offset, _, _, _, _, hintact⟩
    exact hz.moves os apk out layout pad _ offset hwrites hd hfew hlayout hintact hsize

/-- Whatever was downloaded, what is built from it verifies. -/
theorem rebuild_verifies (hz : zip.Usual) (hload : load L key_path cert_path disk = .ok signer)
    (hm : signer.Matches)
    (h : rebuild zip sha1 L input key_path cert_path disk = .ok (apk, out, stats))
    (hsize : out.length < 2 ^ 32) :
    ∃ digest sig, C.sign signer.key_pair (signedData signer digest) = .ok sig ∧
      Verify.verifyV2 C out = some [signerBlock signer digest sig] := by
  rcases rebuild_ok h with ⟨signer', repacked, hload', _, hrepack, hsign⟩
  rw [hload] at hload'
  cases hload'
  rcases repackAndPatch_writes hrepack with ⟨os, hwrites⟩
  exact signed_verifies hm (hz.ends os repacked hwrites) hsign hsize

theorem rebuild_lists (hz : zip.Usual) (hin : zip.Lists apk es) (hd : (es.map Entry.name).Nodup)
    (hfew : es.length < 65535) (hload : load L key_path cert_path disk = .ok signer)
    (hkey : ∀ data sig, C.sign signer.key_pair data = .ok sig → sig.length = modulus_len)
    (h : rebuild zip sha1 L input key_path cert_path disk = .ok (apk, out, stats))
    (hsize : out.length < 2 ^ 32) :
    zip.Lists out (rebuilt sha1 es) ∧ stats = repackedStats sha1 es := by
  rcases rebuild_ok h with ⟨signer', repacked, hload', _, hrepack, hsign⟩
  rw [hload] at hload'
  cases hload'
  rcases repack_writes hin hrepack with ⟨hwrites, hstats⟩
  have hfew' : (outputs sha1 es).length < 65535 := by
    rw [outputs, List.length_map]
    exact Nat.lt_of_le_of_lt (List.length_filter_le _ _) hfew
  have hlists := signed_lists hz hkey hwrites (outputs_nodup hd) hfew' hsign hsize
  rw [outputs_entries] at hlists
  exact ⟨hlists, hstats⟩

/-! ### Samples -/

theorem sampleCrate_usual : sampleCrate.Usual := by
  have hof : ∀ os bytes, sampleCrate.Writes os bytes → ∃ fs ∈ [[], patchedFiles], fs ∈ samples ∧
      fs.map Packed.entry = os.map Output.entry ∧ bytes = zipOf fs [] ∧
      (fs.flatMap Packed.file ++ [] ++ directory 0 fs).length < 2 ^ 32 := by
    rintro os bytes ⟨w, hwrite, hfin⟩
    obtain ⟨fs, hfs, hentries, rfl⟩ := sampleCrate_finish hfin
    obtain ⟨hsample, hsmall⟩ := written_samples fs hfs
    have hw : w = (os.reverse ++ [] : List Output) := sampleCrate_write hwrite
    subst hw
    rw [List.append_nil, List.reverse_reverse] at hentries
    exact ⟨fs, hfs, hsample, hentries, rfl, hsmall⟩
  constructor
  · exact sampleCrate_faithful
  · intro os bytes hwrites
    rcases hof os bytes hwrites with ⟨fs, _, _, _, rfl, hsmall⟩
    exact (zipOf_layout hsmall).1
  · intro os bytes layout hwrites _ hlayout _
    rcases hof os bytes hwrites with ⟨fs, _, _, _, rfl, hsmall⟩
    rw [(zipOf_layout hsmall).2] at hlayout
    cases hlayout
    exact List.length_append.symm
  · intro os bytes out layout pad pairs offset hwrites _ _ hlayout hintact _
    rcases hof os bytes hwrites with ⟨fs, _, hsample, hentries, rfl, hsmall⟩
    have hopen := (sampleCrate_open hlayout).mp
      (sampleCrate_lists_iff.mp (sampleCrate_zipOf hsample hsmall))
    rcases hopen with ⟨hinside, gs, hgs, ⟨hdir, hfiles⟩, hsame⟩
    rcases intact_located hintact (zipOf_layout hsmall).1 hlayout hinside with
      ⟨_, layout', hlayout', hinside', htake, hdir'⟩
    rw [sampleCrate_lists_iff, sampleCrate_open hlayout']
    refine ⟨hinside', gs, hgs, ⟨?_, hfiles.trans htake⟩, ?_⟩
    · rw [hdir', hdir]
    · rw [hsame, hentries]

/-- A key file is one byte, the exponent; a certificate is as `sampleCrypto` has it. -/
def sampleLoader : Loader sampleCrypto where
  Certificate := Bytes
  from_pkcs8 bs := .ok (bs.headD 0).toNat
  from_der := .ok
  spki_to_der cert := .ok (cert.drop 2)
  spki_eq := by
    intro der cert key hcert hkey
    cases hcert
    cases hkey
    rfl

def samplePath (c : Char) : Path := ⟨[], [c]⟩

def sampleDisk : Disk := fun p =>
  if p = samplePath 'k' then some [27]
  else if p = samplePath 'c' then some [0x30, 0x02, 55, 3]
  else if p = samplePath 'i' then some (zipOf sampleFiles [])
  else none

theorem sampleSigner_usual : Signer.Usual sampleSigner 1 :=
  ⟨sampleSigner_matches, sampleSigner_modulus⟩

theorem sampleDisk_load :
    load sampleLoader (samplePath 'k') (samplePath 'c') sampleDisk = .ok sampleSigner := rfl

/-- The first run, and the second one on its output. -/
def sampleRun : Except String ProcessReport × Disk :=
  processApk sampleCrate zeroSha1 sampleLoader (samplePath 'i') (samplePath 'o') (samplePath 'k')
    (samplePath 'c') .full 12 sampleDisk

def sampleRerun : Except String ProcessReport × Disk :=
  processApk sampleCrate zeroSha1 sampleLoader (samplePath 'o') (samplePath 'p') (samplePath 'k')
    (samplePath 'c') .full 9 sampleRun.2

theorem sampleFiles_rebuilt : rebuilt zeroSha1 (sampleFiles.map Packed.entry) =
    patchedFiles.map Packed.entry := by decide +kernel

theorem sampleRun_ok : sampleRun.1.toOption = some ⟨581, 8323, 1, 1, 12⟩ := by decide +kernel

theorem sampleRerun_ok : sampleRerun.1.toOption = some ⟨8323, 8323, 0, 0, 9⟩ := by decide +kernel

/-! ### What can be installed -/

/-- The output passes the verifier of the scheme with the one signer that was loaded, and holds the
entries of the input but the signing files, with their code patched; no other file has changed. -/
theorem processApk_installable (hz : zip.Usual) (hread : disk input = some apk)
    (hin : zip.Lists apk es) (hd : (es.map Entry.name).Nodup) (hfew : es.length < 65535)
    (hload : load L key_path cert_path disk = .ok signer) (hs : Signer.Usual signer modulus_len)
    (hok : processApk zip sha1 L input output key_path cert_path writing elapsed_ms disk =
      (.ok report, disk')) (hsize : report.output_bytes < 2 ^ 32) :
    ∃ out digest sig, disk' = Function.update disk output (some out) ∧
      report = ⟨apk.length, out.length, (repackedStats sha1 es).sdk_int_patches,
        (repackedStats sha1 es).dex_files_patched, elapsed_ms⟩ ∧
      zip.Lists out (rebuilt sha1 es) ∧
      C.sign signer.key_pair (signedData signer digest) = .ok sig ∧
      Verify.verifyV2 C out = some [signerBlock signer digest sig] := by
  rcases processApk_ok hok with ⟨apk', out, stats, hbuilt, hdisk, hreport⟩
  rcases rebuild_ok hbuilt with ⟨_, _, _, hread', _, _⟩
  rw [hread] at hread'
  cases hread'
  rw [hreport] at hsize
  rcases rebuild_lists hz hin hd hfew hload hs.2 hbuilt hsize with ⟨hlists, hstats⟩
  rcases rebuild_verifies hz hload hs.1 hbuilt hsize with ⟨digest, sig, hsig, hverify⟩
  rw [hstats] at hreport
  exact ⟨out, digest, sig, hdisk, hreport, hlists, hsig, hverify⟩

/-- The screen is as it was, the code is patched, and the manifest of signatures is gone. -/
theorem processApk_installable_sample : ∃ out digest sig,
    sampleRun.2 = Function.update sampleDisk (samplePath 'o') (some out) ∧
      sampleCrate.Lists out (patchedFiles.map Packed.entry) ∧
      Verify.verifyV2 sampleCrypto out = some [signerBlock sampleSigner digest sig] := by
  have hok : sampleRun = (.ok ⟨581, 8323, 1, 1, 12⟩, sampleRun.2) := by
    rw [← toOption_eq_some.mp sampleRun_ok]
  rcases processApk_installable sampleCrate_usual (by rfl) (sample_lists [] (by decide)) (by decide)
    (by decide) sampleDisk_load sampleSigner_usual hok (by decide) with
    ⟨out, digest, sig, hdisk, _, hlists, _, hverify⟩
  rw [sampleFiles_rebuilt] at hlists
  exact ⟨out, digest, sig, hdisk, hlists, hverify⟩

/-! ### A second run -/

/-- Code that was patched once stays as it is. -/
theorem patchDex_twice {h : DexHeader} {dex : Bytes} (wf : WellFormed dex h) (sha1 : Sha1) :
    (patchDex sha1 (patchDex sha1 dex).2).2 = (patchDex sha1 dex).2 ∧
      ∀ r, (patchDex sha1 (patchDex sha1 dex).2).1 = .ok r → r.patches = 0 := by
  cases hrun : patchDex sha1 dex with
  | mk res dex' =>
    cases res with
    | ok r =>
      rcases wf.outcome hrun with ⟨_, _, o⟩
      dsimp only
      rw [o.again]
      refine ⟨rfl, ?_⟩
      intro r' hr'
      cases hr'
      rfl
    | error e =>
      have hsame : dex' = dex := by
        rcases patchDex_cases sha1 dex with ⟨_, heq⟩ | ⟨_, _, _, heq⟩ | ⟨_, _, _, _, _, _, heq, _⟩
        · rw [hrun] at heq
          exact (Prod.mk.inj heq).2
        · rw [hrun] at heq
          cases heq
        · rw [hrun] at heq
          cases heq
      dsimp only
      rw [hsame, hrun]
      refine ⟨hsame, ?_⟩
      intro r' hr'
      cases hr'

theorem storedMethod_twice (m : CompressionMethod) :
    storedMethod (storedMethod m) = storedMethod m := by
  cases m with
  | Stored => rfl
  | Deflated => rfl
  | Other code => rfl

theorem Entry.repacked_twice (hwf : ClassesDex e.name → ∃ h, WellFormed e.data h) :
    (e.repacked sha1).repacked sha1 = e.repacked sha1 := by
  unfold Entry.repacked
  rw [Entry.mk.injEq]
  refine ⟨rfl, storedMethod_twice e.method, ?_⟩
  dsimp only
  by_cases hd : ClassesDex e.name
  · rcases hwf hd with ⟨h, wf⟩
    rw [if_pos hd, if_pos hd]
    exact (patchDex_twice wf sha1).1
  · rw [if_neg hd, if_neg hd]

theorem Entry.patches_repacked (hd : ClassesDex e.name) (hwf : ∃ h, WellFormed e.data h) :
    (e.repacked sha1).patches sha1 = 0 := by
  rcases hwf with ⟨h, wf⟩
  unfold Entry.patches Entry.repacked
  dsimp only
  rw [if_pos hd]
  split
  · rename_i r hr
    exact (patchDex_twice wf sha1).2 r hr
  · rfl

theorem rebuilt_names (sha1 : Sha1) (es : List Entry) :
    (rebuilt sha1 es).map Entry.name =
      (es.map Entry.name).filter fun name => ¬ isSigningArtefact name := by
  rw [rebuilt, List.map_map, List.filter_map]
  rfl

theorem rebuilt_twice (hwf : ∀ e ∈ es, ClassesDex e.name → ∃ h, WellFormed e.data h) :
    rebuilt sha1 (rebuilt sha1 es) = rebuilt sha1 es := by
  have hkept : (rebuilt sha1 es).filter (fun e => ¬ isSigningArtefact e.name) =
      rebuilt sha1 es := by
    rw [List.filter_eq_self]
    intro e he
    rcases List.mem_map.mp he with ⟨e₀, he₀, rfl⟩
    exact (List.mem_filter.mp he₀).2
  have hsame : ∀ e ∈ rebuilt sha1 es, e.repacked sha1 = e := by
    intro e he
    rcases List.mem_map.mp he with ⟨e₀, he₀, rfl⟩
    exact Entry.repacked_twice (hwf e₀ (List.mem_filter.mp he₀).1)
  rw [rebuilt, hkept]
  exact (List.map_congr_left hsame).trans (List.map_id _)

theorem repackedStats_rebuilt (hwf : ∀ e ∈ es, ClassesDex e.name → ∃ h, WellFormed e.data h) :
    repackedStats sha1 (rebuilt sha1 es) = .default := by
  have hzero : ∀ n ∈ ((rebuilt sha1 es).filter fun e => ClassesDex e.name).map
      (Entry.patches sha1), n = 0 := by
    intro n hn
    rcases List.mem_map.mp hn with ⟨e, he, rfl⟩
    rcases List.mem_filter.mp he with ⟨he, hd⟩
    rcases List.mem_map.mp he with ⟨e₀, he₀, rfl⟩
    have hd₀ : ClassesDex e₀.name := of_decide_eq_true hd
    exact Entry.patches_repacked hd₀ (hwf e₀ (List.mem_filter.mp he₀).1 hd₀)
  unfold repackedStats PatchStats.default
  rw [PatchStats.mk.injEq]
  constructor
  · exact List.sum_eq_zero hzero
  · rw [List.countP_eq_zero]
    intro n hn
    rw [hzero n hn]
    decide

/-- Run on its own output, the pipeline finds nothing to patch and writes the same entries. -/
theorem processApk_again (hz : zip.Usual) (hread : disk input = some apk)
    (hin : zip.Lists apk es) (hd : (es.map Entry.name).Nodup) (hfew : es.length < 65535)
    (hwf : ∀ e ∈ es, ClassesDex e.name → ∃ h, WellFormed e.data h)
    (hload : load L key_path cert_path disk = .ok signer) (hs : Signer.Usual signer modulus_len)
    (hkeys : key_path ≠ output ∧ cert_path ≠ output)
    (hok : processApk zip sha1 L input output key_path cert_path writing elapsed_ms disk =
      (.ok report, disk₁)) (hsize : report.output_bytes < 2 ^ 32)
    (hok₂ : processApk zip sha1 L output output₂ key_path cert_path writing₂ elapsed_ms₂ disk₁ =
      (.ok report₂, disk₂)) (hsize₂ : report₂.output_bytes < 2 ^ 32) :
    report₂.sdk_int_patches = 0 ∧ report₂.dex_files_patched = 0 ∧
      ∃ out out₂, disk₁ output = some out ∧ disk₂ output₂ = some out₂ ∧
        zip.Lists out (rebuilt sha1 es) ∧ zip.Lists out₂ (rebuilt sha1 es) := by
  rcases processApk_ok hok with ⟨apk', out, stats, hbuilt, hdisk, hreport⟩
  rcases rebuild_ok hbuilt with ⟨_, _, _, hread', _, _⟩
  rw [hread] at hread'
  cases hread'
  rw [hreport] at hsize
  have hlists := (rebuild_lists hz hin hd hfew hload hs.2 hbuilt hsize).1
  -- the keys are where they were, so the second run loads the same signer
  have hload₁ : load L key_path cert_path disk₁ = .ok signer := by
    rw [← hload]
    unfold load Disk.read
    rw [hdisk, Function.update_of_ne hkeys.1, Function.update_of_ne hkeys.2]
  rcases processApk_ok hok₂ with ⟨apk₂, out₂, stats₂, hbuilt₂, hdisk₂, hreport₂⟩
  rcases rebuild_ok hbuilt₂ with ⟨_, _, _, hread₂, _, _⟩
  have hout : disk₁ output = some out := by
    rw [hdisk, Function.update_self]
  rw [hout] at hread₂
  cases hread₂
  have hnames : ((rebuilt sha1 es).map Entry.name).Nodup := by
    rw [rebuilt_names]
    exact hd.filter _
  have hfew₂ := Nat.lt_of_le_of_lt (length_rebuilt sha1 es) hfew
  rw [hreport₂] at hsize₂
  rcases rebuild_lists hz hlists hnames hfew₂ hload₁ hs.2 hbuilt₂ hsize₂ with ⟨hlists₂, hstats₂⟩
  rw [repackedStats_rebuilt hwf] at hstats₂
  rw [rebuilt_twice hwf] at hlists₂
  rw [hreport₂, hstats₂]
  refine ⟨rfl, rfl, out, out₂, hout, ?_, hlists, hlists₂⟩
  rw [hdisk₂, Function.update_self]

/-- The first run patches the one read of `SDK_INT`, the second run none. -/
theorem processApk_again_sample : ∃ out out₂, sampleRun.2 (samplePath 'o') = some out ∧
    sampleRerun.2 (samplePath 'p') = some out₂ ∧
      sampleCrate.Lists out (patchedFiles.map Packed.entry) ∧
      sampleCrate.Lists out₂ (patchedFiles.map Packed.entry) := by
  have hok : sampleRun = (.ok ⟨581, 8323, 1, 1, 12⟩, sampleRun.2) := by
    rw [← toOption_eq_some.mp sampleRun_ok]
  have hok₂ : sampleRerun = (.ok ⟨8323, 8323, 0, 0, 9⟩, sampleRerun.2) := by
    rw [← toOption_eq_some.mp sampleRerun_ok]
  have hwf : ∀ e ∈ sampleFiles.map Packed.entry, ClassesDex e.name →
      ∃ h, WellFormed e.data h := by
    intro e he hd
    have hcode : e = (code sampleDex 0x1a52aa32).entry := by
      revert hd
      simp only [sampleFiles, List.map_cons, List.map_nil, List.mem_cons, List.not_mem_nil,
        or_false] at he
      rcases he with rfl | rfl | rfl
      · intro hd
        exact absurd hd (by decide)
      · intro hd
        exact absurd hd (by decide)
      · intro _
        rfl
    exact ⟨sampleHeader, hcode ▸ sampleDex_wellFormed⟩
  rcases processApk_again sampleCrate_usual (by rfl) (sample_lists [] (by decide)) (by decide)
    (by decide) hwf sampleDisk_load sampleSigner_usual ⟨by decide, by decide⟩ hok (by decide) hok₂
    (by decide) with ⟨_, _, out, out₂, hout, hout₂, hlists, hlists₂⟩
  rw [sampleFiles_rebuilt] at hlists hlists₂
  exact ⟨out, out₂, hout, hout₂, hlists, hlists₂⟩

end Aabox.Resigner.Apk
