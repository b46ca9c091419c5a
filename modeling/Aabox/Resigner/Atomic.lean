import Aabox.Lib.Adler
import Aabox.Lib.Fallible
import Aabox.Resigner.Walk

/-!
`patch_dex` on any bytes at all: it fails or finds nothing and changes nothing, or it changes the
windows it counts and leaves a header whose checksums are right.
-/
namespace Aabox.Resigner.Dex
open Aabox.Lib

variable {sha1 : Sha1} {dex dex' cur : Bytes} {r : DexPatchResult} {h : DexHeader}
  {field_idx : Nat} {ws : List Nat} {e : String}

theorem adler32_eq (buf : Bytes) : adler32 buf = adler buf := by
  unfold adler32 MOD_ADLER
  rw [foldl_adler]
  exact adler_eq_or buf

/-- The signature and the checksum the header holds are those of the bytes after them. -/
structure HeaderConsistent (sha1 : Sha1) (dex : Bytes) : Prop where
  signature : slice dex 12 20 = (sha1 (dex.drop 32)).val
  checksum : slice dex 8 4 = leBytes 4 (adler (dex.drop 12))

def ChecksumField (p : Nat) : Prop := 8 ≤ p ∧ p < 32

theorem recompute_spec (sha1 : Sha1) (hlen : 32 ≤ dex.length) :
    ∃ dex', recomputeHeaderChecksums sha1 dex = (.ok (), dex') ∧ EqOff ChecksumField dex dex' ∧
      HeaderConsistent sha1 dex' := by
  have hsig := (sha1 (dex.drop 32)).property
  have hb : 12 + (sha1 (dex.drop 32)).val.length ≤ dex.length := by omega
  let d := splice dex 12 (sha1 (dex.drop 32)).val
  have hd : EqOff ChecksumField dex d := by
    apply (EqOff.refl _ _).splice hb
    intro p hp hq
    exact ⟨by omega, by omega⟩
  have hb' : 8 + (leBytes 4 (adler32 (d.drop 12))).length ≤ d.length := by
    rw [length_leBytes, hd.length]
    omega
  have hd' : EqOff ChecksumField dex (splice d 8 (leBytes 4 (adler32 (d.drop 12)))) := by
    apply hd.splice hb'
    intro p hp hq
    rw [length_leBytes] at hq
    exact ⟨by omega, by omega⟩
  -- the checksum goes in front of what it is taken of
  have hlater : ∀ p, 12 ≤ p → (splice d 8 (leBytes 4 (adler32 (d.drop 12))))[p]? = d[p]? := by
    intro p hp
    rw [getElem?_splice hb', if_neg]
    rw [length_leBytes]
    omega
  refine ⟨_, by rw [recomputeHeaderChecksums, if_neg (by omega)], hd', ?_, ?_⟩
  · have hdrop : (splice d 8 (leBytes 4 (adler32 (d.drop 12)))).drop 32 = dex.drop 32 := by
      apply drop_congr
      intro p hp
      apply hd'.get
      rintro ⟨_, hlt⟩
      omega
    have hself := slice_splice_self hb
    rw [hsig] at hself
    rw [hdrop, slice_congr (fun p hp _ => hlater p hp)]
    exact hself
  · have hself := slice_splice_self hb'
    rw [length_leBytes] at hself
    rw [hself, drop_congr hlater, adler32_eq]

/-- What a run that rewrote something has done: only counted windows and the header changed. -/
structure PatchedDex (sha1 : Sha1) (dex : Bytes) (r : DexPatchResult) (dex' : Bytes)
    (h : DexHeader) (field_idx : Nat) (ws : List Nat) : Prop where
  located : locateSdkInt dex = .ok (some (h, field_idx))
  bytes_rewritten : r.bytes_rewritten = 4 * r.patches
  patches : ws.length = r.patches
  rewritten : ∀ w ∈ ws, RewrittenAt field_idx (visits h field_idx dex) w
  inside : ∀ v ∈ visits h field_idx dex, v.1 + v.2.length ≤ dex.length
  header : HeaderConsistent sha1 dex'
  same : EqOff (fun p => ChecksumField p ∨ Windows ws p) dex dex'

theorem parse_length (hp : DexHeader.parse dex = .ok h) : 0x70 ≤ dex.length := by
  by_contra hlt
  rw [DexHeader.parse, if_pos (by omega)] at hp
  cases hp

/-- The lookups that lead to the field. -/
theorem locateSdkInt_some (hl : locateSdkInt dex = .ok (some (h, field_idx))) :
    DexHeader.parse dex = .ok h ∧ ∃ sdk_int i build_ver i_type build_ver_type,
      findStringIdx dex h SDK_INT = .ok (some sdk_int) ∧ findStringIdx dex h INT = .ok (some i) ∧
      findStringIdx dex h BUILD_VERSION = .ok (some build_ver) ∧
      findTypeIdx dex h i = .ok (some i_type) ∧
      findTypeIdx dex h build_ver = .ok (some build_ver_type) ∧
      findFieldIdx dex h build_ver_type sdk_int i_type = .ok (some field_idx) := by
  unfold locateSdkInt at hl
  obtain ⟨h', hp, hl⟩ := bind_eq_ok.mp hl
  obtain ⟨_ | sdk_int, h₁, hl⟩ := bind_eq_ok.mp hl
  · cases hl
  obtain ⟨_ | i, h₂, hl⟩ := bind_eq_ok.mp hl
  · cases hl
  obtain ⟨_ | build_ver, h₃, hl⟩ := bind_eq_ok.mp hl
  · cases hl
  obtain ⟨_ | i_type, h₄, hl⟩ := bind_eq_ok.mp hl
  · cases hl
  obtain ⟨_ | build_ver_type, h₅, hl⟩ := bind_eq_ok.mp hl
  · cases hl
  obtain ⟨_ | field_idx', h₆, hl⟩ := bind_eq_ok.mp hl
  · cases hl
  cases hl
  exact ⟨hp, sdk_int, i, build_ver, i_type, build_ver_type, h₁, h₂, h₃, h₄, h₅, h₆⟩

/-- The ways `patch_dex` ends. -/
theorem patchDex_cases (sha1 : Sha1) (dex : Bytes) :
    (∃ e, patchDex sha1 dex = (.error e, dex)) ∨
    (∃ r, r.patches = 0 ∧ r.bytes_rewritten = 0 ∧ patchDex sha1 dex = (.ok r, dex)) ∨
    ∃ r dex' h field_idx ws, 0 < r.patches ∧ patchDex sha1 dex = (.ok r, dex') ∧
      PatchedDex sha1 dex r dex' h field_idx ws := by
  unfold patchDex
  rcases hl : locateSdkInt dex with e | _ | ⟨h, field_idx⟩
  · exact .inl ⟨e, rfl⟩
  · exact .inr (.inl ⟨.default, rfl, rfl, rfl⟩)
  · obtain ⟨ws, hws⟩ := walkCodeItems_edited h field_idx dex
    right
    rcases hwalk : walkCodeItems h (rewriteInsns field_idx) (dex, .default) with ⟨cur, r⟩
    rw [hwalk] at hws
    dsimp only at hws ⊢
    by_cases hr : 0 < r.patches
    · right
      have hlen : 32 ≤ cur.length := by
        have := parse_length (locateSdkInt_some hl).1
        rw [hws.same.length]
        omega
      obtain ⟨dex', hre, hcheck, hheader⟩ := recompute_spec sha1 hlen
      refine ⟨r, dex', h, field_idx, ws, hr, by simp [hwalk, hr, hre], hl, hws.bytes_rewritten,
        hws.patches, hws.rewritten, hws.inside, hheader, ?_⟩
      exact (hws.same.mono (fun _ => .inr)).trans (hcheck.mono (fun _ => .inl))
    · left
      have hnil : ws = [] := List.length_eq_zero_iff.mp (by have := hws.patches; omega)
      subst hnil
      have hcur : cur = dex := hws.same.eq (by simp [Windows])
      refine ⟨r, by omega, ?_, by simp [hwalk, hr, hcur]⟩
      have := hws.bytes_rewritten
      omega

/-- Atomic, with a consistent header, on every byte string. -/
theorem patchDex_atomic (sha1 : Sha1) (dex : Bytes) :
    (patchDex sha1 dex).2.length = dex.length ∧
    (∀ e, (patchDex sha1 dex).1 = .error e → (patchDex sha1 dex).2 = dex) ∧
    (∀ r, (patchDex sha1 dex).1 = .ok r → r.patches = 0 → (patchDex sha1 dex).2 = dex) ∧
    (∀ r, (patchDex sha1 dex).1 = .ok r → 0 < r.patches →
      ∃ h field_idx ws, PatchedDex sha1 dex r (patchDex sha1 dex).2 h field_idx ws) := by
  rcases patchDex_cases sha1 dex with ⟨e, heq⟩ | ⟨r, h0, _, heq⟩ | ⟨r, dex', h, f, ws, hpos, heq, hp⟩
  · rw [heq]
    refine ⟨rfl, fun _ _ => rfl, fun _ hr => ?_, fun _ hr => ?_⟩
    · cases hr
    · cases hr
  · rw [heq]
    refine ⟨rfl, fun _ _ => rfl, fun _ _ _ => rfl, fun r' hr' hpos => ?_⟩
    cases hr'
    omega
  · rw [heq]
    refine ⟨hp.same.length, fun _ he => ?_, fun r' hr' h0 => ?_, fun r' hr' _ => ?_⟩
    · cases he
    · cases hr'
      omega
    · cases hr'
      exact ⟨h, f, ws, hp⟩

end Aabox.Resigner.Dex
