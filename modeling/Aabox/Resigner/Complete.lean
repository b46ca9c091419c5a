import Aabox.Resigner.StaticWalk
import Mathlib.Data.Set.Card

/-!
`patch_dex` on a well-formed file: every instruction that reads `SDK_INT` is turned, no other one
is touched, and a second run finds nothing to do.
-/
namespace Aabox.Resigner.Dex
open Aabox.Lib

variable {code c₁ c₂ dex dex' d : Bytes} {h : DexHeader} {r : Region} {field i n p t f w : Nat}
  {ts us ws : List Nat} {rs : List Region} {b : Bytes × DexPatchResult} {out res : DexPatchResult}
  {sha1 : Sha1}

/-! ### One stream, rewritten twice -/

theorem Patched.unique (h₁ : Patched code ts c₁) (h₂ : Patched code us c₂)
    (hmem : ∀ t, t ∈ ts ↔ t ∈ us) : c₁ = c₂ := by
  apply List.ext_getElem?
  intro p
  by_cases hp : Windows ts p
  · obtain ⟨t, ht, hle, hlt⟩ := hp
    have heq : slice c₁ t 4 = slice c₂ t 4 := by
      rw [h₁.const t ht, h₂.const t ((hmem t).mp ht)]
    have hget := congrArg (fun bs : Bytes => bs[p - t]?) heq
    simp only [getElem?_slice, if_pos (show p - t < 4 by omega),
      show t + (p - t) = p by omega] at hget
    exact hget
  · rw [h₁.get p hp, h₂.get p]
    rintro ⟨t, ht, hr⟩
    exact hp ⟨t, (hmem t).mpr ht, hr⟩

/-- The stream after a rewrite; the counts it starts from play no role. -/
def rewritten (field : Nat) (code : Bytes) : Bytes := (rewriteSgetInInsns code field .default).1

theorem rewrite_eq (code : Bytes) (field : Nat) (out : DexPatchResult) :
    ∃ ts, Rewritten field code out (rewritten field code, out.add ts.length) ts ∧
      rewriteSgetInInsns code field out = (rewritten field code, out.add ts.length) := by
  obtain ⟨ts, ht⟩ := rewriteSget_spec code field out
  obtain ⟨us, hu⟩ := rewriteSget_spec code field .default
  have heq : (rewriteSgetInInsns code field out).1 = rewritten field code :=
    ht.patched.unique hu.patched (fun t => (ht.mem t).trans (hu.mem t).symm)
  have hpair : rewriteSgetInInsns code field out = (rewritten field code, out.add ts.length) :=
    Prod.ext heq ht.out
  rw [hpair] at ht
  exact ⟨ts, ht, hpair⟩

theorem rewrite_of_no_target (hno : ∀ t, ¬ IsTarget field code t) (out : DexPatchResult) :
    rewriteSgetInInsns code field out = (code, out) := by
  obtain ⟨ts, ht⟩ := rewriteSget_spec code field out
  have hnil : ts = [] := List.eq_nil_iff_forall_not_mem.mpr (fun t hm => hno t ((ht.mem t).mp hm))
  subst hnil
  exact Prod.ext (ht.patched.eq (by simp [Windows])) (by rw [ht.out]; rfl)

theorem rewritten_no_target (field : Nat) (code : Bytes) (t : Nat) :
    ¬ IsTarget field (rewritten field code) t := by
  obtain ⟨ts, ht, _⟩ := rewrite_eq code field .default
  exact fun htarget => ht.not_isSget htarget.1 htarget.2

theorem length_rewritten (field : Nat) (code : Bytes) :
    (rewritten field code).length = code.length := by
  obtain ⟨ts, ht, _⟩ := rewrite_eq code field .default
  exact ht.patched.length

theorem rewriteInsns_keepsLength (field : Nat) : KeepsLength (rewriteInsns field) := by
  intro start insns out
  obtain ⟨ts, ht⟩ := rewriteSget_spec insns field out
  exact ht.patched.length

/-! ### The run through the code ranges -/

/-- After the ranges `rs`: they are rewritten, each target in them counted once, all else as it was.
-/
structure Progress (field : Nat) (dex : Bytes) (rs : List Region) (b : Bytes × DexPatchResult)
    (ws : List Nat) : Prop where
  same : EqOff (fun p => ∃ r ∈ rs, r.Has p) dex b.1
  slices : ∀ r ∈ rs, slice b.1 r.1 r.2 = rewritten field (slice dex r.1 r.2)
  mem : ∀ w, w ∈ ws ↔ ∃ r ∈ rs, ∃ i, w = r.1 + i ∧ IsTarget field (slice dex r.1 r.2) i
  nodup : ws.Nodup
  out : b.2 = DexPatchResult.default.add ws.length

theorem visit_of_no_target (hin : r.1 + r.2 ≤ b.1.length)
    (hno : ∀ t, ¬ IsTarget field (slice b.1 r.1 r.2) t) : visit (rewriteInsns field) r b = b := by
  rw [visit, rewriteInsns, rewrite_of_no_target hno]
  exact Prod.ext (splice_slice_self hin) rfl

theorem foldl_visit_of_no_target (hin : ∀ r ∈ rs, r.1 + r.2 ≤ b.1.length)
    (hno : ∀ r ∈ rs, ∀ t, ¬ IsTarget field (slice b.1 r.1 r.2) t) :
    rs.foldl (fun b r => visit (rewriteInsns field) r b) b = b := by
  induction rs with
  | nil => rfl
  | cons r rs ih =>
    rw [List.foldl_cons, visit_of_no_target (hin r (List.mem_cons_self ..))
      (hno r (List.mem_cons_self ..))]
    exact ih (fun r' hr' => hin r' (List.mem_cons_of_mem _ hr'))
      (fun r' hr' => hno r' (List.mem_cons_of_mem _ hr'))

theorem Progress.revisit (hp : Progress field dex rs b ws) (hr : r ∈ rs)
    (hin : r.1 + r.2 ≤ dex.length) :
    Progress field dex (rs ++ [r]) (visit (rewriteInsns field) r b) ws := by
  have hno : ∀ t, ¬ IsTarget field (slice b.1 r.1 r.2) t := by
    rw [hp.slices r hr]
    exact rewritten_no_target field _
  rw [visit_of_no_target (by rw [hp.same.length]; exact hin) hno]
  have hmem : ∀ r', r' ∈ rs ++ [r] ↔ r' ∈ rs := by
    intro r'
    rw [List.mem_append, List.mem_singleton]
    constructor
    · rintro (hr' | rfl)
      · exact hr'
      · exact hr
    · exact Or.inl
  refine ⟨hp.same.mono ?_, ?_, ?_, hp.nodup, hp.out⟩
  · rintro p ⟨r', hr', hhas⟩
    exact ⟨r', (hmem r').mpr hr', hhas⟩
  · intro r' hr'
    exact hp.slices r' ((hmem r').mp hr')
  · intro w
    simp only [hmem]
    exact hp.mem w

/-- A range apart from those done has not changed yet. -/
theorem Progress.slice_eq (hp : Progress field dex rs b ws) (hapart : ∀ r' ∈ rs, Apart r' r) :
    slice b.1 r.1 r.2 = slice dex r.1 r.2 := by
  apply hp.same.slice
  rintro p hlo hhi ⟨r', hr', hhas⟩
  exact (hapart r' hr').not_has hhas ⟨hlo, hhi⟩

theorem Progress.mem_range (hp : Progress field dex rs b ws) (hw : w ∈ ws) : ∃ r ∈ rs, r.Has w := by
  obtain ⟨r, hr, i, rfl, hi⟩ := (hp.mem w).mp hw
  have hfit := hi.1.2.2
  rw [slice, List.length_take] at hfit
  exact ⟨r, hr, by omega, by omega⟩

theorem Progress.extend (hp : Progress field dex rs b ws) (hapart : ∀ r' ∈ rs, Apart r' r)
    (hin : r.1 + r.2 ≤ dex.length) :
    ∃ ws', Progress field dex (rs ++ [r]) (visit (rewriteInsns field) r b) ws' := by
  obtain ⟨ts, ht, heq⟩ := rewrite_eq (slice dex r.1 r.2) field b.2
  have hlen : (rewritten field (slice dex r.1 r.2)).length = r.2 := by
    rw [length_rewritten, length_slice hin]
  have hin' : r.1 + (rewritten field (slice dex r.1 r.2)).length ≤ b.1.length := by
    rw [hlen, hp.same.length]
    exact hin
  have hvisit : visit (rewriteInsns field) r b =
      (splice b.1 r.1 (rewritten field (slice dex r.1 r.2)), b.2.add ts.length) := by
    rw [visit, rewriteInsns, hp.slice_eq hapart, heq]
  rw [hvisit]
  have hts : ∀ t ∈ ts, t + 4 ≤ r.2 := by
    intro t htm
    have hfit := ((ht.mem t).mp htm).1.2.2
    rw [length_slice hin] at hfit
    exact hfit
  refine ⟨ws ++ ts.map (r.1 + ·), ?_, ?_, ?_, ?_, ?_⟩
  · apply (hp.same.mono _).splice hin'
    · intro p hlo hhi
      rw [hlen] at hhi
      exact ⟨r, by simp, hlo, hhi⟩
    · rintro p ⟨r', hr', hhas⟩
      exact ⟨r', by simp [hr'], hhas⟩
  · intro r' hr'
    rcases List.mem_append.mp hr' with hr' | hr'
    · rw [← hp.slices r' hr']
      apply slice_congr
      intro p hlo hhi
      have hnot : ¬ (r.1 ≤ p ∧ p < r.1 + r.2) := (hapart r' hr').not_has ⟨hlo, hhi⟩
      rw [getElem?_splice hin', hlen, if_neg hnot]
    · obtain rfl : r' = r := by simpa using hr'
      have hself := slice_splice_self hin'
      rw [hlen] at hself
      exact hself
  · intro w
    rw [List.mem_append, hp.mem w, List.mem_map]
    constructor
    · rintro (⟨r', hr', hi⟩ | ⟨t, htm, rfl⟩)
      · exact ⟨r', by simp [hr'], hi⟩
      · exact ⟨r, by simp, t, rfl, (ht.mem t).mp htm⟩
    · rintro ⟨r', hr', i, rfl, hi⟩
      rcases List.mem_append.mp hr' with hr' | hr'
      · exact .inl ⟨r', hr', i, rfl, hi⟩
      · obtain rfl : r' = r := by simpa using hr'
        exact .inr ⟨i, (ht.mem i).mpr hi, rfl⟩
  · rw [List.nodup_append]
    refine ⟨hp.nodup, ht.nodup.map (fun _ _ heq => Nat.add_left_cancel heq), ?_⟩
    rintro w hw v hv rfl
    obtain ⟨t, htm, rfl⟩ := List.mem_map.mp hv
    obtain ⟨r', hr', hhas⟩ := hp.mem_range hw
    have := hts t htm
    exact (hapart r' hr').not_has hhas ⟨by omega, by omega⟩
  · dsimp only
    rw [hp.out, List.length_append, List.length_map]
    simp only [DexPatchResult.add, Nat.mul_add, Nat.add_assoc]

theorem WellFormed.progress (wf : WellFormed dex h) (field : Nat) :
    ∃ ws, Progress field dex (codeRanges dex h)
      (walkCodeItems h (rewriteInsns field) (dex, .default)) ws := by
  have hrun : ∀ rs' rs ws b, (∀ r ∈ rs ++ rs', r ∈ codeRanges dex h) →
      Progress field dex rs b ws → ∃ ws', Progress field dex (rs ++ rs')
        (rs'.foldl (fun b r => visit (rewriteInsns field) r b) b) ws' := by
    intro rs'
    induction rs' with
    | nil =>
      intro rs ws b _ hp
      rw [List.append_nil]
      exact ⟨ws, hp⟩
    | cons r rs' ih =>
      intro rs ws b hall hp
      have hr : r ∈ codeRanges dex h := hall r (by simp)
      have hnext : ∃ ws', Progress field dex (rs ++ [r]) (visit (rewriteInsns field) r b) ws' := by
        by_cases hmem : r ∈ rs
        · exact ⟨ws, hp.revisit hmem (wf.range_inside hr)⟩
        · refine hp.extend (fun r' hr' => ?_) (wf.range_inside hr)
          rcases wf.code_apart r' (hall r' (by simp [hr'])) r hr with rfl | ha
          · exact (hmem hr').elim
          · exact ha
      obtain ⟨ws', hp'⟩ := hnext
      have := ih (rs ++ [r]) ws' _ (by simpa using hall) hp'
      rwa [List.append_assoc] at this
  rw [wf.walkCodeItems_eq (rewriteInsns_keepsLength field) (.refl _ _)]
  exact hrun _ [] [] _ (fun r hr => hr) ⟨.refl _ _, by simp, by simp, List.nodup_nil, rfl⟩

/-! ### The outcome of a run -/

/-- No field at all, or exactly one, has the name; `field` is the one the rewrite looks for. -/
structure Outcome (sha1 : Sha1) (dex : Bytes) (h : DexHeader) (res : DexPatchResult)
    (dex' : Bytes) (field : Nat) (ws : List Nat) : Prop where
  names : ∀ f < 2 ^ 16, NamesSdkInt dex h f ↔ f = field
  same : EqOff (Writable dex h) dex dex'
  slices : ∀ r ∈ codeRanges dex h, slice dex' r.1 r.2 = rewritten field (slice dex r.1 r.2)
  mem : ∀ w, w ∈ ws ↔
    ∃ r ∈ codeRanges dex h, ∃ i, w = r.1 + i ∧ IsTarget field (slice dex r.1 r.2) i
  nodup : ws.Nodup
  patches : res.patches = ws.length
  again : patchDex sha1 dex' = (.ok .default, dex')

/-- No 16-bit operand is `2 ^ 16`: the stand-in for a field that is not there. -/
theorem not_isTarget_of_large (ht : IsTarget (2 ^ 16) code t) : False := by
  have hlt := leValue_slice_lt code (t + 2) 2
  rw [ht.2.2.2] at hlt
  omega

/-- The walk and the checksum step, put together. -/
theorem patchDex_located (sha1 : Sha1) (hl : locateSdkInt dex = .ok (some (h, field)))
    (hb : walkCodeItems h (rewriteInsns field) (dex, .default) = (d, out))
    (hlen : d.length = dex.length) :
    ∃ dex', patchDex sha1 dex = (.ok out, dex') ∧ EqOff ChecksumField d dex' ∧
      (out.patches = 0 → dex' = d) := by
  unfold patchDex
  rw [hl]
  dsimp only
  rw [hb]
  dsimp only
  by_cases hpos : 0 < out.patches
  · have := parse_length (locateSdkInt_some hl).1
    obtain ⟨dex', hre, hsame, _⟩ := recompute_spec sha1 (show 32 ≤ d.length by omega)
    refine ⟨dex', by rw [if_pos hpos, hre], hsame, fun h0 => by omega⟩
  · exact ⟨d, by rw [if_neg hpos], .refl _ _, fun _ => rfl⟩

/-- Where nothing has the name, nothing is done. -/
theorem WellFormed.outcome_absent (wf : WellFormed dex h) (sha1 : Sha1)
    (hl : locateSdkInt dex = .ok none) : Outcome sha1 dex h .default dex (2 ^ 16) [] := by
  refine ⟨fun f hf => ?_, .refl _ _, fun r _ => ?_, fun w => ?_, List.nodup_nil, rfl,
    by rw [patchDex, hl]⟩
  · constructor
    · intro hn
      rw [wf.locate_iff.mpr hn] at hl
      cases hl
    · rintro rfl
      omega
  · rw [rewritten, rewrite_of_no_target (fun t ht => not_isTarget_of_large ht)]
  · constructor
    · intro hw
      cases hw
    · rintro ⟨r, _, i, _, hi⟩
      exact (not_isTarget_of_large hi).elim

/-- A walk over rewritten code finds no target. -/
theorem WellFormed.walk_rewritten (wf : WellFormed dex h) (hsame : EqOff (Writable dex h) dex dex')
    (hslices : ∀ r ∈ codeRanges dex h,
      slice dex' r.1 r.2 = rewritten field (slice dex r.1 r.2)) :
    walkCodeItems h (rewriteInsns field) (dex', .default) = (dex', .default) := by
  rw [(wf.patched hsame).walkCodeItems_eq (rewriteInsns_keepsLength field) (.refl _ _),
    wf.codeRanges_eq hsame]
  apply foldl_visit_of_no_target
  · intro r hr
    rw [hsame.length]
    exact wf.range_inside hr
  · intro r hr
    rw [hslices r hr]
    exact rewritten_no_target field _

theorem WellFormed.outcome (wf : WellFormed dex h) (hok : patchDex sha1 dex = (.ok res, dex')) :
    ∃ field ws, Outcome sha1 dex h res dex' field ws := by
  rcases hl : locateSdkInt dex with e | _ | ⟨h', field⟩
  · rw [patchDex, hl] at hok
    cases hok
  · rw [patchDex, hl] at hok
    cases hok
    exact ⟨2 ^ 16, [], wf.outcome_absent sha1 hl⟩
  · have hh : h' = h := Except.ok.inj ((locateSdkInt_some hl).1.symm.trans wf.parsed)
    subst hh
    obtain ⟨ws, hp⟩ := wf.progress field
    rcases hb : walkCodeItems h' (rewriteInsns field) (dex, .default) with ⟨d, out⟩
    rw [hb] at hp
    obtain ⟨dex₁, hrun, hcheck, _⟩ := patchDex_located sha1 hl hb hp.same.length
    rw [hrun] at hok
    cases hok
    have hsame : EqOff (Writable dex h') dex dex' :=
      (hp.same.mono (fun _ => .inl)).trans (hcheck.mono (fun _ => .inr))
    -- the checksums are outside of the code
    have hslices : ∀ r ∈ codeRanges dex h',
        slice dex' r.1 r.2 = rewritten field (slice dex r.1 r.2) := by
      intro r hr
      rw [← hp.slices r hr]
      apply hcheck.slice
      intro p hlo hhi hc
      exact (wf.checksum_apart r (List.mem_append_right _ hr)).not_has ⟨hlo, hhi⟩ hc
    have hnames := wf.locate_iff.mp hl
    refine ⟨field, ws, fun f _ => ?_, hsame, hslices, hp.mem, hp.nodup, ?_, ?_⟩
    · constructor
      · intro hn
        have := (wf.locate_iff.mpr hn).symm.trans hl
        cases this
        rfl
      · rintro rfl
        exact hnames
    · have hout : res = DexPatchResult.default.add ws.length := hp.out
      simp [hout, DexPatchResult.add, DexPatchResult.default]
    · have hl' := (wf.patched hsame).locate_iff.mpr ((wf.namesSdkInt_iff hsame field).mpr hnames)
      have hb' := wf.walk_rewritten hsame hslices
      obtain ⟨dex₂, hrun', _, heq⟩ := patchDex_located sha1 hl' hb' rfl
      rw [hrun', heq rfl]

/-! ### Instructions in the file and in a slice of it -/

/-- Reading the operand of a slice's instruction off the file. -/
theorem isSget_slice_iff (hfit : i + 4 ≤ r.2) :
    IsSget field (slice d r.1 r.2) i ↔
      0x60 ≤ d.getD (r.1 + i) 0 ∧ d.getD (r.1 + i) 0 ≤ 0x66 ∧
        leValue (slice d (r.1 + i + 2) 2) = field := by
  rw [IsSget, getD_slice (by omega), slice_slice (by omega), Nat.add_assoc]

/-- In a file, an instruction reads `SDK_INT` when it is a target of the rewrite. -/
theorem readsSdkInt_iff (hnames : ∀ f < 2 ^ 16, NamesSdkInt d h f ↔ f = field)
    (hin : r.1 + r.2 ≤ d.length) (hi : IsInsn (slice d r.1 r.2) i n) :
    ReadsSdkInt d h (r.1 + i) ↔ IsTarget field (slice d r.1 r.2) i := by
  have hfit := hi.2.2
  rw [length_slice hin] at hfit
  have h2 := two_le_insnBytes hi.2.1
  have hop : (slice d r.1 r.2).getD i 0 = d.getD (r.1 + i) 0 := getD_slice (by omega)
  have hlt : ∀ off, leValue (slice d off 2) < 2 ^ 16 := fun off => leValue_slice_lt d off 2
  constructor
  · rintro ⟨hlo, hhi, hname⟩
    obtain rfl : n = 4 := hi.sget_length ⟨by rw [hop]; exact hlo, by rw [hop]; exact hhi, rfl⟩
    refine ⟨hi, (isSget_slice_iff hfit).mpr ⟨hlo, hhi, ?_⟩⟩
    exact (hnames _ (hlt _)).mp hname
  · rintro ⟨hi', hs⟩
    have hfit' := hi'.2.2
    rw [length_slice hin] at hfit'
    obtain ⟨hlo, hhi, heq⟩ := (isSget_slice_iff hfit').mp hs
    exact ⟨hlo, hhi, (hnames _ (hlt _)).mpr heq⟩

section
variable (wf : WellFormed dex h) (o : Outcome sha1 dex h res dex' field ws)
include wf o

omit wf in
theorem Outcome.rewritten_spec (hr : r ∈ codeRanges dex h) : ∃ ts,
    Rewritten field (slice dex r.1 r.2) res (slice dex' r.1 r.2, res.add ts.length) ts := by
  obtain ⟨ts, ht, _⟩ := rewrite_eq (slice dex r.1 r.2) field res
  exact ⟨ts, by rw [o.slices r hr]; exact ht⟩

theorem Outcome.insnAt_iff : InsnAt dex' h p n ↔ InsnAt dex h p n := by
  unfold InsnAt
  rw [wf.codeRanges_eq o.same]
  apply exists_congr
  intro r
  apply and_congr_right
  intro hr
  obtain ⟨ts, ht⟩ := o.rewritten_spec hr
  simp only [ht.isInsn_iff]

theorem Outcome.complete (hi : InsnAt dex' h p n) : ¬ ReadsSdkInt dex' h p := by
  obtain ⟨r, hr, i, rfl, hi⟩ := hi
  rw [wf.codeRanges_eq o.same] at hr
  have hnames : ∀ f < 2 ^ 16, NamesSdkInt dex' h f ↔ f = field := fun f hf =>
    (wf.namesSdkInt_iff o.same f).trans (o.names f hf)
  rw [readsSdkInt_iff hnames (by rw [o.same.length]; exact wf.range_inside hr) hi, o.slices r hr]
  exact rewritten_no_target field _ i

theorem Outcome.turned (hi : InsnAt dex h p n) (hs : ReadsSdkInt dex h p) :
    slice dex' p n = [0x13, dex.getD (p + 1) 0, 35, 0] := by
  obtain ⟨r, hr, i, rfl, hi⟩ := hi
  have htarget := (readsSdkInt_iff o.names (wf.range_inside hr) hi).mp hs
  obtain rfl : n = 4 := Option.some.inj (hi.2.1.symm.trans htarget.1.2.1)
  have hfit := hi.2.2
  rw [length_slice (wf.range_inside hr)] at hfit
  obtain ⟨ts, ht⟩ := o.rewritten_spec hr
  have hconst := ht.patched.const i ((ht.mem i).mpr htarget)
  have hreg : (slice dex r.1 r.2).getD (i + 1) 0 = dex.getD (r.1 + i + 1) 0 := by
    rw [getD_slice (by omega), Nat.add_assoc]
  rw [slice_slice hfit, hreg] at hconst
  exact hconst

theorem Outcome.others (hi : InsnAt dex h p n) (hs : ¬ ReadsSdkInt dex h p) :
    slice dex' p n = slice dex p n := by
  obtain ⟨r, hr, i, rfl, hi⟩ := hi
  have hno := mt (readsSdkInt_iff o.names (wf.range_inside hr) hi).mpr hs
  have hfit := hi.2.2
  rw [length_slice (wf.range_inside hr)] at hfit
  obtain ⟨ts, ht⟩ := o.rewritten_spec hr
  rw [← slice_slice hfit, ← slice_slice (d := dex) hfit]
  apply ht.patched.slice
  intro j hlo hhi
  apply ht.apart hi.1 _ hlo (fun hmem => hno ((ht.mem i).mp hmem))
  intro m hm
  rw [hi.2.1] at hm
  cases hm
  exact hhi

theorem Outcome.count :
    res.patches = {p | (∃ n, InsnAt dex h p n) ∧ ReadsSdkInt dex h p}.ncard := by
  have hset : {p | (∃ n, InsnAt dex h p n) ∧ ReadsSdkInt dex h p} = (ws.toFinset : Set Nat) := by
    ext p
    rw [Set.mem_ofPred_eq, Finset.mem_coe, List.mem_toFinset, o.mem p]
    constructor
    · rintro ⟨⟨n, r, hr, i, rfl, hi⟩, hs⟩
      exact ⟨r, hr, i, rfl, (readsSdkInt_iff o.names (wf.range_inside hr) hi).mp hs⟩
    · rintro ⟨r, hr, i, rfl, htarget⟩
      have hi := htarget.1
      exact ⟨⟨4, r, hr, i, rfl, hi⟩,
        (readsSdkInt_iff o.names (wf.range_inside hr) hi).mpr htarget⟩
  rw [hset, Set.ncard_coe_finset, List.toFinset_card_of_nodup o.nodup, o.patches]

end

/-- The patch is complete, touches nothing else, counts what it does, and is done after one run. -/
theorem patchDex_complete (wf : WellFormed dex h) (hok : patchDex sha1 dex = (.ok res, dex')) :
    DexHeader.parse dex' = .ok h ∧ codeRanges dex' h = codeRanges dex h ∧
    (∀ p n, InsnAt dex' h p n ↔ InsnAt dex h p n) ∧
    (∀ p n, InsnAt dex' h p n → ¬ ReadsSdkInt dex' h p) ∧
    (∀ p n, InsnAt dex h p n → ReadsSdkInt dex h p →
      slice dex' p n = [0x13, dex.getD (p + 1) 0, 35, 0]) ∧
    (∀ p n, InsnAt dex h p n → ¬ ReadsSdkInt dex h p → slice dex' p n = slice dex p n) ∧
    res.patches = {p | (∃ n, InsnAt dex h p n) ∧ ReadsSdkInt dex h p}.ncard ∧
    patchDex sha1 dex' = (.ok ⟨0, 0⟩, dex') := by
  obtain ⟨field, ws, o⟩ := wf.outcome hok
  refine ⟨?_, wf.codeRanges_eq o.same, fun _ _ => o.insnAt_iff wf, fun _ _ => o.complete wf,
    fun _ _ => o.turned wf, fun _ _ => o.others wf, o.count wf, o.again⟩
  rw [wf.parse_eq o.same]
  exact wf.parsed

/-- One class: two methods that share `sget v3; return-void`, and one without code. -/
def sampleDex : Bytes :=
  DEX_MAGIC_PREFIX ++ ascii ['0', '3', '5'] ++ List.replicate 25 0 ++
  [249, 0x70, ENDIAN_CONSTANT, 0, 0, 0, 3, 112, 2, 124, 0, 0, 1, 132, 0, 0, 1, 140, 0, 0].flatMap
    (leBytes 4) ++
  [209, 212, 240].flatMap (leBytes 4) ++ [0, 1].flatMap (leBytes 4) ++
  [1, 0].flatMap (leBytes 2) ++ leBytes 4 2 ++
  [1, 0, 0, 0, 0, 0, 194, 0].flatMap (leBytes 4) ++
  [4, 0, 0, 3].flatMap (leBytes 4) ++ [0x60, 0x03, 0x00, 0x00, 0x0e, 0x00] ++
  [0, 0, 2, 1, 0, 0, 0xac, 0x01, 1, 0, 0xac, 0x01, 0, 0, 0] ++
  [1] ++ INT ++ [0, 26] ++ BUILD_VERSION ++ [0, 7] ++ SDK_INT ++ [0]

def sampleHeader : DexHeader := ⟨3, 112, 2, 124, 1, 132, 1, 140⟩

def zeroSha1 : Sha1 := fun _ => ⟨List.replicate 20 0, by decide⟩

theorem sampleDex_wellFormed : WellFormed sampleDex sampleHeader := by
  constructor <;> decide +kernel

theorem sampleDex_patched : (patchDex zeroSha1 sampleDex).1 = .ok ⟨1, 4⟩ :=
  toOption_eq_some.mp (by decide +kernel)

theorem patchDex_complete_sampleDex :
    InsnAt sampleDex sampleHeader 188 4 ∧ ReadsSdkInt sampleDex sampleHeader 188 ∧
    slice (patchDex zeroSha1 sampleDex).2 188 4 = [0x13, 0x03, 35, 0] ∧
    patchDex zeroSha1 (patchDex zeroSha1 sampleDex).2 =
      (.ok ⟨0, 0⟩, (patchDex zeroSha1 sampleDex).2) := by
  have hrun : patchDex zeroSha1 sampleDex = (.ok ⟨1, 4⟩, (patchDex zeroSha1 sampleDex).2) := by
    rw [← sampleDex_patched]
  obtain ⟨_, _, _, _, hturned, _, _, hagain⟩ := patchDex_complete sampleDex_wellFormed hrun
  have hi : InsnAt sampleDex sampleHeader 188 4 :=
    ⟨(188, 6), by decide +kernel, 0, rfl, .zero, by decide +kernel, by decide +kernel⟩
  have hs : ReadsSdkInt sampleDex sampleHeader 188 :=
    ⟨by decide +kernel, by decide +kernel, 1, 0, 2, by decide +kernel, by decide +kernel,
      by decide +kernel, by decide +kernel⟩
  exact ⟨hi, hs, hturned 188 4 hi hs, hagain⟩

end Aabox.Resigner.Dex
