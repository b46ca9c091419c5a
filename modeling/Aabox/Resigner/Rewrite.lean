import Aabox.Resigner.Dalvik

/-! The rewrite loop on one stream: it turns every instruction that reads the field, once. -/
namespace Aabox.Resigner.Dex
open Aabox.Lib

/-- The places covered by the four-byte windows at `ts`. -/
def Windows (ts : List Nat) (p : Nat) : Prop := ∃ t ∈ ts, t ≤ p ∧ p < t + 4

/-- `code'` is `code` with the instructions at `ts` turned into `const/16`. -/
structure Patched (code : Bytes) (ts : List Nat) (code' : Bytes) : Prop
    extends EqOff (Windows ts) code code' where
  const : ∀ t ∈ ts, slice code' t 4 = const16 (code.getD (t + 1) 0)

def DexPatchResult.add (r : DexPatchResult) (n : Nat) : DexPatchResult :=
  ⟨r.patches + n, r.bytes_rewritten + 4 * n⟩

variable {code code' : Bytes} {field i j n t : Nat} {ts : List Nat} {s s' : SgetLoop}
  {out₀ : DexPatchResult} {r : Bytes × DexPatchResult}

@[simp] theorem length_const16 (v : UInt8) : (const16 v).length = 4 := by simp [const16]

theorem Patched.nil (code : Bytes) : Patched code [] code :=
  ⟨.refl _ _, by simp⟩

theorem Patched.snoc (h : Patched code ts code') (hts : ∀ u ∈ ts, u + 4 ≤ t)
    (ht : t + 4 ≤ code.length) :
    Patched code (ts ++ [t]) (splice code' t (const16 (code'.getD (t + 1) 0))) := by
  have hb : t + (const16 (code'.getD (t + 1) 0)).length ≤ code'.length := by
    rw [length_const16, h.length]
    exact ht
  have hreg : code'.getD (t + 1) 0 = code.getD (t + 1) 0 := by
    apply getD_congr
    apply h.get
    rintro ⟨u, hu, _, hlt⟩
    have := hts u hu
    omega
  constructor
  · apply EqOff.splice (h.toEqOff.mono _) hb
    · intro p hp hq
      rw [length_const16] at hq
      exact ⟨t, by simp, hp, hq⟩
    · rintro p ⟨u, hu, hr⟩
      exact ⟨u, by simp [hu], hr⟩
  · intro u hu
    rcases List.mem_append.mp hu with hu | hu
    · rw [← h.const u hu]
      apply slice_congr
      intro p hp hq
      have := hts u hu
      rw [getElem?_splice hb, if_neg (by omega)]
    · obtain rfl : u = t := by simpa using hu
      have hself := slice_splice_self hb
      rw [length_const16] at hself
      rw [hself, hreg]

/-! ### One turn -/

theorem rewriteStep_none (h : insnBytes s.insns s.i = none) :
    rewriteStep field s = .inr (s.insns, s.out) := by
  unfold insnBytes at h
  unfold rewriteStep
  by_cases hlen : s.insns.length < s.i + 2
  · simp only [if_pos hlen]
  · rw [if_neg hlen] at h
    by_cases hop : s.insns.getD s.i 0 = 0
    · rw [if_pos hop] at h
      have hp : payloadUnits s.insns s.i = none := by
        rw [payloadUnits_eq]
        simpa using h
      simp only [if_neg hlen, if_pos hop, hp]
    · rw [if_neg hop] at h
      cases h

/-- What the loop does at an instruction, or at the start of one that is cut off. -/
theorem rewriteStep_some (field : Nat) (h : insnBytes s.insns s.i = some n) :
    (s.insns.length < s.i + n ∧ rewriteStep field s = .inr (s.insns, s.out)) ∨
    ((s.i + n ≤ s.insns.length → ¬ IsSget field s.insns s.i) ∧
      rewriteStep field s = .inl { s with i := s.i + n }) ∨
    (n = 4 ∧ s.i + n ≤ s.insns.length ∧ IsSget field s.insns s.i ∧ rewriteStep field s = .inl {
      i := s.i + n
      insns := splice s.insns s.i (const16 (s.insns.getD (s.i + 1) 0))
      out := s.out.add 1 }) := by
  have hlen : ¬ s.insns.length < s.i + 2 := by
    intro hlen
    rw [insnBytes, if_pos hlen] at h
    cases h
  rw [insnBytes, if_neg hlen] at h
  unfold rewriteStep
  simp only [if_neg hlen]
  by_cases hop : s.insns.getD s.i 0 = 0
  · rw [if_pos hop] at h
    obtain ⟨u, hu, rfl⟩ := Option.map_eq_some_iff.mp h
    right
    left
    refine ⟨fun _ hs => (units_sget _ hs.1 hs.2.1).1 hop, ?_⟩
    simp only [if_pos hop, payloadUnits_eq, hu]
  · rw [if_neg hop] at h
    obtain rfl := Option.some.inj h
    have hu := units_eq _ hop
    simp only [if_neg hop]
    by_cases h0 : OPCODE_LENGTH_CODE_UNITS.getD (s.insns.getD s.i 0).toNat 0 = 0
    · rw [if_pos h0] at hu
      right
      left
      refine ⟨fun _ hs => ?_, ?_⟩
      · have := (units_sget _ hs.1 hs.2.1).2
        omega
      · simp only [if_pos h0, hu]
    · rw [if_neg h0] at hu
      simp only [if_neg h0, hu]
      by_cases hcut : s.insns.length <
          s.i + OPCODE_LENGTH_CODE_UNITS.getD (s.insns.getD s.i 0).toNat 0 * 2
      · left
        exact ⟨hcut, by rw [if_pos hcut]⟩
      · rw [if_neg hcut]
        right
        by_cases hs : IsSget field s.insns s.i
        · have h2 := (units_sget _ hs.1 hs.2.1).2
          right
          refine ⟨by omega, by omega, hs, ?_⟩
          rw [if_pos ⟨hs.1, hs.2.1, by omega, hs.2.2⟩]
          rfl
        · left
          refine ⟨fun _ => hs, ?_⟩
          rw [if_neg (fun hc => hs ⟨hc.1, hc.2.1, hc.2.2.2⟩)]

/-! ### The whole loop -/

/-- Up to `s.i`, the targets of `code` are rewritten; from there on nothing has changed. -/
structure RewriteInv (field : Nat) (code : Bytes) (out₀ : DexPatchResult) (s : SgetLoop)
    (ts : List Nat) : Prop where
  boundary : Boundary (insnBytes code) s.i
  patched : Patched code ts s.insns
  mem : ∀ t, t ∈ ts ↔ IsTarget field code t ∧ t < s.i
  nodup : ts.Nodup
  out : s.out = out₀.add ts.length

/-- What the loop returns: all the targets of `code` rewritten and counted. -/
structure Rewritten (field : Nat) (code : Bytes) (out₀ : DexPatchResult)
    (r : Bytes × DexPatchResult) (ts : List Nat) : Prop where
  patched : Patched code ts r.1
  mem : ∀ t, t ∈ ts ↔ IsTarget field code t
  nodup : ts.Nodup
  out : r.2 = out₀.add ts.length

theorem IsInsn.end_le (h : IsInsn code i n) (hj : Boundary (insnBytes code) j) (hij : i < j) :
    i + n ≤ j := by
  obtain ⟨m, hm, hle⟩ := h.1.end_le insnBytes_pos hj hij
  rw [h.2.1] at hm
  cases hm
  exact hle

theorem RewriteInv.before (h : RewriteInv field code out₀ s ts) (ht : t ∈ ts) : t + 4 ≤ s.i := by
  obtain ⟨htarget, hlt⟩ := (h.mem t).mp ht
  exact htarget.1.end_le h.boundary hlt

theorem RewriteInv.ahead (h : RewriteInv field code out₀ s ts) (p : Nat) (hp : s.i ≤ p) :
    s.insns[p]? = code[p]? := by
  apply h.patched.get
  rintro ⟨t, ht, _, hlt⟩
  have := h.before ht
  omega

theorem RewriteInv.insnBytes_eq (h : RewriteInv field code out₀ s ts) :
    insnBytes s.insns s.i = insnBytes code s.i :=
  insnBytes_congr h.patched.length (fun p hp _ => h.ahead p hp)

theorem IsSget.congr (h : ∀ p, i ≤ p → p < i + 4 → code'[p]? = code[p]?) :
    IsSget field code' i ↔ IsSget field code i := by
  have h0 := getD_congr (h i (by omega) (by omega))
  have h2 : slice code' (i + 2) 2 = slice code (i + 2) 2 :=
    slice_congr (fun p hp hq => h p (by omega) (by omega))
  unfold IsSget
  rw [h0, h2]

theorem RewriteInv.isSget_iff (h : RewriteInv field code out₀ s ts) :
    IsSget field s.insns s.i ↔ IsSget field code s.i :=
  IsSget.congr (fun p hp _ => h.ahead p hp)

/-- A target ahead of an instruction is at it or after its end. -/
theorem target_lt_iff (hb : Boundary (insnBytes code) i) (hn : insnBytes code i = some n)
    (ht : IsTarget field code t) : t < i + n ↔ t < i ∨ t = i := by
  constructor
  · intro hlt
    by_contra hno
    obtain ⟨m, hm, hle⟩ := hb.end_le insnBytes_pos ht.1.1 (by omega)
    rw [hn] at hm
    cases hm
    omega
  · have := insnBytes_pos i n hn
    omega

theorem rewriteInv_step (h : RewriteInv field code out₀ s ts)
    (hstep : rewriteStep field s = .inl s') :
    (∃ ts', RewriteInv field code out₀ s' ts') ∧ s.i < s'.i ∧ s.i < code.length := by
  cases hn : insnBytes s.insns s.i with
  | none =>
    rw [rewriteStep_none hn] at hstep
    cases hstep
  | some n =>
    have hcode : insnBytes code s.i = some n := h.insnBytes_eq.symm.trans hn
    have hpos := insnBytes_pos _ _ hn
    have hlen : s.i < code.length := by
      by_contra hge
      rw [insnBytes, if_pos (by omega)] at hcode
      cases hcode
    have hnext : Boundary (insnBytes code) (s.i + n) := h.boundary.next hcode
    rcases rewriteStep_some field hn with ⟨_, heq⟩ | ⟨hno, heq⟩ | ⟨rfl, hfit, hs, heq⟩
    · rw [heq] at hstep
      cases hstep
    · rw [heq] at hstep
      cases hstep
      refine ⟨⟨ts, hnext, h.patched, ?_, h.nodup, h.out⟩, by simpa using hpos, hlen⟩
      intro t
      rw [h.mem t]
      apply and_congr_right
      intro ht
      rw [target_lt_iff h.boundary hcode ht]
      constructor
      · exact Or.inl
      · rintro (hlt | rfl)
        · exact hlt
        · have hle := ht.1.2.2
          have h4 : n = 4 := Option.some.inj (hcode.symm.trans ht.1.2.1)
          rw [← h.patched.length] at hle
          exact (hno (by omega) (h.isSget_iff.mpr ht.2)).elim
    · rw [heq] at hstep
      cases hstep
      have hfit' : s.i + 4 ≤ code.length := by rw [← h.patched.length]; exact hfit
      have htarget : IsTarget field code s.i :=
        ⟨⟨h.boundary, hcode, hfit'⟩, h.isSget_iff.mp hs⟩
      refine ⟨⟨ts ++ [s.i], hnext, h.patched.snoc (fun u hu => h.before hu) hfit', ?_, ?_, ?_⟩,
        by simp, hlen⟩
      · intro t
        rw [List.mem_append, h.mem t, List.mem_singleton]
        constructor
        · rintro (⟨ht, hlt⟩ | rfl)
          · exact ⟨ht, by dsimp only; omega⟩
          · exact ⟨htarget, by dsimp only; omega⟩
        · rintro ⟨ht, hlt⟩
          exact ((target_lt_iff h.boundary hcode ht).mp hlt).imp_left (⟨ht, ·⟩)
      · rw [List.nodup_append]
        refine ⟨h.nodup, by simp, ?_⟩
        rintro u hu v hv rfl
        obtain rfl : u = s.i := by simpa using hv
        have := h.before hu
        omega
      · simp only [h.out, DexPatchResult.add, List.length_append, List.length_singleton]
        congr 1

theorem rewriteInv_done (h : RewriteInv field code out₀ s ts)
    (hstep : rewriteStep field s = .inr r) : Rewritten field code out₀ r ts := by
  -- the loop stops where no whole instruction starts, so there is no target from there on
  have hlast : r = (s.insns, s.out) ∧ ∀ n, insnBytes code s.i = some n → code.length < s.i + n := by
    cases hn : insnBytes s.insns s.i with
    | none =>
      rw [rewriteStep_none hn] at hstep
      cases hstep
      refine ⟨rfl, fun n hcode => ?_⟩
      rw [← h.insnBytes_eq, hn] at hcode
      cases hcode
    | some n =>
      have hcode : insnBytes code s.i = some n := h.insnBytes_eq.symm.trans hn
      rcases rewriteStep_some field hn with ⟨hcut, heq⟩ | ⟨_, heq⟩ | ⟨_, _, _, heq⟩
      · rw [heq] at hstep
        cases hstep
        refine ⟨rfl, fun m hm => ?_⟩
        rw [hcode] at hm
        cases hm
        rw [← h.patched.length]
        exact hcut
      · rw [heq] at hstep
        cases hstep
      · rw [heq] at hstep
        cases hstep
  obtain ⟨rfl, hcut⟩ := hlast
  refine ⟨h.patched, fun t => ?_, h.nodup, h.out⟩
  rw [h.mem t]
  constructor
  · exact And.left
  · intro ht
    refine ⟨ht, ?_⟩
    by_contra hge
    have hfit := ht.1.2.2
    rcases Nat.eq_or_lt_of_le (Nat.le_of_not_lt hge) with heq | hlt
    · have := hcut 4 (heq ▸ ht.1.2.1)
      omega
    · obtain ⟨m, hm, hle⟩ := h.boundary.end_le insnBytes_pos ht.1.1 hlt
      have := hcut m hm
      omega

theorem rewriteSget_total (insns : Bytes) (field : Nat) (out : DexPatchResult) :
    ∃ r, loop (rewriteStep field) (insns.length + 1) ⟨0, insns, out⟩ = some r ∧
      ∃ ts, Rewritten field insns out r ts := by
  have hinit : RewriteInv field insns out ⟨0, insns, out⟩ [] :=
    ⟨.zero, .nil _, by simp, List.nodup_nil, rfl⟩
  apply loop_total (I := fun s => ∃ ts, RewriteInv field insns out s ts)
    (m := fun s => insns.length - s.i) ⟨[], hinit⟩
  · rintro s s' ⟨ts, h⟩ hstep
    obtain ⟨hinv, hlt, hlen⟩ := rewriteInv_step h hstep
    exact ⟨hinv, by omega⟩
  · rintro s r ⟨ts, h⟩ hstep
    exact ⟨ts, rewriteInv_done h hstep⟩
  · dsimp only
    omega

/-- The fuel of the loop is enough, whatever the bytes. -/
theorem rewriteSget_loop (insns : Bytes) (field : Nat) (out : DexPatchResult) :
    loop (rewriteStep field) (insns.length + 1) ⟨0, insns, out⟩ =
      some (rewriteSgetInInsns insns field out) := by
  obtain ⟨r, hr, _⟩ := rewriteSget_total insns field out
  rw [rewriteSgetInInsns, hr]
  rfl

theorem rewriteSget_spec (insns : Bytes) (field : Nat) (out : DexPatchResult) :
    ∃ ts, Rewritten field insns out (rewriteSgetInInsns insns field out) ts := by
  obtain ⟨r, hr, hq⟩ := rewriteSget_total insns field out
  rw [rewriteSgetInInsns, hr]
  exact hq

/-! ### What is left afterwards -/

theorem Rewritten.apart (h : Rewritten field code out₀ r ts) (hj : Boundary (insnBytes code) j)
    (hn : ∀ n, insnBytes code j = some n → i < j + n) (hi : j ≤ i) (hts : j ∉ ts) :
    ¬ Windows ts i := by
  rintro ⟨t, ht, hle, hlt⟩
  have htarget := (h.mem t).mp ht
  rcases Nat.lt_trichotomy t j with hc | rfl | hc
  · have := htarget.1.end_le hj hc
    omega
  · exact hts ht
  · obtain ⟨m, hm, hend⟩ := hj.end_le insnBytes_pos htarget.1.1 hc
    have := hn m hm
    omega

theorem Rewritten.opcode (h : Rewritten field code out₀ r ts) (ht : t ∈ ts) :
    r.1.getD t 0 = 0x13 := by
  have hs := congrArg (fun bs : Bytes => bs[0]?) (h.patched.const t ht)
  simp only [getElem?_slice] at hs
  rw [List.getD_eq_getElem?_getD]
  simpa [const16] using congrArg (fun b => b.getD 0) hs

/-- The rewritten stream has the instructions where they were. -/
theorem Rewritten.insnBytes_eq (h : Rewritten field code out₀ r ts)
    (hj : Boundary (insnBytes code) j) : insnBytes r.1 j = insnBytes code j := by
  by_cases hts : j ∈ ts
  · obtain ⟨⟨_, hn, hfit⟩, _⟩ := (h.mem j).mp hts
    rw [hn, insnBytes, h.patched.length, if_neg (by omega), h.opcode hts, if_neg (by decide)]
    rfl
  · exact insnBytes_congr h.patched.length
      (fun p hp hn => h.patched.get p (h.apart hj hn hp hts))

theorem Rewritten.boundary_iff (h : Rewritten field code out₀ r ts) :
    Boundary (insnBytes r.1) j ↔ Boundary (insnBytes code) j :=
  Boundary.congr (fun _ hb => h.insnBytes_eq hb)

theorem Rewritten.isInsn_iff (h : Rewritten field code out₀ r ts) :
    IsInsn r.1 j n ↔ IsInsn code j n := by
  unfold IsInsn
  rw [h.boundary_iff, h.patched.length]
  apply and_congr_right
  intro hb
  rw [h.insnBytes_eq hb]

theorem Rewritten.not_isSget (h : Rewritten field code out₀ r ts) (hj : IsInsn r.1 j n) :
    ¬ IsSget field r.1 j := by
  intro hs
  have hcode := h.isInsn_iff.mp hj
  obtain rfl := hj.sget_length hs
  by_cases hts : j ∈ ts
  · have hop := hs.1
    rw [h.opcode hts] at hop
    exact absurd hop (by decide)
  · have hsame : IsSget field code j := by
      refine (IsSget.congr fun p hp hq => ?_).mp hs
      refine h.patched.get p (h.apart hcode.1 (fun m hm => ?_) hp hts)
      rw [hcode.2.1] at hm
      cases hm
      exact hq
    exact hts ((h.mem j).mpr ⟨hcode, hsame⟩)

end Aabox.Resigner.Dex
