import Aabox.Resigner.Checked

/-! A checked build does what the release build does where the class loop stays within 32 bits. -/
namespace Aabox.Resigner.Dex
open Aabox.Lib

/-- The sums over the counts fit 32 bits; the second is taken where the fields can be skipped. -/
def CountsFit (dex : Bytes) (class_data_off : Nat) : Prop :=
  ∀ p s i d v, classCounts dex class_data_off = .ok (p, s, i, d, v) →
    s + i < 2 ^ 32 ∧ ∀ q, skipFields dex (s + i) p = .ok q → d + v < 2 ^ 32

/-- The place of class `i` fits 32 bits, and so do the sums of its counts where it has any. -/
def ClassFits (h : DexHeader) (dex : Bytes) (i : Nat) : Prop :=
  h.class_defs_off + i * 32 < 2 ^ 32 ∧
    ∀ off, readU32 dex (h.class_defs_off + i * 32 + 24) = .ok off → off ≠ 0 → CountsFit dex off

/-- What the class loop has made of the file when it comes to class `i`. -/
def walkedTo (h : DexHeader) (field_idx : Nat) (dex : Bytes) (i : Nat) : Bytes × DexPatchResult :=
  (List.range i).foldl (walkClass h (rewriteInsns field_idx)) (dex, .default)

/-- Where the field is found, every class the loop comes to fits. -/
def ClassesFit (dex : Bytes) : Prop :=
  ∀ h field_idx, locateSdkInt dex = .ok (some (h, field_idx)) →
    ∀ i < h.class_defs_size, ClassFits h (walkedTo h field_idx dex i).1 i

theorem walkedTo_succ (h : DexHeader) (field_idx : Nat) (dex : Bytes) (i : Nat) :
    walkedTo h field_idx dex (i + 1) =
      walkClass h (rewriteInsns field_idx) (walkedTo h field_idx dex i) i := by
  rw [walkedTo, List.range_succ, List.foldl_append]
  rfl

/-! ### Well-formed files -/

variable {dex : Bytes} {h : DexHeader} {field_idx off i : Nat}

/-- Where all fields and methods are there to be read, there are less than `2 ^ 32` of them. -/
theorem countsFit_of_classData {stop : Nat} {code_offs : List Nat} (hlen : dex.length < 2 ^ 32)
    (hdata : classData dex off = .ok (stop, code_offs)) : CountsFit dex off := by
  obtain ⟨p, s, i, d, v, fields, p', hcounts, _, hle, hfields, hmethods⟩ := classData_counts hdata
  have bf := many_bounds encodedField_bounds hfields
  have bm := many_bounds methodCode_bounds hmethods
  intro p₁ s₁ i₁ d₁ v₁ hc
  cases hcounts.symm.trans hc
  exact ⟨by omega, fun _ _ => by omega⟩

theorem WellFormed.classFits (wf : WellFormed dex h) {d : Bytes} (hi : i < h.class_defs_size)
    (hc : EqOff (Writable dex h) dex d) : ClassFits h d i := by
  have hsize := wf.size
  have htable := wf.table_inside (m := (h.class_defs_off, h.class_defs_size * 32))
    (by simp [tables]) (i * 32) 32 (by dsimp only; omega)
  dsimp only at htable
  refine ⟨by omega, fun off hoff h0 => ?_⟩
  rw [wf.readClass_eq hc hi] at hoff
  obtain ⟨stop, code_offs, _, _, _, hdata⟩ := wf.classData_eq hi hoff h0 hc
  exact countsFit_of_classData (by rw [hc.length]; exact wf.size) hdata

theorem WellFormed.walkedTo_eqOff (wf : WellFormed dex h) (field_idx : Nat)
    (hi : i ≤ h.class_defs_size) : EqOff (Writable dex h) dex (walkedTo h field_idx dex i).1 := by
  induction i with
  | zero => exact EqOff.refl _ _
  | succ i ih =>
    have hc := ih (Nat.le_of_succ_le hi)
    have hkeep := rewriteInsns_keepsLength field_idx
    rw [walkedTo_succ, wf.walkClass_eq hkeep hi hc]
    apply wf.foldl_eqOff hkeep _ hc
    intro r hr
    obtain ⟨c, hcode, rfl⟩ := List.mem_map.mp hr
    apply List.mem_map_of_mem
    exact List.mem_flatMap.mpr ⟨i, List.mem_range.mpr hi, hcode⟩

theorem WellFormed.classesFit (wf : WellFormed dex h) : ClassesFit dex := by
  intro h' field_idx hl i hi
  have hparsed := (locateSdkInt_some hl).1
  rw [wf.parsed] at hparsed
  cases hparsed
  exact wf.classFits hi (wf.walkedTo_eqOff field_idx (Nat.le_of_lt hi))

end Aabox.Resigner.Dex

namespace Aabox.Resigner.Dex.Checked
open Aabox.Lib

variable {dex : Bytes} {h : DexHeader} {field_idx off n p k i : Nat}
  {b : Bytes × DexPatchResult} {sha1 : Sha1}

/-! ### One class -/

/-- What follows a number is reached with a place inside the file. -/
theorem run_uleb {α : Type} {f : Nat × Nat → MayPanic α} {g : Nat × Nat → Except String α}
    (hp : p < 2 ^ 32) (hfg : ∀ q v, q ≤ dex.length → (f (q, v)).run = some (g (q, v))) :
    (readUleb128 dex p >>= f).run = some (Dex.readUleb128 dex p >>= g) := by
  refine run_bind (readUleb128_eq (by omega)) fun r hr => ?_
  obtain ⟨q, v⟩ := r
  exact hfg q v (readUleb128_bounds hr).2

theorem skipFields_eq (hlen : dex.length < 2 ^ 32) (hp : p ≤ dex.length) :
    (skipFields dex n p).run = some (Dex.skipFields dex n p) := by
  induction n generalizing p with
  | zero => rfl
  | succ n ih =>
    rw [skipFields, Dex.skipFields]
    refine run_uleb (by omega) fun q _ hq => ?_
    refine run_uleb (by omega) fun r _ hr => ?_
    exact ih hr

theorem skipFields_le (hp : p ≤ dex.length) {q : Nat} (hq : Dex.skipFields dex n p = .ok q) :
    q ≤ dex.length := by
  induction n generalizing p with
  | zero =>
    cases hq
    exact hp
  | succ n ih =>
    unfold Dex.skipFields at hq
    obtain ⟨_, _, hq⟩ := bind_eq_ok.mp hq
    obtain ⟨_, h₂, hq⟩ := bind_eq_ok.mp hq
    exact ih (readUleb128_bounds h₂).2 hq

theorem methodCode_eq (hlen : dex.length < 2 ^ 32) (hp : p ≤ dex.length) :
    (methodCode dex p).run = some (Dex.methodCode dex p) := by
  unfold methodCode Dex.methodCode
  refine run_uleb (by omega) fun q _ hq => ?_
  refine run_uleb (by omega) fun r _ hr => ?_
  exact readUleb128_eq (by omega)

theorem methodCode_ok {q v : Nat} (h : Dex.methodCode dex p = .ok (q, v)) :
    q ≤ dex.length ∧ v < 2 ^ 32 := by
  unfold Dex.methodCode at h
  obtain ⟨_, _, h⟩ := bind_eq_ok.mp h
  obtain ⟨_, _, h⟩ := bind_eq_ok.mp h
  exact readUleb128_lt h

theorem insnsRange_eq (hoff : off < 2 ^ 32) :
    (insnsRange dex off).run = some (Dex.insnsRange dex off) := by
  unfold insnsRange Dex.insnsRange
  have hsize : addUsize off 12 = some (off + 12) := addUsize_eq (by omega)
  have hstart : addUsize off 16 = some (off + 16) := addUsize_eq (by omega)
  rw [run_lift hsize]
  refine run_bind (readU32_eq (by omega)) fun insns_size hread => ?_
  have hlt := (readU32_ok_lt hread).2
  have hdouble : mulUsize insns_size 2 = some (insns_size * 2) := mulUsize_eq (by omega)
  have hend : fits 64 (off + 16 + insns_size * 2) = some (off + 16 + insns_size * 2) :=
    if_pos (by omega)
  rw [run_lift hstart, run_lift hdouble, hend]
  dsimp only
  split
  · rfl
  · rfl

theorem insnsRange_le {r : Nat × Nat} (h : Dex.insnsRange dex off = .ok r) :
    r.1 + r.2 ≤ dex.length := by
  obtain ⟨size, _, rfl, hle⟩ := insnsRange_ok h
  exact hle

theorem visit_eq {r : Nat × Nat} (hlen : b.1.length < 2 ^ 32) (hr : r.1 + r.2 ≤ b.1.length) :
    visit field_idx r b = some (Dex.visit (rewriteInsns field_idx) r b) := by
  have hslice : (slice b.1 r.1 r.2).length < 2 ^ 32 := by
    rw [length_slice hr]
    omega
  unfold visit
  rw [bind_some (subslice_eq (by omega) hr), Nat.add_sub_cancel_left,
    bind_some (rewriteSget_eq hslice)]
  rfl

theorem length_visit {r : Nat × Nat} (hr : r.1 + r.2 ≤ b.1.length) :
    (Dex.visit (rewriteInsns field_idx) r b).1.length = b.1.length := by
  unfold Dex.visit
  apply length_splice
  rw [rewriteInsns_keepsLength field_idx, length_slice hr]
  exact hr

theorem walkMethods_eq (hlen : b.1.length < 2 ^ 32) (hp : p ≤ b.1.length) :
    walkMethods field_idx n p k b = some (Dex.walkMethods (rewriteInsns field_idx) n p k b) := by
  induction n generalizing p k b with
  | zero => rfl
  | succ n ih =>
    rw [walkMethods, Dex.walkMethods, bind_some (methodCode_eq hlen hp)]
    cases hm : Dex.methodCode b.1 p with
    | error e => rfl
    | ok m =>
      obtain ⟨hq, hoff⟩ := methodCode_ok hm
      dsimp only
      split
      · exact ih hlen hq
      · rw [bind_some (insnsRange_eq hoff)]
        cases hr : Dex.insnsRange b.1 m.2 with
        | error e => rfl
        | ok r =>
          have hfit := insnsRange_le hr
          have hkeep : (Dex.visit (rewriteInsns field_idx) r b).1.length = b.1.length :=
            length_visit hfit
          dsimp only
          rw [bind_some (visit_eq hlen hfit)]
          exact ih (by rw [hkeep]; exact hlen) (by rw [hkeep]; exact hq)

/-! ### The counts of a class -/

theorem run_bind_ok {α β : Type} {x : MayPanic α} {f : α → MayPanic β} {a : α}
    (hx : x.run = some (.ok a)) : (x >>= f).run = (f a).run := by
  rw [ExceptT.run_bind, hx]
  rfl

theorem run_lift_none {α β : Type} {o : Option α} {f : α → MayPanic β} (h : o = none) :
    ((liftM o : MayPanic α) >>= f).run = none := by
  rw [h]
  rfl

theorem classCounts_eq (hlen : dex.length < 2 ^ 32) (hoff : off < 2 ^ 32) :
    (classCounts dex off).run = some (Dex.classCounts dex off) := by
  unfold classCounts Dex.classCounts
  refine run_uleb hoff fun p₁ _ h₁ => ?_
  refine run_uleb (by omega) fun p₂ _ h₂ => ?_
  refine run_uleb (by omega) fun p₃ _ h₃ => ?_
  exact run_uleb (by omega) fun _ _ _ => rfl

theorem classCounts_le {c : Nat × Nat × Nat × Nat × Nat} (h : Dex.classCounts dex off = .ok c) :
    c.1 ≤ dex.length := by
  unfold Dex.classCounts at h
  obtain ⟨_, _, h⟩ := bind_eq_ok.mp h
  obtain ⟨_, _, h⟩ := bind_eq_ok.mp h
  obtain ⟨_, _, h⟩ := bind_eq_ok.mp h
  obtain ⟨_, hlast, h⟩ := bind_eq_ok.mp h
  cases h
  exact (readUleb128_bounds hlast).2

theorem classDataMethods_eq (hlen : dex.length < 2 ^ 32) (hoff : off < 2 ^ 32)
    (hfit : CountsFit dex off) :
    (classDataMethods dex off).run = some (Dex.classDataMethods dex off) := by
  rw [classDataMethods, Dex.classDataMethods_counts]
  refine run_bind (classCounts_eq hlen hoff) fun ⟨p, s, i, d, v⟩ hc => ?_
  obtain ⟨hfields, hmethods⟩ := hfit p s i d v hc
  have hp : p ≤ dex.length := classCounts_le hc
  dsimp only
  rw [run_lift (addU32_eq hfields), u32_of_lt hfields]
  refine run_bind (skipFields_eq hlen hp) fun q hq => ?_
  have htotal := hmethods q hq
  rw [run_lift (addU32_eq htotal), u32_of_lt htotal]
  rfl

theorem classDataMethods_panics (hlen : dex.length < 2 ^ 32) (hoff : off < 2 ^ 32)
    (hfit : ¬ CountsFit dex off) : (classDataMethods dex off).run = none := by
  unfold CountsFit at hfit
  push Not at hfit
  obtain ⟨p, s, i, d, v, hc, hbad⟩ := hfit
  have hp : p ≤ dex.length := classCounts_le hc
  have hcounts := classCounts_eq hlen hoff
  rw [hc] at hcounts
  rw [classDataMethods, run_bind_ok hcounts]
  dsimp only
  by_cases hfields : s + i < 2 ^ 32
  · obtain ⟨q, hq, hmethods⟩ := hbad hfields
    have hskip := @skipFields_eq dex (s + i) p hlen hp
    rw [hq] at hskip
    rw [run_lift (addU32_eq hfields), run_bind_ok hskip]
    exact run_lift_none (if_neg (by omega))
  · exact run_lift_none (if_neg hfields)

theorem classDataMethods_ok {r : Nat × Nat} (h : Dex.classDataMethods dex off = .ok r) :
    r.1 ≤ dex.length := by
  rw [Dex.classDataMethods_counts] at h
  obtain ⟨c, hc, h⟩ := bind_eq_ok.mp h
  obtain ⟨q, hq, h⟩ := bind_eq_ok.mp h
  cases h
  exact skipFields_le (classCounts_le hc) hq

theorem walkOneClassData_eq (hlen : b.1.length < 2 ^ 32) (hoff : off < 2 ^ 32)
    (hfit : CountsFit b.1 off) : walkOneClassData field_idx off b =
      some (Dex.walkOneClassData (rewriteInsns field_idx) off b) := by
  rw [walkOneClassData, Dex.walkOneClassData, bind_some (classDataMethods_eq hlen hoff hfit)]
  cases hm : Dex.classDataMethods b.1 off with
  | error e => rfl
  | ok m => exact walkMethods_eq hlen (classDataMethods_ok hm)

theorem walkClass_eq (hlen : b.1.length < 2 ^ 32) (hfit : ClassFits h b.1 i) :
    walkClass h field_idx b i = some (Dex.walkClass h (rewriteInsns field_idx) b i) := by
  obtain ⟨hentry, hcounts⟩ := hfit
  have hat : addUsize (h.class_defs_off + i * 32) 24 = some (h.class_defs_off + i * 32 + 24) :=
    addUsize_eq (by omega)
  rw [walkClass, Dex.walkClass, bind_some (tableEntry_eq hentry), bind_some hat, u32_of_lt hentry,
    bind_some (readU32_eq (by omega))]
  cases hread : Dex.readU32 b.1 (h.class_defs_off + i * 32 + 24) with
  | error e => rfl
  | ok off =>
    have hoff := (readU32_ok_lt hread).2
    dsimp only
    by_cases hzero : off = 0
    · rw [if_pos hzero, if_pos hzero]
      rfl
    · rw [if_neg hzero, if_neg hzero,
        bind_some (walkOneClassData_eq hlen hoff (hcounts off hread hzero))]
      rfl

theorem walkClass_panics (hlen : b.1.length < 2 ^ 32) (hfit : ¬ ClassFits h b.1 i) :
    walkClass h field_idx b i = none := by
  unfold ClassFits at hfit
  by_cases hentry : h.class_defs_off + i * 32 < 2 ^ 32
  · push Not at hfit
    obtain ⟨off, hread, hzero, hcounts⟩ := hfit hentry
    have hat : addUsize (h.class_defs_off + i * 32) 24 = some (h.class_defs_off + i * 32 + 24) :=
      addUsize_eq (by omega)
    have hoff := (readU32_ok_lt hread).2
    rw [walkClass, bind_some (tableEntry_eq hentry), bind_some hat,
      bind_some (readU32_eq (by omega)), hread]
    dsimp only
    rw [if_neg hzero, walkOneClassData, classDataMethods_panics hlen hoff hcounts]
    rfl
  · have hnone : tableEntry h.class_defs_off i 32 = none := by
      unfold tableEntry
      by_cases hmul : i * 32 < 2 ^ 32
      · rw [bind_some (mulU32_eq hmul)]
        exact if_neg hentry
      · rw [show mulU32 i 32 = none from if_neg hmul]
        rfl
    rw [walkClass, hnone]
    rfl

/-! ### The class loop -/

theorem length_walkClass (h : DexHeader) (field_idx i : Nat) (b : Bytes × DexPatchResult) :
    (Dex.walkClass h (rewriteInsns field_idx) b i).1.length = b.1.length := by
  have hkeep : KeepStep (fun bs r r' => r = r' ∧ bs.length = b.1.length)
      (rewriteInsns field_idx) (rewriteInsns field_idx) := by
    rintro ⟨c, _⟩ ⟨d, _⟩ code_off r hr ⟨hsame, hout, hlen⟩
    dsimp only at hsame hout hlen
    subst hsame hout
    exact ⟨rfl, rfl, (length_visit (insnsRange_le hr)).trans hlen⟩
  exact (walkClass_inStep hkeep h i ⟨rfl, rfl, rfl⟩).2.2

theorem length_walkedTo (h : DexHeader) (field_idx : Nat) (dex : Bytes) (i : Nat) :
    (walkedTo h field_idx dex i).1.length = dex.length := by
  induction i with
  | zero => rfl
  | succ i ih => rw [walkedTo_succ, length_walkClass, ih]

theorem foldlM_range_succ (h : DexHeader) (field_idx n : Nat) (b : Bytes × DexPatchResult) :
    (List.range (n + 1)).foldlM (walkClass h field_idx) b =
      (List.range n).foldlM (walkClass h field_idx) b >>= fun b => walkClass h field_idx b n := by
  rw [List.range_succ, List.foldlM_append]
  congr 1
  funext b
  exact bind_pure _

/-- Up to where every class fits, the checked loop is at the state of the release loop. -/
theorem walkCodeItems_eq (hlen : dex.length < 2 ^ 32)
    (hfit : ∀ i < n, ClassFits h (walkedTo h field_idx dex i).1 i) :
    (List.range n).foldlM (walkClass h field_idx) (dex, .default) =
      some (walkedTo h field_idx dex n) := by
  induction n with
  | zero => rfl
  | succ n ih =>
    have hn : (walkedTo h field_idx dex n).1.length < 2 ^ 32 := by
      rw [length_walkedTo]
      exact hlen
    rw [foldlM_range_succ, bind_some (ih fun i hi => hfit i (by omega)),
      walkClass_eq hn (hfit n (by omega)), walkedTo_succ]

theorem walkCodeItems_panics (hlen : dex.length < 2 ^ 32)
    (hfit : ¬ ∀ i < n, ClassFits h (walkedTo h field_idx dex i).1 i) :
    (List.range n).foldlM (walkClass h field_idx) (dex, .default) = none := by
  induction n with
  | zero => exact (hfit (by simp)).elim
  | succ n ih =>
    rw [foldlM_range_succ]
    by_cases hbefore : ∀ i < n, ClassFits h (walkedTo h field_idx dex i).1 i
    · have hn : (walkedTo h field_idx dex n).1.length < 2 ^ 32 := by
        rw [length_walkedTo]
        exact hlen
      rw [bind_some (walkCodeItems_eq hlen hbefore)]
      apply walkClass_panics hn
      intro hlast
      apply hfit
      intro i hi
      rcases Nat.lt_succ_iff_lt_or_eq.mp hi with hi | rfl
      · exact hbefore i hi
      · exact hlast
    · rw [ih hbefore]
      rfl

/-! ### The checksums -/

theorem adlerFold_eq (buf : Bytes) {sums : Nat × Nat} (ha : sums.1 < MOD_ADLER)
    (hb : sums.2 < MOD_ADLER) :
    ∃ r, buf.foldlM adlerStep sums = some r ∧ r.2 < MOD_ADLER ∧
      r = buf.foldl (fun (a, b) byte =>
        let a := (a + byte.toNat) % MOD_ADLER
        (a, (b + a) % MOD_ADLER)) sums := by
  induction buf generalizing sums with
  | nil => exact ⟨sums, rfl, hb, rfl⟩
  | cons byte buf ih =>
    have hbyte := byte.toNat_lt
    have hmod : ∀ m, m % MOD_ADLER < MOD_ADLER := fun m => Nat.mod_lt m (by decide)
    have ha' := hmod (sums.1 + byte.toNat)
    unfold MOD_ADLER at ha hb ha'
    have hstep : adlerStep sums byte = some ((sums.1 + byte.toNat) % MOD_ADLER,
        (sums.2 + (sums.1 + byte.toNat) % MOD_ADLER) % MOD_ADLER) := by
      unfold adlerStep MOD_ADLER
      rw [bind_some (addU32_eq (by omega))]
      dsimp only
      rw [bind_some (addU32_eq (by omega))]
      rfl
    rw [List.foldlM_cons, bind_some hstep]
    exact ih (hmod _) (hmod _)

theorem adler32_eq (buf : Bytes) : adler32 buf = some (Dex.adler32 buf) := by
  have hone : 1 < MOD_ADLER ∧ 0 < MOD_ADLER := by decide
  obtain ⟨r, hr, hlt, heq⟩ := adlerFold_eq buf (show (1, 0).1 < MOD_ADLER from hone.1) hone.2
  have hhigh : r.2 <<< 16 < 2 ^ 32 := by
    rw [Nat.shiftLeft_eq]
    unfold MOD_ADLER at hlt
    omega
  have hshift : shlU32 r.2 16 = some (r.2 <<< 16) := by
    rw [shlU32, if_pos (by decide), u32_of_lt hhigh]
  rw [adler32, bind_some hr, bind_some hshift, heq]
  rfl

theorem slice_to_end (bs : Bytes) (off : Nat) : slice bs off (bs.length - off) = bs.drop off := by
  rw [slice]
  apply List.take_of_length_le
  rw [List.length_drop]

theorem recompute_eq (sha1 : Sha1) (hlen : 32 ≤ dex.length) :
    recomputeHeaderChecksums sha1 dex = some (Dex.recomputeHeaderChecksums sha1 dex) := by
  have hsig := (sha1 (dex.drop 32)).property
  have hfit : 12 + (sha1 (dex.drop 32)).val.length ≤ dex.length := by omega
  have hkeep := length_splice hfit
  unfold recomputeHeaderChecksums Dex.recomputeHeaderChecksums
  rw [if_neg (by omega), if_neg (by omega), bind_some (subslice_eq hlen (Nat.le_refl _)),
    slice_to_end, bind_some (writeAt_eq hfit), bind_some (subslice_eq (by omega) (Nat.le_refl _)),
    slice_to_end, bind_some (adler32_eq _),
    bind_some (writeAt_eq (by rw [length_leBytes]; omega))]
  rfl

/-! ### The whole patch -/

theorem patchDex_eq (sha1 : Sha1) (hlen : dex.length < 2 ^ 32) (hfit : ClassesFit dex) :
    patchDex sha1 dex = some (Dex.patchDex sha1 dex) := by
  unfold patchDex Dex.patchDex
  rw [bind_some (locateSdkInt_eq hlen)]
  rcases hl : Dex.locateSdkInt dex with e | _ | ⟨h, field_idx⟩
  · rfl
  · rfl
  · have hwalk : walkCodeItems h field_idx (dex, .default) =
        some (Dex.walkCodeItems h (rewriteInsns field_idx) (dex, .default)) :=
      walkCodeItems_eq hlen (hfit h field_idx hl)
    have hkeep : (Dex.walkCodeItems h (rewriteInsns field_idx) (dex, .default)).1.length =
        dex.length := length_walkedTo h field_idx dex h.class_defs_size
    have hlong := parse_length (locateSdkInt_some hl).1
    dsimp only
    rw [bind_some hwalk]
    split
    · rw [bind_some (recompute_eq sha1 (by omega))]
      rcases Dex.recomputeHeaderChecksums sha1 _ with ⟨e | _, dex'⟩
      · rfl
      · rfl
    · rfl

/-- A checked build gets through, with what the release build gives, exactly where the class loop
stays within 32 bits. -/
theorem patchDex_iff (sha1 : Sha1) (hlen : dex.length < 2 ^ 32) :
    patchDex sha1 dex = some (Dex.patchDex sha1 dex) ↔ ClassesFit dex := by
  constructor
  · intro hrun h field_idx hl
    by_contra hfit
    have hwalk : walkCodeItems h field_idx (dex, .default) = none :=
      walkCodeItems_panics hlen hfit
    unfold patchDex at hrun
    rw [bind_some (locateSdkInt_eq hlen), hl] at hrun
    dsimp only at hrun
    rw [hwalk] at hrun
    cases hrun
  · exact patchDex_eq sha1 hlen

/-- On a well-formed file no build panics. -/
theorem patchDex_wellFormed (sha1 : Sha1) (wf : WellFormed dex h) :
    patchDex sha1 dex = some (Dex.patchDex sha1 dex) :=
  patchDex_eq sha1 wf.size wf.classesFit

/-- `sampleDex` with two classes, in a table at the end of what 32 bits reach. -/
def overflowDex : Bytes := splice sampleDex 0x60 (leBytes 4 2 ++ leBytes 4 0xFFFFFFF0)

/-- The release build reads over the end of the file, and finds nothing to patch. -/
theorem overflowDex_panics : patchDex zeroSha1 overflowDex = none ∧
    (Dex.patchDex zeroSha1 overflowDex).1 = .ok ⟨0, 0⟩ := by
  constructor
  · exact Option.isNone_iff_eq_none.mp (by decide +kernel)
  · exact toOption_eq_some.mp (by decide +kernel)

theorem patchDex_iff_samples : ClassesFit sampleDex ∧ ¬ ClassesFit overflowDex := by
  constructor
  · exact (patchDex_iff zeroSha1 (by decide +kernel)).mp (by decide +kernel)
  · intro hfit
    have hrun := (patchDex_iff zeroSha1 (by decide +kernel)).mpr hfit
    rw [overflowDex_panics.1] at hrun
    cases hrun

theorem overflowDex_refutes : ¬ ∀ (sha1 : Sha1) (dex : Bytes), dex.length < 2 ^ 32 →
    patchDex sha1 dex = some (Dex.patchDex sha1 dex) := by
  intro hall
  have hrun := hall zeroSha1 overflowDex (by decide +kernel)
  rw [overflowDex_panics.1] at hrun
  cases hrun

end Aabox.Resigner.Dex.Checked
