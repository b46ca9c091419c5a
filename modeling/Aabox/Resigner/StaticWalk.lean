import Aabox.Resigner.Lookup

/-! On a well-formed file the walk visits each method's code, as the file lists it, in order. -/
namespace Aabox.Resigner.Dex
open Aabox.Lib

variable {σ α : Type} {dex : Bytes} {h : DexHeader} {f : OnInsns σ} {b : Bytes × σ} {m r : Region}
  {x : Reader String α} {n p q k off i : Nat} {cs : List Nat} {xs : List α} {rs : List Region}

/-- A closure that writes back as many bytes as it got. -/
def KeepsLength (f : OnInsns σ) : Prop := ∀ start insns s, (f start insns s).1.length = insns.length

/-! ### Reading `class_data` -/

theorem many_bounds (hx : ∀ p q a, x dex p = .ok (q, a) → p + k ≤ q ∧ q ≤ dex.length)
    (h : x.many n dex p = .ok (q, xs)) :
    p + n * k ≤ q ∧ (p ≤ dex.length → q ≤ dex.length) := by
  induction n generalizing p xs with
  | zero =>
    cases h
    exact ⟨by omega, id⟩
  | succ n ih =>
    obtain ⟨p', a, as, hxp, hmany, _⟩ := Reader.many_succ_ok.mp h
    obtain ⟨hle, hlen⟩ := hx p p' a hxp
    obtain ⟨hle', hlen'⟩ := ih hmany
    rw [Nat.succ_mul]
    exact ⟨by omega, fun _ => hlen' hlen⟩

theorem encodedField_bounds (p q a : Nat) (h : encodedField dex p = .ok (q, a)) :
    p + 2 ≤ q ∧ q ≤ dex.length := by
  obtain ⟨p₁, _, h₁, h₂⟩ := Reader.bind_eq_ok.mp h
  have := readUleb128_bounds h₁
  have := readUleb128_bounds h₂
  omega

theorem methodCode_bounds (p q a : Nat) (h : methodCode dex p = .ok (q, a)) :
    p + 3 ≤ q ∧ q ≤ dex.length := by
  obtain ⟨⟨p₁, _⟩, h₁, h⟩ := bind_eq_ok.mp h
  obtain ⟨⟨p₂, _⟩, h₂, h₃⟩ := bind_eq_ok.mp h
  have := readUleb128_bounds h₁
  have := readUleb128_bounds h₂
  have := readUleb128_bounds h₃
  omega

theorem skipFields_eq (h : encodedField.many n dex p = .ok (q, cs)) :
    skipFields dex n p = .ok q := by
  induction n generalizing p cs with
  | zero =>
    cases h
    rfl
  | succ n ih =>
    obtain ⟨p', a, as, hfield, hmany, _⟩ := Reader.many_succ_ok.mp h
    obtain ⟨p₁, v, h₁, h₂⟩ := Reader.bind_eq_ok.mp hfield
    exact bind_eq_ok.mpr ⟨(p₁, v), h₁, bind_eq_ok.mpr ⟨(p', a), h₂, ih hmany⟩⟩

/-- The counts at the head of a class, and where they end. -/
def classCounts (dex : Bytes) (class_data_off : Nat) :
    Except String (Nat × Nat × Nat × Nat × Nat) := do
  let (p, static_fields_size) ← readUleb128 dex class_data_off
  let (p, instance_fields_size) ← readUleb128 dex p
  let (p, direct_methods_size) ← readUleb128 dex p
  let (p, virtual_methods_size) ← readUleb128 dex p
  return (p, static_fields_size, instance_fields_size, direct_methods_size, virtual_methods_size)

theorem classDataMethods_counts (dex : Bytes) (class_data_off : Nat) :
    classDataMethods dex class_data_off = classCounts dex class_data_off >>= fun c =>
      skipFields dex (u32 (c.2.1 + c.2.2.1)) c.1 >>= fun p =>
        .ok (p, u32 (c.2.2.2.1 + c.2.2.2.2)) := by
  unfold classDataMethods classCounts
  simp only [bind_assoc, pure_bind]
  rfl

/-- Both lists of fields are read as one, and both of methods. -/
theorem classData_counts (h : classData dex off = .ok (q, cs)) :
    ∃ p s i d v fields p', classCounts dex off = .ok (p, s, i, d, v) ∧ off ≤ p ∧
      p ≤ dex.length ∧ Reader.many encodedField (s + i) dex p = .ok (p', fields) ∧
      Reader.many methodCode (d + v) dex p' = .ok (q, cs) := by
  obtain ⟨p₁, sf, h₁, h⟩ := Reader.bind_eq_ok.mp h
  obtain ⟨p₂, inf, h₂, h⟩ := Reader.bind_eq_ok.mp h
  obtain ⟨p₃, dm, h₃, h⟩ := Reader.bind_eq_ok.mp h
  obtain ⟨p₄, vm, h₄, h⟩ := Reader.bind_eq_ok.mp h
  obtain ⟨p₅, _, h₅, h⟩ := Reader.bind_eq_ok.mp h
  obtain ⟨p₆, _, h₆, h⟩ := Reader.bind_eq_ok.mp h
  obtain ⟨p₇, direct, h₇, h⟩ := Reader.bind_eq_ok.mp h
  obtain ⟨p₈, virtual, h₈, h⟩ := Reader.bind_eq_ok.mp h
  cases h
  have b₁ := readUleb128_bounds h₁
  have b₂ := readUleb128_bounds h₂
  have b₃ := readUleb128_bounds h₃
  have b₄ := readUleb128_bounds h₄
  refine ⟨p₄, sf, inf, dm, vm, _, p₆, ?_, by omega, by omega, Reader.many_add h₅ h₆,
    Reader.many_add h₇ h₈⟩
  refine bind_eq_ok.mpr ⟨_, h₁, bind_eq_ok.mpr ⟨_, h₂, bind_eq_ok.mpr ⟨_, h₃, ?_⟩⟩⟩
  exact bind_eq_ok.mpr ⟨_, h₄, rfl⟩

/-- The walker adds the sizes up in 32 bits and reads the two method lists as one. -/
theorem classDataMethods_eq (hlen : dex.length < 2 ^ 32) (h : classData dex off = .ok (q, cs)) :
    ∃ p total, classDataMethods dex off = .ok (p, total) ∧ off ≤ p ∧
      Reader.many methodCode total dex p = .ok (q, cs) := by
  obtain ⟨p, s, i, d, v, fields, p', hcounts, hoff, hle, hfields, hmethods⟩ := classData_counts h
  have bf := many_bounds encodedField_bounds hfields
  have bm := many_bounds methodCode_bounds hmethods
  refine ⟨p', d + v, ?_, by omega, hmethods⟩
  rw [classDataMethods_counts]
  refine bind_eq_ok.mpr ⟨_, hcounts, bind_eq_ok.mpr ⟨p', ?_, ?_⟩⟩
  · rw [u32_of_lt (show s + i < 2 ^ 32 by omega)]
    exact skipFields_eq hfields
  · rw [u32_of_lt (show d + v < 2 ^ 32 by omega)]

/-! ### Visits -/

section
variable (wf : WellFormed dex h) (hf : KeepsLength f)
include wf

theorem WellFormed.insnsRange_item {code_off : Nat} (hm : code_off ∈ codeItems dex h) :
    insnsRange dex code_off = .ok (codeRange dex code_off) := by
  obtain ⟨r, hr⟩ := Option.isSome_iff_exists.mp (wf.code_inside code_off hm)
  rw [codeRange, hr]
  exact toOption_eq_some.mp hr

theorem WellFormed.range_inside (hr : r ∈ codeRanges dex h) : r.1 + r.2 ≤ dex.length := by
  obtain ⟨code_off, hm, rfl⟩ := List.mem_map.mp hr
  obtain ⟨size, _, heq, hb⟩ := insnsRange_ok (wf.insnsRange_item hm)
  rw [heq]
  exact hb

/-- The data of a class reads the same, whatever visits have rewritten. -/
theorem WellFormed.classData_eq {d : Bytes} (hi : i < h.class_defs_size)
    (hoff : readU32 dex (h.class_defs_off + i * 32 + 24) = .ok off) (h0 : off ≠ 0)
    (hc : EqOff (Writable dex h) dex d) :
    ∃ stop code_offs, classCode dex h i = code_offs.filter (· ≠ 0) ∧
      (off, stop - off) ∈ structuralRegions dex h ∧ off ≤ stop ∧
      classData d off = .ok (stop, code_offs) := by
  obtain ⟨⟨m, cs⟩, hs⟩ := Option.isSome_iff_exists.mp (wf.classes_inside i hi)
  obtain ⟨off', hoff', hrest⟩ := bind_eq_ok.mp (toOption_eq_some.mp hs)
  cases hoff.symm.trans hoff'
  rw [if_neg h0] at hrest
  obtain ⟨⟨stop, code_offs⟩, hdata, hrest⟩ := bind_eq_ok.mp hrest
  cases hrest
  have hcode : classCode dex h i = code_offs.filter (· ≠ 0) := by
    rw [classCode, hs]
    rfl
  have hregion : classRegion dex h i = (off, stop - off) := by
    rw [classRegion, hs]
    rfl
  have hm : (off, stop - off) ∈ structuralRegions dex h := by
    rw [← hregion]
    simp only [structuralRegions, List.mem_append, List.mem_map, List.mem_range]
    exact .inl (.inr ⟨i, hi, rfl⟩)
  obtain ⟨hle, hlocal⟩ := classData_local _ _ _ _ hdata
  refine ⟨stop, code_offs, hcode, hm, hle, ?_⟩
  exact hlocal d (fun j hj hjq => wf.agree hc hm ⟨hj, by dsimp only; omega⟩)

include hf

theorem WellFormed.visit_eqOff (hr : r ∈ codeRanges dex h)
    (hc : EqOff (Writable dex h) dex b.1) : EqOff (Writable dex h) dex (visit f r b).1 := by
  have hin := wf.range_inside hr
  have hlen : (f r.1 (slice b.1 r.1 r.2) b.2).1.length = r.2 := by
    rw [hf, length_slice (by rw [hc.length]; exact hin)]
  apply hc.splice
  · rw [hlen, hc.length]
    exact hin
  · intro p hp hq
    rw [hlen] at hq
    exact .inl ⟨r, hr, hp, hq⟩

theorem WellFormed.foldl_eqOff (hrs : ∀ r ∈ rs, r ∈ codeRanges dex h)
    (hc : EqOff (Writable dex h) dex b.1) :
    EqOff (Writable dex h) dex (rs.foldl (fun b r => visit f r b) b).1 := by
  induction rs generalizing b with
  | nil => exact hc
  | cons r rs ih =>
    apply ih (fun r' hr' => hrs r' (List.mem_cons_of_mem _ hr'))
    exact wf.visit_eqOff hf (hrs r (List.mem_cons_self ..)) hc

/-- The walk over the rest of a class, whatever earlier visits have rewritten. -/
theorem WellFormed.walkMethods_eq (hm : m ∈ structuralRegions dex h) (hlo : m.1 ≤ p)
    (hhi : q ≤ m.1 + m.2) (hcs : Reader.many methodCode n dex p = .ok (q, cs))
    (hitems : ∀ c ∈ cs.filter (· ≠ 0), c ∈ codeItems dex h)
    (hc : EqOff (Writable dex h) dex b.1) :
    (walkMethods f n p k b).2 =
      ((cs.filter (· ≠ 0)).map (codeRange dex)).foldl (fun b r => visit f r b) b := by
  induction n generalizing p k b cs with
  | zero =>
    cases hcs
    rfl
  | succ n ih =>
    obtain ⟨p', c, cs', hcode, hmany, rfl⟩ := Reader.many_succ_ok.mp hcs
    obtain ⟨hle, hlocal⟩ := methodCode_local _ _ _ _ hcode
    have hle' := ((methodCode_local.many n) _ _ _ _ hmany).1
    have hcur : methodCode b.1 p = .ok (p', c) :=
      hlocal b.1 (fun j hj hjq => wf.agree hc hm ⟨by omega, by omega⟩)
    rw [walkMethods, hcur]
    dsimp only
    by_cases h0 : c = 0
    · have hfilter : (c :: cs').filter (· ≠ 0) = cs'.filter (· ≠ 0) := by simp [h0]
      rw [hfilter] at hitems ⊢
      rw [if_pos h0]
      exact ih (by omega) hmany hitems hc
    · have hfilter : (c :: cs').filter (· ≠ 0) = c :: cs'.filter (· ≠ 0) := by simp [h0]
      rw [hfilter] at hitems ⊢
      have hmem : c ∈ codeItems dex h := hitems c (List.mem_cons_self ..)
      have hrange := wf.insnsRange_item hmem
      rw [if_neg h0, wf.insnsRange_eq hc hmem, hrange]
      dsimp only
      have hvisit := wf.visit_eqOff hf (List.mem_map_of_mem (f := codeRange dex) hmem) hc
      exact ih (by omega) hmany (fun c' hc' => hitems c' (List.mem_cons_of_mem _ hc')) hvisit

theorem WellFormed.walkClass_eq (hi : i < h.class_defs_size)
    (hc : EqOff (Writable dex h) dex b.1) :
    walkClass h f b i = ((classCode dex h i).map (codeRange dex)).foldl (fun b r => visit f r b) b := by
  obtain ⟨⟨m, cs⟩, hs⟩ := Option.isSome_iff_exists.mp (wf.classes_inside i hi)
  have hcode : classCode dex h i = cs := by
    rw [classCode, hs]
    rfl
  obtain ⟨off, hoff, hrest⟩ := bind_eq_ok.mp (toOption_eq_some.mp hs)
  have htable := wf.table_inside (m := (h.class_defs_off, h.class_defs_size * 32))
    (by simp [tables]) (i * 32) 32 (by dsimp only; omega)
  dsimp only at htable
  rw [walkClass, u32_of_lt (by omega), wf.readClass_eq hc hi, hoff]
  dsimp only
  by_cases h0 : off = 0
  · rw [if_pos h0] at hrest ⊢
    cases hrest
    rw [hcode]
    rfl
  · obtain ⟨stop, code_offs, hfilter, hm, hle, hcur⟩ := wf.classData_eq hi hoff h0 hc
    obtain ⟨p, total, hmethods, hlo, hmany⟩ :=
      classDataMethods_eq (by rw [hc.length]; exact wf.size) hcur
    have hmany' : Reader.many methodCode total dex p = .ok (stop, code_offs) :=
      ((methodCode_local.many total) _ _ _ _ hmany).2 dex
        (fun j hj hjq => (wf.agree hc hm ⟨by dsimp only; omega, by dsimp only; omega⟩).symm)
    rw [if_neg h0, walkOneClassData, hmethods, hfilter]
    apply wf.walkMethods_eq hf hm hlo (by dsimp only; omega) hmany' _ hc
    intro c hmem
    simp only [codeItems, List.mem_flatMap, List.mem_range]
    exact ⟨i, hi, by rw [hfilter]; exact hmem⟩

/-- The walk is a run through the code ranges of the file. -/
theorem WellFormed.walkCodeItems_eq (hc : EqOff (Writable dex h) dex b.1) :
    walkCodeItems h f b = (codeRanges dex h).foldl (fun b r => visit f r b) b := by
  have hrun : ∀ is : List Nat, (∀ i ∈ is, i < h.class_defs_size) → ∀ b : Bytes × σ,
      EqOff (Writable dex h) dex b.1 → is.foldl (walkClass h f) b =
        ((is.flatMap (classCode dex h)).map (codeRange dex)).foldl (fun b r => visit f r b) b := by
    intro is
    induction is with
    | nil => intro _ _ _; rfl
    | cons i is ih =>
      intro his b hb
      have hi := his i (List.mem_cons_self ..)
      rw [List.foldl_cons, wf.walkClass_eq hf hi hb, List.flatMap_cons, List.map_append,
        List.foldl_append]
      apply ih (fun j hj => his j (List.mem_cons_of_mem _ hj))
      apply wf.foldl_eqOff hf _ hb
      intro r hr
      obtain ⟨c, hcm, rfl⟩ := List.mem_map.mp hr
      apply List.mem_map_of_mem
      simp only [codeItems, List.mem_flatMap, List.mem_range]
      exact ⟨i, hi, hcm⟩
  exact hrun _ (fun i hi => List.mem_range.mp hi) b hc

end

end Aabox.Resigner.Dex
