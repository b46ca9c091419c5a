import Aabox.Resigner.Atomic
import Aabox.Resigner.Layout

/-! Rewriting the code and the checksums of a well-formed file leaves what it says alone. -/
namespace Aabox.Resigner.Dex
open Aabox.Lib

variable {d d' dex cur s : Bytes} {h : DexHeader} {m r : Region} {p q i n off v : Nat}

/-- The places a patch may write to. -/
def Writable (dex : Bytes) (h : DexHeader) (p : Nat) : Prop :=
  (∃ r ∈ codeRanges dex h, r.Has p) ∨ ChecksumField p

theorem Apart.not_has (ha : Apart m r) (hm : m.Has p) : ¬ r.Has p := by
  unfold Apart at ha
  unfold Region.Has at hm ⊢
  omega

/-! ### Readers -/

theorem readU16_congr (hl : d'.length = d.length)
    (hd : ∀ p, off ≤ p → p < off + 2 → d'[p]? = d[p]?) : readU16 d' off = readU16 d off := by
  rw [readU16, readU16, hl, slice_congr hd]

theorem readU32_congr (hl : d'.length = d.length)
    (hd : ∀ p, off ≤ p → p < off + 4 → d'[p]? = d[p]?) : readU32 d' off = readU32 d off := by
  rw [readU32, readU32, hl, slice_congr hd]

theorem ulebLoop_local {shift result : Nat} (hr : ulebLoop d off n p shift result = .ok (q, v)) :
    p < q ∧ q ≤ d.length ∧ ∀ d', (∀ i, p ≤ i → i < q → d'[i]? = d[i]?) →
      ulebLoop d' off n p shift result = .ok (q, v) := by
  induction n generalizing p shift result with
  | zero => cases hr
  | succ n ih =>
    unfold ulebLoop at hr ⊢
    cases hb : d[p]? with
    | none =>
      rw [hb] at hr
      cases hr
    | some byte =>
      rw [hb] at hr
      have hp : p < d.length := (List.getElem?_eq_some_iff.mp hb).1
      dsimp only at hr
      by_cases hlast : byte &&& 0x80 = 0
      · rw [if_pos hlast] at hr
        cases hr
        refine ⟨by omega, by omega, fun d' hd => ?_⟩
        rw [hd p (by omega) (by omega), hb]
        exact if_pos hlast
      · rw [if_neg hlast] at hr
        obtain ⟨hlt, hle, hd'⟩ := ih hr
        refine ⟨by omega, hle, fun d' hd => ?_⟩
        rw [hd p (by omega) (by omega), hb]
        dsimp only
        rw [if_neg hlast]
        exact hd' d' (fun i hi hiq => hd i (by omega) hiq)

theorem readUleb128_local : Reader.Local readUleb128 := by
  intro d p q v hr
  obtain ⟨hlt, _, hd⟩ := ulebLoop_local hr
  exact ⟨Nat.le_of_lt hlt, hd⟩

theorem readUleb128_bounds (hr : readUleb128 d p = .ok (q, v)) : p < q ∧ q ≤ d.length := by
  obtain ⟨hlt, hle, _⟩ := ulebLoop_local hr
  exact ⟨hlt, hle⟩

theorem encodedField_local : encodedField.Local :=
  readUleb128_local.bind fun _ => readUleb128_local

theorem methodCode_local : Reader.Local methodCode := by
  have heq : methodCode =
      Reader.bind readUleb128 fun _ => Reader.bind readUleb128 fun _ => readUleb128 := rfl
  rw [heq]
  exact readUleb128_local.bind fun _ => readUleb128_local.bind fun _ => readUleb128_local

theorem classData_local : classData.Local :=
  readUleb128_local.bind fun _ => readUleb128_local.bind fun _ =>
  readUleb128_local.bind fun _ => readUleb128_local.bind fun _ =>
  (encodedField_local.many _).bind fun _ => (encodedField_local.many _).bind fun _ =>
  (methodCode_local.many _).bind fun _ => (methodCode_local.many _).bind fun _ => .pure _

/-! ### Strings -/

theorem cstring_eq_some (bs s : Bytes) :
    cstring bs = some s ↔ bs.take s.length = s ∧ bs[s.length]? = some 0 ∧ 0 ∉ s := by
  induction bs generalizing s with
  | nil => simp [cstring]
  | cons b bs ih =>
    unfold cstring
    by_cases hb : b = 0
    · rw [if_pos hb]
      constructor
      · intro h
        cases h
        simp [hb]
      · rintro ⟨htake, _, hs⟩
        cases s with
        | nil => rfl
        | cons c s =>
          rw [List.length_cons, List.take_succ_cons] at htake
          obtain ⟨rfl, _⟩ := List.cons.inj htake
          exact (hs (by simp [hb])).elim
    · rw [if_neg hb, Option.map_eq_some_iff]
      constructor
      · rintro ⟨s, hs, rfl⟩
        obtain ⟨htake, hend, hz⟩ := (ih s).mp hs
        refine ⟨by rw [List.length_cons, List.take_succ_cons, htake], by simpa using hend, ?_⟩
        rintro (_ | ⟨_, hmem⟩)
        · exact hb rfl
        · exact hz hmem
      · rintro ⟨htake, hend, hz⟩
        cases s with
        | nil =>
          have : b = 0 := by simpa using hend
          exact (hb this).elim
        | cons c s =>
          rw [List.length_cons, List.take_succ_cons] at htake
          obtain rfl := (List.cons.inj htake).1
          have htake' := (List.cons.inj htake).2
          refine ⟨s, (ih s).mpr ⟨htake', by simpa using hend, fun hmem => hz ?_⟩, rfl⟩
          exact List.mem_cons_of_mem _ hmem

theorem cstring_drop_congr (hs : cstring (d.drop off) = some s)
    (hd : ∀ p, off ≤ p → p < off + s.length + 1 → d'[p]? = d[p]?) :
    cstring (d'.drop off) = some s := by
  obtain ⟨htake, hend, hz⟩ := (cstring_eq_some _ _).mp hs
  apply (cstring_eq_some _ _).mpr
  refine ⟨?_, ?_, hz⟩
  · have := slice_congr (n := s.length) (fun p hp hq => hd p hp (by omega))
    unfold slice at this
    rw [this]
    exact htake
  · rw [List.getElem?_drop] at hend ⊢
    rw [hd _ (by omega) (by omega)]
    exact hend

theorem stringItem_eq_some : stringItem dex h i = some (m, s) ↔
    i < h.string_ids_size ∧ ∃ off start v, readU32 dex (h.string_ids_off + i * 4) = .ok off ∧
      readUleb128 dex off = .ok (start, v) ∧ cstring (dex.drop start) = some s ∧
      m = (off, start + s.length + 1 - off) := by
  unfold stringItem
  by_cases hi : i < h.string_ids_size
  · rw [if_pos hi]
    constructor
    · intro hs
      obtain ⟨off, hoff, hs⟩ := Option.bind_eq_some_iff.mp hs
      obtain ⟨⟨start, v⟩, hstart, hs⟩ := Option.bind_eq_some_iff.mp hs
      obtain ⟨s', hs', hs⟩ := Option.bind_eq_some_iff.mp hs
      cases hs
      exact ⟨hi, off, start, v, toOption_eq_some.mp hoff, toOption_eq_some.mp hstart, hs', rfl⟩
    · rintro ⟨_, off, start, v, hoff, hstart, hs, rfl⟩
      apply Option.bind_eq_some_iff.mpr
      refine ⟨off, toOption_eq_some.mpr hoff, Option.bind_eq_some_iff.mpr ?_⟩
      refine ⟨(start, v), toOption_eq_some.mpr hstart, Option.bind_eq_some_iff.mpr ?_⟩
      exact ⟨s, hs, rfl⟩
  · rw [if_neg hi]
    constructor
    · intro hc
      cases hc
    · exact fun hc => (hi hc.1).elim

/-! ### What a patch leaves alone -/

theorem mem_structuralRegions_table (hm : m ∈ tables h) : m ∈ structuralRegions dex h := by
  simp [structuralRegions, hm]

section
variable (wf : WellFormed dex h) (hc : EqOff (Writable dex h) dex cur)
include wf

theorem WellFormed.not_writable (hm : m ∈ structuralRegions dex h) (hp : m.Has p) :
    ¬ Writable dex h p := by
  rintro (⟨r, hr, hrp⟩ | hcheck)
  · exact (wf.structure_apart m hm r hr).not_has hp hrp
  · refine (wf.checksum_apart m (List.mem_append_left _ hm)).not_has hp ?_
    exact hcheck

include hc

theorem WellFormed.agree (hm : m ∈ structuralRegions dex h) (hp : m.Has p) : cur[p]? = dex[p]? :=
  hc.get p (wf.not_writable hm hp)

theorem WellFormed.readU16_eq (hm : m ∈ structuralRegions dex h) (hlo : m.1 ≤ off)
    (hhi : off + 2 ≤ m.1 + m.2) : readU16 cur off = readU16 dex off :=
  readU16_congr hc.length (fun _ hp hq => wf.agree hc hm ⟨by omega, by omega⟩)

theorem WellFormed.readU32_eq (hm : m ∈ structuralRegions dex h) (hlo : m.1 ≤ off)
    (hhi : off + 4 ≤ m.1 + m.2) : readU32 cur off = readU32 dex off :=
  readU32_congr hc.length (fun _ hp hq => wf.agree hc hm ⟨by omega, by omega⟩)

theorem WellFormed.parse_eq : DexHeader.parse cur = DexHeader.parse dex := by
  have hread : ∀ off, 32 ≤ off → off + 4 ≤ 112 → readU32 cur off = readU32 dex off := by
    intro off hlo hhi
    exact wf.readU32_eq hc (m := (32, 0x50)) (by simp [structuralRegions]) hlo hhi
  have hmagic : slice cur 0 4 = slice dex 0 4 := by
    apply slice_congr
    intro p _ hq
    exact wf.agree hc (m := (0, 8)) (by simp [structuralRegions]) ⟨by omega, by omega⟩
  unfold DexHeader.parse
  rw [hc.length, hmagic, hread 0x28 (by omega) (by omega), hread 0x38 (by omega) (by omega),
    hread 0x3c (by omega) (by omega), hread 0x40 (by omega) (by omega),
    hread 0x44 (by omega) (by omega), hread 0x50 (by omega) (by omega),
    hread 0x54 (by omega) (by omega), hread 0x60 (by omega) (by omega),
    hread 0x64 (by omega) (by omega)]

theorem WellFormed.stringItem_eq (i : Nat) : stringItem cur h i = stringItem dex h i := by
  by_cases hi : i < h.string_ids_size
  · obtain ⟨⟨m, s⟩, hs⟩ := Option.isSome_iff_exists.mp (wf.strings_inside i hi)
    rw [hs]
    obtain ⟨_, off, start, v, hoff, hstart, hstr, rfl⟩ := stringItem_eq_some.mp hs
    have hm : (off, start + s.length + 1 - off) ∈ structuralRegions dex h := by
      have : stringRegion dex h i = (off, start + s.length + 1 - off) := by
        rw [stringRegion, hs]
        rfl
      rw [← this]
      simp only [structuralRegions, List.mem_append, List.mem_map, List.mem_range]
      exact .inl (.inl (.inr ⟨i, hi, rfl⟩))
    have hlt := (readUleb128_bounds hstart).1
    refine stringItem_eq_some.mpr ⟨hi, off, start, v, ?_, ?_, ?_, rfl⟩
    · rw [← hoff]
      refine wf.readU32_eq hc (m := (h.string_ids_off, h.string_ids_size * 4))
        (mem_structuralRegions_table (by simp [tables])) ?_ ?_
      · dsimp only
        omega
      · dsimp only
        omega
    · exact (readUleb128_local _ _ _ _ hstart).2 cur
        (fun p hp hq => wf.agree hc hm ⟨hp, by dsimp only; omega⟩)
    · exact cstring_drop_congr hstr
        (fun p hp hq => wf.agree hc hm ⟨by dsimp only; omega, by dsimp only; omega⟩)
  · rw [stringItem, stringItem, if_neg hi, if_neg hi]

theorem WellFormed.stringName_eq (i : Nat) : stringName cur h i = stringName dex h i := by
  rw [stringName, stringName, wf.stringItem_eq hc]

theorem WellFormed.readType_eq (hi : i < h.type_ids_size) :
    readU32 cur (h.type_ids_off + i * 4) = readU32 dex (h.type_ids_off + i * 4) := by
  refine wf.readU32_eq hc (m := (h.type_ids_off, h.type_ids_size * 4))
    (mem_structuralRegions_table (by simp [tables])) ?_ ?_
  · dsimp only
    omega
  · dsimp only
    omega

theorem WellFormed.typeDescriptor_eq (i : Nat) :
    typeDescriptor cur h i = typeDescriptor dex h i := by
  unfold typeDescriptor
  split
  · rw [wf.readType_eq hc ‹_›]
  · rfl

theorem WellFormed.typeName_eq (i : Nat) : typeName cur h i = typeName dex h i := by
  have hname : stringName cur h = stringName dex h := funext (wf.stringName_eq hc)
  rw [typeName, typeName, wf.typeDescriptor_eq hc, hname]

theorem WellFormed.readField_eq (hi : i < h.field_ids_size) :
    readU16 cur (h.field_ids_off + i * 8) = readU16 dex (h.field_ids_off + i * 8) ∧
    readU16 cur (h.field_ids_off + i * 8 + 2) = readU16 dex (h.field_ids_off + i * 8 + 2) ∧
    readU32 cur (h.field_ids_off + i * 8 + 4) = readU32 dex (h.field_ids_off + i * 8 + 4) := by
  have hm : (h.field_ids_off, h.field_ids_size * 8) ∈ structuralRegions dex h :=
    mem_structuralRegions_table (by simp [tables])
  refine ⟨wf.readU16_eq hc hm ?_ ?_, wf.readU16_eq hc hm ?_ ?_, wf.readU32_eq hc hm ?_ ?_⟩
  all_goals
    dsimp only
    omega

theorem WellFormed.fieldItem_eq (i : Nat) : fieldItem cur h i = fieldItem dex h i := by
  unfold fieldItem
  split
  · obtain ⟨h₁, h₂, h₃⟩ := wf.readField_eq hc ‹_›
    rw [h₁, h₂, h₃]
  · rfl

theorem WellFormed.namesSdkInt_iff (f : Nat) : NamesSdkInt cur h f ↔ NamesSdkInt dex h f := by
  unfold NamesSdkInt
  simp only [wf.fieldItem_eq hc, wf.typeName_eq hc, wf.stringName_eq hc]

/-! ### The methods are where they were -/

theorem WellFormed.readClass_eq (hi : i < h.class_defs_size) :
    readU32 cur (h.class_defs_off + i * 32 + 24) =
      readU32 dex (h.class_defs_off + i * 32 + 24) := by
  refine wf.readU32_eq hc (m := (h.class_defs_off, h.class_defs_size * 32))
    (mem_structuralRegions_table (by simp [tables])) ?_ ?_
  · dsimp only
    omega
  · dsimp only
    omega

theorem WellFormed.classItem_eq (hi : i < h.class_defs_size) :
    classItem cur h i = classItem dex h i := by
  obtain ⟨⟨m, cs⟩, hs⟩ := Option.isSome_iff_exists.mp (wf.classes_inside i hi)
  have hitem := toOption_eq_some.mp hs
  obtain ⟨off, hoff, hrest⟩ := bind_eq_ok.mp hitem
  rw [hitem, classItem, wf.readClass_eq hc hi, hoff]
  refine bind_eq_ok.mpr ⟨off, rfl, ?_⟩
  by_cases h0 : off = 0
  · rw [if_pos h0] at hrest ⊢
    exact hrest
  · rw [if_neg h0] at hrest ⊢
    obtain ⟨⟨stop, code_offs⟩, hdata, hrest⟩ := bind_eq_ok.mp hrest
    cases hrest
    have hm : (off, stop - off) ∈ structuralRegions dex h := by
      have : classRegion dex h i = (off, stop - off) := by
        rw [classRegion, hs]
        rfl
      rw [← this]
      simp only [structuralRegions, List.mem_append, List.mem_map, List.mem_range]
      exact .inl (.inr ⟨i, hi, rfl⟩)
    refine bind_eq_ok.mpr ⟨(stop, code_offs), ?_, rfl⟩
    exact (classData_local _ _ _ _ hdata).2 cur
      (fun p hp hq => wf.agree hc hm ⟨hp, by dsimp only; omega⟩)

theorem WellFormed.insnsRange_eq {code_off : Nat} (hm : code_off ∈ codeItems dex h) :
    insnsRange cur code_off = insnsRange dex code_off := by
  have hread : readU32 cur (code_off + 12) = readU32 dex (code_off + 12) := by
    refine wf.readU32_eq hc (m := (code_off, 16)) ?_ (by dsimp only; omega) (by dsimp only; omega)
    simp only [structuralRegions, List.mem_append, List.mem_map]
    exact .inr ⟨code_off, hm, rfl⟩
  rw [insnsRange, insnsRange, hread, hc.length]

theorem WellFormed.codeItems_eq : codeItems cur h = codeItems dex h := by
  apply List.flatMap_congr
  intro i hi
  rw [classCode, classCode, wf.classItem_eq hc (List.mem_range.mp hi)]

theorem WellFormed.codeRanges_eq : codeRanges cur h = codeRanges dex h := by
  unfold codeRanges
  rw [wf.codeItems_eq hc]
  apply List.map_congr_left
  intro code_off hm
  rw [codeRange, codeRange, wf.insnsRange_eq hc hm]

theorem WellFormed.structuralRegions_eq : structuralRegions cur h = structuralRegions dex h := by
  have hstrings : stringRegion cur h = stringRegion dex h := by
    funext i
    rw [stringRegion, stringRegion, wf.stringItem_eq hc]
  have hclasses : (List.range h.class_defs_size).map (classRegion cur h) =
      (List.range h.class_defs_size).map (classRegion dex h) := by
    apply List.map_congr_left
    intro i hi
    rw [classRegion, classRegion, wf.classItem_eq hc (List.mem_range.mp hi)]
  rw [structuralRegions, structuralRegions, hstrings, hclasses, wf.codeItems_eq hc]

theorem WellFormed.patched : WellFormed cur h := by
  have hranges := wf.codeRanges_eq hc
  have hitems := wf.codeItems_eq hc
  constructor
  · rw [wf.parse_eq hc]
    exact wf.parsed
  · rw [hc.length]
    exact wf.size
  · rw [hc.length]
    exact wf.tables_inside
  · intro i hi
    rw [wf.stringItem_eq hc]
    exact wf.strings_inside i hi
  · intro i hi
    rw [wf.classItem_eq hc hi]
    exact wf.classes_inside i hi
  · intro code_off hm
    rw [hitems] at hm
    rw [wf.insnsRange_eq hc hm]
    exact wf.code_inside code_off hm
  · simp only [wf.stringName_eq hc]
    exact wf.string_unique
  · simp only [wf.typeDescriptor_eq hc]
    exact wf.type_unique
  · simp only [wf.fieldItem_eq hc]
    exact wf.field_unique
  · rw [hranges]
    exact wf.code_apart
  · rw [hranges, wf.structuralRegions_eq hc]
    exact wf.structure_apart
  · rw [hranges, wf.structuralRegions_eq hc]
    exact wf.checksum_apart

end

end Aabox.Resigner.Dex
