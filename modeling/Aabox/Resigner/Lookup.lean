import Aabox.Resigner.Frame

/-! The lookups find the field that the file's tables name, and no other. -/
namespace Aabox.Resigner.Dex
open Aabox.Lib

variable {α : Type} [DecidableEq α] {isIt : Nat → Except String Bool}
  {a x : α} {dex s needle : Bytes} {h : DexHeader} {m : Region}
  {n i j f descriptor class_idx type_idx name_idx : Nat}

/-! ### The search -/

theorem findEntry_some (hf : findEntry isIt n i = .ok (some j)) :
    i ≤ j ∧ j < i + n ∧ isIt j = .ok true := by
  induction n generalizing i with
  | zero => cases hf
  | succ n ih =>
    unfold findEntry at hf
    rcases hi : isIt i with e | _ | _
    · rw [hi] at hf
      cases hf
    · rw [hi] at hf
      obtain ⟨hle, hlt, hj⟩ := ih hf
      exact ⟨by omega, by omega, hj⟩
    · rw [hi] at hf
      cases hf
      exact ⟨Nat.le_refl _, by omega, hi⟩

theorem findEntry_found (hle : i ≤ j) (hlt : j < i + n) (hj : isIt j = .ok true)
    (hother : ∀ k, i ≤ k → k < j → isIt k = .ok false) :
    findEntry isIt n i = .ok (some j) := by
  induction n generalizing i with
  | zero => omega
  | succ n ih =>
    unfold findEntry
    rcases Nat.eq_or_lt_of_le hle with rfl | hij
    · rw [hj]
    · rw [hother i (Nat.le_refl _) hij]
      exact ih hij (by omega) (fun k hk hkj => hother k (by omega) hkj)

/-- Over a table without duplicates, the search inverts the table. -/
theorem findEntry_iff (item : Nat → Option α)
    (hit : ∀ i < n, ∃ a, item i = some a ∧ isIt i = .ok (decide (a = x)))
    (hunique : ∀ i < n, ∀ j < n, item i = item j → i = j) (hout : ∀ i, n ≤ i → item i = none) :
    findEntry isIt n 0 = .ok (some j) ↔ item j = some x := by
  constructor
  · intro hf
    obtain ⟨_, hlt, hj⟩ := findEntry_some hf
    obtain ⟨a, ha, ht⟩ := hit j (by omega)
    rw [hj] at ht
    rw [ha, of_decide_eq_true (Except.ok.inj ht).symm]
  · intro hx
    have hlt : j < n := by
      by_contra hge
      rw [hout j (by omega)] at hx
      cases hx
    have hij : ∀ k < n, item k = some x → k = j :=
      fun k hk hkx => hunique k hk j hlt (hkx.trans hx.symm)
    refine findEntry_found (Nat.zero_le _) (by omega) ?_ ?_
    · obtain ⟨a, ha, ht⟩ := hit j hlt
      obtain rfl : a = x := Option.some.inj (ha.symm.trans hx)
      rw [ht, decide_eq_true rfl]
    · intro k _ hkj
      obtain ⟨a, ha, ht⟩ := hit k (by omega)
      rw [ht, decide_eq_false]
      rintro rfl
      have := hij k (by omega) ha
      omega

/-! ### The three tables -/

theorem u32_of_lt (hn : n < 2 ^ 32) : u32 n = n := Nat.mod_eq_of_lt hn

theorem readU16_ok (hn : n + 2 ≤ dex.length) : readU16 dex n = .ok (leValue (slice dex n 2)) :=
  if_neg (by omega)

theorem readU32_ok (hn : n + 4 ≤ dex.length) : readU32 dex n = .ok (leValue (slice dex n 4)) :=
  if_neg (by omega)

theorem isString_eq (hoff : h.string_ids_off + i * 4 < 2 ^ 32)
    (hs : stringItem dex h i = some (m, s)) (hz : 0 ∉ needle) :
    isString dex h needle i = .ok (decide (s = needle)) := by
  obtain ⟨_, off, start, v, hread, hstart, hstr, _⟩ := stringItem_eq_some.mp hs
  rw [isString, u32_of_lt hoff, hread]
  change (readUleb128 dex off >>= _) = _
  rw [hstart]
  obtain ⟨htake, hend, hz'⟩ := (cstring_eq_some _ _).mp hstr
  rw [List.getElem?_drop] at hend
  have hfit := (List.getElem?_eq_some_iff.mp hend).1
  -- the bytes at the string's place are the needle's just when the string is
  have hiff : (slice dex start needle.length = needle ∧ dex[start + needle.length]? = some 0) ↔
      s = needle := by
    constructor
    · rintro ⟨hslice, hterm⟩
      have hneedle : cstring (dex.drop start) = some needle :=
        (cstring_eq_some _ _).mpr ⟨hslice, by rw [List.getElem?_drop]; exact hterm, hz⟩
      exact Option.some.inj (hstr.symm.trans hneedle)
    · rintro rfl
      exact ⟨htake, hend⟩
  change (if dex.length < start + needle.length then pure false
    else pure (decide _) : Except String Bool) = _
  split
  · rw [decide_eq_false]
    · rfl
    · rintro rfl
      omega
  · exact congrArg Except.ok (decide_eq_decide.mpr hiff)

theorem isType_eq (hoff : h.type_ids_off + i * 4 < 2 ^ 32)
    (ht : typeDescriptor dex h i = some n) :
    isType dex h descriptor i = .ok (decide (n = descriptor)) := by
  unfold typeDescriptor at ht
  split at ht
  · rw [isType, u32_of_lt hoff, toOption_eq_some.mp ht]
    rfl
  · cases ht

theorem isField_eq {id id' : Nat × Nat × Nat} (hoff : h.field_ids_off + i * 8 < 2 ^ 32)
    (hf : fieldItem dex h i = some id) : isField dex h id' i = .ok (decide (id = id')) := by
  unfold fieldItem at hf
  split at hf
  · obtain ⟨c, hclass, hf⟩ := Option.bind_eq_some_iff.mp hf
    obtain ⟨t, htype, hf⟩ := Option.bind_eq_some_iff.mp hf
    obtain ⟨n, hname, hf⟩ := Option.bind_eq_some_iff.mp hf
    cases hf
    have hid : fieldId dex h i = .ok (c, t, n) := by
      rw [fieldId, u32_of_lt hoff, toOption_eq_some.mp hclass, toOption_eq_some.mp htype,
        toOption_eq_some.mp hname]
      rfl
    rw [isField, hid]
    rfl
  · cases hf

section
variable (wf : WellFormed dex h)
include wf

theorem WellFormed.table_inside (hm : m ∈ tables h) (k w : Nat) (hk : k + w ≤ m.2) :
    m.1 + k + w ≤ dex.length ∧ m.1 + k + w < 2 ^ 32 := by
  have hin := wf.tables_inside m hm
  have hsize := wf.size
  omega

theorem WellFormed.findStringIdx_iff (hz : 0 ∉ needle) :
    findStringIdx dex h needle = .ok (some j) ↔ stringName dex h j = some needle := by
  apply findEntry_iff (stringName dex h)
  · intro i hi
    obtain ⟨⟨m, s⟩, hs⟩ := Option.isSome_iff_exists.mp (wf.strings_inside i hi)
    have hin := wf.table_inside (m := (h.string_ids_off, h.string_ids_size * 4))
      (by simp [tables]) (i * 4) 4 (by dsimp only; omega)
    refine ⟨s, by rw [stringName, hs]; rfl, isString_eq ?_ hs hz⟩
    dsimp only at hin
    omega
  · exact wf.string_unique
  · intro i hi
    rw [stringName, stringItem, if_neg (by omega)]
    rfl

theorem WellFormed.findTypeIdx_iff :
    findTypeIdx dex h descriptor = .ok (some j) ↔ typeDescriptor dex h j = some descriptor := by
  apply findEntry_iff (typeDescriptor dex h)
  · intro i hi
    have hin := wf.table_inside (m := (h.type_ids_off, h.type_ids_size * 4))
      (by simp [tables]) (i * 4) 4 (by dsimp only; omega)
    dsimp only at hin
    have ht : typeDescriptor dex h i = some (leValue (slice dex (h.type_ids_off + i * 4) 4)) := by
      rw [typeDescriptor, if_pos hi, readU32_ok (by omega)]
      rfl
    exact ⟨_, ht, isType_eq (by omega) ht⟩
  · exact wf.type_unique
  · intro i hi
    rw [typeDescriptor, if_neg (by omega)]

theorem WellFormed.findFieldIdx_iff (hc : class_idx ≤ 0xffff) (ht : type_idx ≤ 0xffff) :
    findFieldIdx dex h class_idx name_idx type_idx = .ok (some j) ↔
      fieldItem dex h j = some (class_idx, type_idx, name_idx) := by
  rw [findFieldIdx, if_neg (by omega)]
  apply findEntry_iff (fieldItem dex h)
  · intro i hi
    have hin := wf.table_inside (m := (h.field_ids_off, h.field_ids_size * 8))
      (by simp [tables]) (i * 8) 8 (by dsimp only; omega)
    dsimp only at hin
    have hf : ∃ id, fieldItem dex h i = some id := by
      rw [fieldItem, if_pos hi, readU16_ok (by omega), readU16_ok (by omega),
        readU32_ok (by omega)]
      exact ⟨_, rfl⟩
    obtain ⟨id, hf⟩ := hf
    exact ⟨id, hf, isField_eq (by omega) hf⟩
  · exact wf.field_unique
  · intro i hi
    rw [fieldItem, if_neg (by omega)]

omit wf in
theorem fieldItem_bounds (hf : fieldItem dex h f = some (class_idx, type_idx, name_idx)) :
    class_idx ≤ 0xffff ∧ type_idx ≤ 0xffff := by
  have hread : ∀ off v, readU16 dex off = .ok v → v ≤ 0xffff := by
    intro off v hv
    unfold readU16 at hv
    split at hv
    · cases hv
    · cases hv
      have hlt := leValue_slice_lt dex off 2
      omega
  unfold fieldItem at hf
  split at hf
  · obtain ⟨c, hclass, hf⟩ := Option.bind_eq_some_iff.mp hf
    obtain ⟨t, htype, hf⟩ := Option.bind_eq_some_iff.mp hf
    obtain ⟨n, _, hf⟩ := Option.bind_eq_some_iff.mp hf
    cases hf
    exact ⟨hread _ _ (toOption_eq_some.mp hclass), hread _ _ (toOption_eq_some.mp htype)⟩
  · cases hf

/-- The lookups end at a field exactly when it is the one the file names `SDK_INT`. -/
theorem WellFormed.locate_iff :
    locateSdkInt dex = .ok (some (h, f)) ↔ NamesSdkInt dex h f := by
  have hsdk : (0 : UInt8) ∉ SDK_INT := by decide
  have hint : (0 : UInt8) ∉ INT := by decide
  have hbuild : (0 : UInt8) ∉ BUILD_VERSION := by decide
  constructor
  · intro hl
    obtain ⟨_, n, ti, tc, t, c, h₁, h₂, h₃, h₄, h₅, h₆⟩ := locateSdkInt_some hl
    have hrange : c ≤ 0xffff ∧ t ≤ 0xffff := by
      by_contra hno
      rw [findFieldIdx, if_pos (by omega)] at h₆
      cases h₆
    refine ⟨c, t, n, (wf.findFieldIdx_iff hrange.1 hrange.2).mp h₆, ?_, ?_,
      (wf.findStringIdx_iff hsdk).mp h₁⟩
    · rw [typeName, wf.findTypeIdx_iff.mp h₅]
      exact (wf.findStringIdx_iff hbuild).mp h₃
    · rw [typeName, wf.findTypeIdx_iff.mp h₄]
      exact (wf.findStringIdx_iff hint).mp h₂
  · rintro ⟨c, t, n, hf, hclass, htype, hname⟩
    obtain ⟨tc, htc, hclass⟩ := Option.bind_eq_some_iff.mp hclass
    obtain ⟨ti, hti, htype⟩ := Option.bind_eq_some_iff.mp htype
    obtain ⟨hc, ht⟩ := fieldItem_bounds hf
    unfold locateSdkInt
    refine bind_eq_ok.mpr ⟨h, wf.parsed, ?_⟩
    refine bind_eq_ok.mpr ⟨_, (wf.findStringIdx_iff hsdk).mpr hname, ?_⟩
    refine bind_eq_ok.mpr ⟨_, (wf.findStringIdx_iff hint).mpr htype, ?_⟩
    refine bind_eq_ok.mpr ⟨_, (wf.findStringIdx_iff hbuild).mpr hclass, ?_⟩
    refine bind_eq_ok.mpr ⟨_, wf.findTypeIdx_iff.mpr hti, ?_⟩
    refine bind_eq_ok.mpr ⟨_, wf.findTypeIdx_iff.mpr htc, ?_⟩
    exact bind_eq_ok.mpr ⟨_, (wf.findFieldIdx_iff hc ht).mpr hf, rfl⟩

end

end Aabox.Resigner.Dex
