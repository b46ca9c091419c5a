import Aabox.Lib.Edits
import Aabox.Lib.Groups

/-!
# Annex-B streams

The NAL splitter, and the grouping of NALs into access units.
-/
namespace Aabox.Nal
open Aabox.Lib

/-- The start codes from index `i` on: where each begins, and its length. -/
def startCodesFrom (buf : Bytes) (i : Nat) : List (Nat × Nat) :=
  if i + 3 ≤ buf.length then
    if buf.getD i 0 = 0 ∧ buf.getD (i + 1) 0 = 0 then
      if i + 4 ≤ buf.length ∧ buf.getD (i + 2) 0 = 0 ∧ buf.getD (i + 3) 0 = 1 then
        (i, 4) :: startCodesFrom buf (i + 4)
      else if buf.getD (i + 2) 0 = 1 then (i, 3) :: startCodesFrom buf (i + 3)
      else startCodesFrom buf (i + 1)
    else startCodesFrom buf (i + 1)
  else []
termination_by buf.length - i

def startCodeOffsets (buf : Bytes) : List (Nat × Nat) := startCodesFrom buf 0

/-- Each NAL with its start code, up to the next one or the end. -/
def splitNals (buf : Bytes) : List Bytes :=
  let codes := startCodeOffsets buf
  (List.range codes.length).map fun i =>
    let start := (codes.getD i (0, 0)).1
    let stop := (codes[i + 1]?.map Prod.fst).getD buf.length
    slice buf start (stop - start)

def nalUnitType (nal : Bytes) : UInt8 :=
  ((List.range (nal.length - 3)).findSome? fun i =>
    if nal.getD i 0 = 0 ∧ nal.getD (i + 1) 0 = 0 then
      if nal.getD (i + 2) 0 = 1 ∧ i + 3 < nal.length then some (nal.getD (i + 3) 0 &&& 0x1f)
      else if nal.getD (i + 2) 0 = 0 ∧ i + 3 < nal.length ∧ nal.getD (i + 3) 0 = 1 ∧
          i + 4 < nal.length then some (nal.getD (i + 4) 0 &&& 0x1f)
      else none
    else none).getD 0

def SLICE_NON_IDR : UInt8 := 1
def SLICE_IDR : UInt8 := 5

def isSlice (nut_val : UInt8) : Bool := nut_val = SLICE_NON_IDR || nut_val = SLICE_IDR

/-- One turn of the grouping loop: the units so far, and the current one. -/
def groupStep (s : List Bytes × Bytes) (n : Bytes) : List Bytes × Bytes :=
  if isSlice (nalUnitType n) then (s.1 ++ [s.2 ++ n], []) else (s.1, s.2 ++ n)

def groupAccessUnits (buf : Bytes) : List Bytes :=
  let (aus, current) := (splitNals buf).foldl groupStep ([], [])
  if current ≠ [] then aus ++ [current] else aus

def auHasIdr (au : Bytes) : Bool := (splitNals au).any fun n => nalUnitType n = SLICE_IDR

def auHasSlice (au : Bytes) : Bool := (splitNals au).any fun n => isSlice (nalUnitType n)

variable {bs buf p r x y g u : Bytes} {us vs : List Bytes} {i n : Nat}

/-! ### Start codes -/

/-- The length of the start code that the bytes begin with; 0 if there is none. -/
def codeLen (bs : Bytes) : Nat :=
  if [0, 0, 0, 1] <+: bs then 4 else if [0, 0, 1] <+: bs then 3 else 0

def IsCode (code : Bytes) : Prop := code = [0, 0, 0, 1] ∨ code = [0, 0, 1]

/-- The code is told by its first three or four bytes. -/
theorem codeLen_code {code : Bytes} (h : IsCode code) (p : Bytes) :
    codeLen (code ++ p) = code.length := by
  rcases h with rfl | rfl
  · rw [codeLen, if_pos (List.prefix_append _ _)]
    rfl
  · rw [codeLen, if_neg (by simp), if_pos (List.prefix_append _ _)]
    rfl

theorem exists_code (h : codeLen bs ≠ 0) :
    ∃ code p, IsCode code ∧ bs = code ++ p ∧ codeLen bs = code.length := by
  unfold codeLen at h ⊢
  split_ifs at h ⊢ with h4 h3
  · obtain ⟨p, rfl⟩ := h4
    exact ⟨_, p, .inl rfl, rfl, rfl⟩
  · obtain ⟨p, rfl⟩ := h3
    exact ⟨_, p, .inr rfl, rfl, rfl⟩
  · exact (h rfl).elim

/-- A code stays where bytes are added behind it. -/
theorem codeLen_append (h : codeLen x ≠ 0) (y : Bytes) : codeLen (x ++ y) = codeLen x := by
  obtain ⟨code, p, hcode, rfl, hlen⟩ := exists_code h
  rw [hlen, List.append_assoc, codeLen_code hcode]

/-- Four bytes settle whether a code begins there. -/
theorem codeLen_append_of_le (h : 4 ≤ x.length) (y : Bytes) : codeLen (x ++ y) = codeLen x := by
  have hpre : ∀ c : Bytes, c.length ≤ 4 → (c <+: x ++ y ↔ c <+: x) := by
    intro c hc
    constructor
    · exact fun hpre => List.prefix_of_prefix_length_le hpre (List.prefix_append x y) (by omega)
    · exact fun hpre => hpre.trans (List.prefix_append x y)
  unfold codeLen
  simp only [hpre [0, 0, 0, 1] (by decide), hpre [0, 0, 1] (by decide)]

theorem startCodesFrom_short (h : buf.length < i + 3) : startCodesFrom buf i = [] := by
  rw [startCodesFrom, if_neg (by omega)]

theorem codeLen_eq (h : i + 3 ≤ buf.length) :
    codeLen (buf.drop i) =
      if buf.getD i 0 = 0 ∧ buf.getD (i + 1) 0 = 0 then
        if i + 4 ≤ buf.length ∧ buf.getD (i + 2) 0 = 0 ∧ buf.getD (i + 3) 0 = 1 then 4
        else if buf.getD (i + 2) 0 = 1 then 3 else 0
      else 0 := by
  have hget : ∀ k, buf.getD (i + k) 0 = (buf.drop i).getD k 0 := by
    intro k
    rw [List.getD_eq_getElem?_getD, List.getD_eq_getElem?_getD, List.getElem?_drop]
  have hlen : buf.length = i + (buf.drop i).length := by
    rw [List.length_drop]
    omega
  rw [hget 1, hget 2, hget 3, show buf.getD i 0 = (buf.drop i).getD 0 0 from hget 0, hlen]
  have h3 : 3 ≤ (buf.drop i).length := by omega
  clear hget hlen h
  generalize buf.drop i = bs at h3 ⊢
  obtain _ | ⟨a, _ | ⟨b, _ | ⟨c, rest⟩⟩⟩ := bs
  · simp at h3
  · simp at h3
  · simp at h3
  cases rest with
  | nil =>
    simp [codeLen]
    grind
  | cons d rest =>
    simp [codeLen]
    grind

/-- The loop in terms of what is left of the buffer. -/
theorem startCodesFrom_eq (buf : Bytes) (i : Nat) :
    startCodesFrom buf i =
      if codeLen (buf.drop i) ≠ 0 then
        (i, codeLen (buf.drop i)) :: startCodesFrom buf (i + codeLen (buf.drop i))
      else startCodesFrom buf (i + 1) := by
  by_cases hlen : i + 3 ≤ buf.length
  · rw [codeLen_eq hlen, startCodesFrom, if_pos hlen]
    split_ifs <;> first | rfl | simp_all
  · have hnone : codeLen (buf.drop i) = 0 := by
      by_contra hne
      obtain ⟨code, p, hcode, hdrop, _⟩ := exists_code hne
      have hlen' := congrArg List.length hdrop
      rw [List.length_drop, List.length_append] at hlen'
      rcases hcode with rfl | rfl
      · simp at hlen'
        omega
      · simp at hlen'
        omega
    rw [if_neg (by simp [hnone]), startCodesFrom_short (by omega), startCodesFrom_short (by omega)]

/-! ### Cutting a buffer at its codes -/

/-- No code begins in `p`, when `r` follows it. -/
def Quiet : Bytes → Bytes → Prop
  | [], _ => True
  | b :: p, r => codeLen (b :: (p ++ r)) = 0 ∧ Quiet p r

/-- Units that begin with a code and have no other in them, even across their ends. -/
inductive Cut : List Bytes → Prop
  | nil : Cut []
  | cons {code p : Bytes} {us : List Bytes} (hcode : IsCode code) (hquiet : Quiet p us.flatten)
      (hrest : Cut us) : Cut ((code ++ p) :: us)

theorem quiet_mono (h : Quiet p (r ++ x)) : Quiet p r := by
  induction p with
  | nil => trivial
  | cons b p ih =>
    refine ⟨?_, ih h.2⟩
    by_contra hne
    have hcode := codeLen_append hne x
    rw [List.cons_append, List.append_assoc, h.1] at hcode
    exact hne hcode.symm

/-- What follows is known from its first three bytes. -/
theorem quiet_extend (hr : 3 ≤ r.length) (h : Quiet p r) (x : Bytes) : Quiet p (r ++ x) := by
  induction p with
  | nil => trivial
  | cons b p ih =>
    refine ⟨?_, ih h.2⟩
    have hlong : 4 ≤ (b :: (p ++ r)).length := by
      rw [List.length_cons, List.length_append]
      omega
    rw [← List.append_assoc, ← List.cons_append, codeLen_append_of_le hlong, h.1]

theorem three_le_code {code : Bytes} (h : IsCode code) : 3 ≤ code.length := by
  rcases h with rfl | rfl
  · decide
  · decide

/-- Every buffer is garbage and units. -/
theorem exists_cut (bs : Bytes) : ∃ g us, bs = g ++ us.flatten ∧ Quiet g us.flatten ∧ Cut us := by
  induction hn : bs.length using Nat.strongRecOn generalizing bs with
  | ind n ih =>
    cases bs with
    | nil => exact ⟨[], [], rfl, trivial, .nil⟩
    | cons b bs =>
      by_cases hcode : codeLen (b :: bs) = 0
      · obtain ⟨g, us, rfl, hquiet, hcut⟩ := ih bs.length (by rw [← hn]; simp) bs rfl
        exact ⟨b :: g, us, rfl, ⟨hcode, hquiet⟩, hcut⟩
      · obtain ⟨code, rest, hc, hbs, _⟩ := exists_code hcode
        have hlt : rest.length < n := by
          have h3 := three_le_code hc
          rw [← hn, hbs, List.length_append]
          omega
        obtain ⟨p, us, rfl, hquiet, hcut⟩ := ih rest.length hlt rest rfl
        refine ⟨[], (code ++ p) :: us, ?_, trivial, .cons hc hquiet hcut⟩
        rw [hbs]
        simp

/-! ### The splitter on such a buffer -/

theorem scan_quiet (x : Bytes) (h : Quiet p r) :
    startCodesFrom (x ++ (p ++ r)) x.length =
      startCodesFrom (x ++ (p ++ r)) (x.length + p.length) := by
  induction p generalizing x with
  | nil => rfl
  | cons b p ih =>
    have hnone : codeLen ((x ++ (b :: p ++ r)).drop x.length) = 0 := by
      rw [List.drop_left]
      exact h.1
    rw [startCodesFrom_eq, if_neg (not_not_intro hnone)]
    have hstep := ih (x ++ [b]) h.2
    simp only [List.append_assoc, List.singleton_append, List.length_append, List.length_singleton]
      at hstep
    rw [List.cons_append, hstep, List.length_cons]
    congr 1
    omega

/-- The units begin where the loop finds codes. -/
theorem scan_cut (h : Cut us) (x : Bytes) :
    (startCodesFrom (x ++ us.flatten) x.length).map Prod.fst =
      (List.range us.length).map fun i => x.length + (us.take i).flatten.length := by
  induction h generalizing x with
  | nil =>
    rw [startCodesFrom_short (by simp)]
    rfl
  | @cons code p us hcode hquiet hcut ih =>
    have hhead : (x ++ ((code ++ p) :: us).flatten).drop x.length = code ++ (p ++ us.flatten) := by
      rw [List.drop_left, List.flatten_cons, List.append_assoc]
    have hpos := three_le_code hcode
    have hquiet' := scan_quiet (x ++ code) hquiet
    have hrest := ih (x ++ (code ++ p))
    simp only [List.append_assoc, List.length_append] at hquiet' hrest
    rw [startCodesFrom_eq, hhead, codeLen_code hcode, if_pos (by omega), List.map_cons,
      List.flatten_cons, List.append_assoc, hquiet', Nat.add_assoc, hrest, List.length_cons,
      List.range_succ_eq_map, List.map_cons, List.map_map]
    congr 1
    apply List.map_congr_left
    intro i _
    simp
    omega

theorem startCodes_cut (hg : Quiet g us.flatten) (h : Cut us) :
    (startCodeOffsets (g ++ us.flatten)).map Prod.fst =
      (List.range us.length).map fun i => g.length + (us.take i).flatten.length := by
  have hskip := scan_quiet [] hg
  rw [List.nil_append, List.length_nil, Nat.zero_add] at hskip
  rw [startCodeOffsets, hskip, scan_cut h]

theorem length_flatten_take_succ (hn : n < us.length) :
    (us.take (n + 1)).flatten.length = (us.take n).flatten.length + us[n].length := by
  rw [List.take_succ_eq_append_getElem hn, List.flatten_append, List.flatten_singleton,
    List.length_append]

theorem flatten_at (hn : n < us.length) :
    us.flatten = (us.take n).flatten ++ (us[n] ++ (us.drop (n + 1)).flatten) := by
  have hus : us.take n ++ us[n] :: us.drop (n + 1) = us := by
    rw [← List.drop_eq_getElem_cons hn, List.take_append_drop]
  have hflat := congrArg List.flatten hus
  rw [List.flatten_append, List.flatten_cons] at hflat
  exact hflat.symm

/-- The splitter finds exactly the units. -/
theorem splitNals_cut (hg : Quiet g us.flatten) (h : Cut us) : splitNals (g ++ us.flatten) = us := by
  have hcodes := startCodes_cut hg h
  generalize hc : startCodeOffsets (g ++ us.flatten) = codes at hcodes
  have hlen : codes.length = us.length := by
    have := congrArg List.length hcodes
    simpa using this
  have hget : ∀ i, i < us.length →
      (codes[i]?).map Prod.fst = some (g.length + (us.take i).flatten.length) := by
    intro i hi
    rw [← List.getElem?_map, hcodes, List.getElem?_map, List.getElem?_range hi]
    rfl
  unfold splitNals
  simp only [hc]
  apply List.ext_getElem
  · simpa using hlen
  · intro i hi hi'
    rw [List.getElem_map, List.getElem_range]
    have hstart : (codes.getD i (0, 0)).1 = g.length + (us.take i).flatten.length := by
      have := hget i hi'
      rw [List.getElem?_eq_getElem (by omega), Option.map_some, Option.some.injEq] at this
      rw [List.getD_eq_getElem?_getD, List.getElem?_eq_getElem (by omega), Option.getD_some, this]
    have hstop : ((codes[i + 1]?).map Prod.fst).getD (g ++ us.flatten).length =
        g.length + (us.take i).flatten.length + us[i].length := by
      have hsucc := length_flatten_take_succ hi'
      by_cases hlast : i + 1 < us.length
      · rw [hget _ hlast, Option.getD_some, hsucc, Nat.add_assoc]
      · rw [List.getElem?_eq_none (by omega), Option.map_none, Option.getD_none, List.length_append,
          Nat.add_assoc, ← hsucc, List.take_of_length_le (by omega)]
    have hbuf : g ++ us.flatten =
        (g ++ (us.take i).flatten) ++ (us[i] ++ (us.drop (i + 1)).flatten) := by
      rw [List.append_assoc, ← flatten_at hi']
    rw [hstart, hstop, Nat.add_sub_cancel_left, hbuf]
    exact slice_middle _ (by simp) rfl

/-! ### Runs of units -/

theorem cut_cons : Cut (u :: us) ↔
    ∃ code p, u = code ++ p ∧ IsCode code ∧ Quiet p us.flatten ∧ Cut us := by
  constructor
  · intro h
    cases h with
    | cons hcode hquiet hrest => exact ⟨_, _, rfl, hcode, hquiet, hrest⟩
  · rintro ⟨code, p, rfl, hcode, hquiet, hrest⟩
    exact .cons hcode hquiet hrest

theorem cut_right (h : Cut (us ++ vs)) : Cut vs := by
  induction us with
  | nil => exact h
  | cons u us ih =>
    obtain ⟨_, _, _, _, _, hrest⟩ := cut_cons.mp h
    exact ih hrest

theorem cut_left (h : Cut (us ++ vs)) : Cut us := by
  induction us with
  | nil => exact .nil
  | cons u us ih =>
    rw [List.cons_append, cut_cons] at h
    obtain ⟨code, p, rfl, hcode, hquiet, hrest⟩ := h
    rw [List.flatten_append] at hquiet
    exact .cons hcode (quiet_mono hquiet) (ih hrest)

theorem three_le_unit (h : Cut (u :: us)) : 3 ≤ u.length := by
  obtain ⟨code, p, rfl, hcode, _, _⟩ := cut_cons.mp h
  have := three_le_code hcode
  rw [List.length_append]
  omega

/-- The last unit may be cut anew when more bytes come, the ones before it stay. -/
theorem cut_extend (h : Cut (us ++ [u])) (hvs : Cut vs) (hflat : vs.flatten = u ++ x) :
    Cut (us ++ vs) := by
  have hu := three_le_unit (cut_right h)
  induction us with
  | nil => exact hvs
  | cons v us ih =>
    rw [List.cons_append, cut_cons] at h ⊢
    obtain ⟨code, p, rfl, hcode, hquiet, hrest⟩ := h
    refine ⟨code, p, rfl, hcode, ?_, ih hrest⟩
    rw [List.flatten_append, List.flatten_singleton] at hquiet
    rw [List.flatten_append, hflat, ← List.append_assoc]
    exact quiet_extend (by rw [List.length_append]; omega) hquiet x

/-- A run of units of a buffer splits into the same units again. -/
theorem splitNals_run (h : Cut us) : splitNals us.flatten = us := by
  have := splitNals_cut (g := []) trivial h
  rwa [List.nil_append] at this

/-! ### The type of a NAL -/

/-- The type bits of the byte behind the start code, 0 if the NAL is no more than its code. -/
def headerType (nal : Bytes) : UInt8 := nal.getD (codeLen nal) 0 &&& 0x1f

theorem nalUnitType_code {code : Bytes} (h : IsCode code) (p : Bytes) :
    nalUnitType (code ++ p) = headerType (code ++ p) := by
  have hhead : headerType (code ++ p) = p.getD 0 0 &&& 0x1f := by
    rw [headerType, codeLen_code h, List.getD_eq_getElem?_getD, List.getD_eq_getElem?_getD,
      List.getElem?_append_right (Nat.le_refl _), Nat.sub_self]
  rw [hhead]
  rcases h with rfl | rfl
  · cases p with
    | nil => rfl
    | cons b p => simp [nalUnitType, List.range_succ_eq_map]
  · cases p with
    | nil => rfl
    | cons b p => simp [nalUnitType, List.range_succ_eq_map]

theorem exists_code_of_mem (h : Cut us) (hu : u ∈ us) : ∃ code p, u = code ++ p ∧ IsCode code := by
  induction h with
  | nil => cases hu
  | cons hcode _ _ ih =>
    rcases List.mem_cons.mp hu with rfl | hu
    · exact ⟨_, _, rfl, hcode⟩
    · exact ih hu

theorem nalUnitType_unit (h : Cut us) (hu : u ∈ us) : nalUnitType u = headerType u := by
  obtain ⟨code, p, rfl, hcode⟩ := exists_code_of_mem h hu
  exact nalUnitType_code hcode p

theorem unit_ne_nil (h : Cut us) (hu : u ∈ us) : u ≠ [] := by
  obtain ⟨code, p, rfl, hcode⟩ := exists_code_of_mem h hu
  have := three_le_code hcode
  intro hnil
  rw [List.append_eq_nil_iff] at hnil
  rw [hnil.1] at this
  simp at this

/-! ### Access units -/

def isSliceNal (n : Bytes) : Bool := isSlice (nalUnitType n)

theorem foldl_groupStep (gs : List (List Bytes)) (cur us : List Bytes) :
    us.foldl groupStep (gs.map List.flatten, cur.flatten) =
      ((us.foldl (cutStep isSliceNal) (gs, cur)).1.map List.flatten,
        (us.foldl (cutStep isSliceNal) (gs, cur)).2.flatten) := by
  induction us generalizing gs cur with
  | nil => rfl
  | cons u us ih =>
    rw [List.foldl_cons, List.foldl_cons]
    by_cases hu : isSliceNal u = true
    · have hslice : isSlice (nalUnitType u) = true := hu
      have hstep : groupStep (gs.map List.flatten, cur.flatten) u =
          ((gs ++ [cur ++ [u]]).map List.flatten, ([] : List Bytes).flatten) := by
        rw [groupStep, if_pos hslice]
        simp
      rw [hstep, cutStep_close hu, ih]
    · have hslice : ¬ isSlice (nalUnitType u) = true := hu
      have hstep : groupStep (gs.map List.flatten, cur.flatten) u =
          (gs.map List.flatten, (cur ++ [u]).flatten) := by
        rw [groupStep, if_neg hslice]
        simp
      rw [hstep, cutStep_open (by simpa using hu), ih]

/-- The access units are the groups of units that a slice closes. -/
theorem groupAccessUnits_cut (hg : Quiet g us.flatten) (h : Cut us) :
    groupAccessUnits (g ++ us.flatten) = (groups isSliceNal us).map List.flatten := by
  have hfold := foldl_groupStep [] [] us
  rw [List.map_nil, List.flatten_nil] at hfold
  have hopen : (cut isSliceNal us).2.flatten ≠ [] ↔ (cut isSliceNal us).2 ≠ [] := by
    constructor
    · intro hne hnil
      exact hne (by rw [hnil, List.flatten_nil])
    · intro hne hnil
      obtain ⟨u, hu⟩ := List.exists_mem_of_ne_nil _ hne
      have hmem : u ∈ us := by
        rw [← (cut_spec isSliceNal us).2.2]
        exact List.mem_append_right _ hu
      exact unit_ne_nil h hmem (List.flatten_eq_nil_iff.mp hnil u hu)
  unfold groupAccessUnits groups
  rw [splitNals_cut hg h, hfold]
  change (if (cut isSliceNal us).2.flatten ≠ [] then _ else _) = _
  simp only [hopen]
  by_cases hnil : (cut isSliceNal us).2 = []
  · rw [if_neg (not_not_intro hnil), if_pos hnil, List.append_nil]
    rfl
  · rw [if_pos hnil, if_neg hnil, List.map_append]
    rfl

theorem cut_mem_groups (h : Cut us) {unit : List Bytes} (hunit : unit ∈ groups isSliceNal us) :
    Cut unit := by
  obtain ⟨before, after, hsplit⟩ := List.append_of_mem hunit
  have hall := flatten_groups isSliceNal us
  rw [hsplit, List.flatten_append, List.flatten_cons] at hall
  rw [← hall] at h
  exact cut_left (cut_right h)

theorem auHasIdr_iff (h : Cut us) :
    auHasIdr us.flatten = true ↔ ∃ n ∈ us, headerType n = SLICE_IDR := by
  rw [auHasIdr, splitNals_run h, List.any_eq_true]
  apply exists_congr
  intro n
  apply and_congr_right
  intro hn
  rw [nalUnitType_unit h hn, decide_eq_true_iff]

theorem auHasSlice_iff (h : Cut us) :
    auHasSlice us.flatten = true ↔ ∃ n ∈ us, isSlice (headerType n) = true := by
  rw [auHasSlice, splitNals_run h, List.any_eq_true]
  apply exists_congr
  intro n
  apply and_congr_right
  intro hn
  rw [nalUnitType_unit h hn]

/-- The buffer without the bytes before its first start code. -/
def fromFirstCode : Bytes → Bytes
  | [] => []
  | b :: bs => if codeLen (b :: bs) = 0 then fromFirstCode bs else b :: bs

theorem fromFirstCode_quiet (h : Quiet p r) : fromFirstCode (p ++ r) = fromFirstCode r := by
  induction p with
  | nil => rfl
  | cons b p ih =>
    obtain ⟨hnone, hquiet⟩ := h
    rw [List.cons_append, fromFirstCode, if_pos hnone, ih hquiet]

theorem fromFirstCode_code {code : Bytes} (h : IsCode code) (p : Bytes) :
    fromFirstCode (code ++ p) = code ++ p := by
  have hpos := three_le_code h
  cases hbs : code ++ p with
  | nil => rfl
  | cons b bs =>
    have hcode : codeLen (b :: bs) ≠ 0 := by
      rw [← hbs, codeLen_code h]
      omega
    rw [fromFirstCode, if_neg hcode]

theorem fromFirstCode_cut (hg : Quiet g us.flatten) (h : Cut us) :
    fromFirstCode (g ++ us.flatten) = us.flatten := by
  rw [fromFirstCode_quiet hg]
  cases h with
  | nil => rfl
  | cons hcode _ _ => rw [List.flatten_cons, List.append_assoc, fromFirstCode_code hcode]

/-- The access units of a buffer as groups of its NALs. The NALs begin with a start code each, and
no other one begins in them or before the first. -/
structure AccessUnits (buf : Bytes) (units : List (List Bytes)) : Prop where
  cut : ∃ g, buf = g ++ units.flatten.flatten ∧ Quiet g units.flatten.flatten ∧ Cut units.flatten
  nals : splitNals buf = units.flatten
  grouped : groupAccessUnits buf = units.map List.flatten
  lossless : (groupAccessUnits buf).flatten = fromFirstCode buf
  types : ∀ n ∈ splitNals buf, nalUnitType n = headerType n
  one_slice : ∀ init last, units = init ++ [last] →
    (∀ unit ∈ init, Closed isSliceNal unit) ∧
      (Closed isSliceNal last ∨ last ≠ [] ∧ ∀ n ∈ last, isSliceNal n = false)
  resplit : ∀ unit ∈ units, splitNals unit.flatten = unit
  idr : ∀ unit ∈ units, auHasIdr unit.flatten = true ↔ ∃ n ∈ unit, headerType n = SLICE_IDR
  slice : ∀ unit ∈ units,
    auHasSlice unit.flatten = true ↔ ∃ n ∈ unit, isSlice (headerType n) = true

/-- Every buffer falls into access units: nothing from the first start code on is lost, a slice ends
each unit but perhaps the last, and each unit splits into the NALs that it was built from. -/
theorem exists_accessUnits (buf : Bytes) : ∃ units, AccessUnits buf units := by
  obtain ⟨g, us, rfl, hg, hcut⟩ := exists_cut buf
  have hnals := splitNals_cut hg hcut
  have hgrouped := groupAccessUnits_cut hg hcut
  have hflat : (groups isSliceNal us).flatten = us := flatten_groups isSliceNal us
  refine ⟨groups isSliceNal us, ?_, ?_, hgrouped, ?_, ?_, ?_, ?_, ?_, ?_⟩
  · rw [hflat]
    exact ⟨g, rfl, hg, hcut⟩
  · rw [hnals, hflat]
  · rw [hgrouped, fromFirstCode_cut hg hcut, ← List.flatten_flatten, hflat]
  · intro n hn
    rw [hnals] at hn
    exact nalUnitType_unit hcut hn
  · intro init last hunits
    exact groups_closed hunits
  · intro unit hunit
    exact splitNals_run (cut_mem_groups hcut hunit)
  · intro unit hunit
    exact auHasIdr_iff (cut_mem_groups hcut hunit)
  · intro unit hunit
    exact auHasSlice_iff (cut_mem_groups hcut hunit)

/-- A byte of garbage, parameter sets and a key frame, another slice, and parameter sets that no
slice follows; the codes are of both lengths. -/
theorem exists_accessUnits_three : ∃ units,
    AccessUnits [9, 0, 0, 0, 1, 0x67, 1, 0, 0, 1, 0x68, 0, 0, 0, 1, 0x65, 7, 0, 0, 1, 0x41, 8,
      0, 0, 1, 0x67] units ∧
    units.map List.flatten = [[0, 0, 0, 1, 0x67, 1, 0, 0, 1, 0x68, 0, 0, 0, 1, 0x65, 7],
      [0, 0, 1, 0x41, 8], [0, 0, 1, 0x67]] := by
  obtain ⟨units, h⟩ := exists_accessUnits [9, 0, 0, 0, 1, 0x67, 1, 0, 0, 1, 0x68, 0, 0, 0, 1, 0x65,
    7, 0, 0, 1, 0x41, 8, 0, 0, 1, 0x67]
  refine ⟨units, h, ?_⟩
  rw [← h.grouped]
  decide +kernel

end Aabox.Nal
