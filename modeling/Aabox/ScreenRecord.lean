import Aabox.Nal

/-!
# The screen recorder as a video source

Access units are cut from the recorder's output as it is read, and handed out one for each call.
-/
namespace Aabox.ScreenRecord
open Aabox.Lib Aabox.Nal

structure VideoFrame where
  annex_b : Bytes
  pts_us : Nat
  keyframe : Bool
  deriving DecidableEq, Repr

/-- What one `read` on the recorder's stdout returns; no bytes are the end of the file. -/
inductive ReadResult
  | ok (bs : Bytes)
  | err
  deriving DecidableEq, Repr

/-- `stdout` has the results of the reads to come, and is `none` once it has been closed;
`delivered` is what has been read from it. -/
structure ScreenRecordVideoSource where
  stdout : Option (List ReadResult)
  delivered : Bytes
  leftover : Bytes
  queued : List Bytes
  pts_us : Nat
  frame_interval_us : Nat
  deriving DecidableEq, Repr

/-- What a call of `next_frame` comes to: a frame, the end, or the wait for a read. -/
inductive NextFrame
  | frame (f : VideoFrame)
  | ended
  | waiting
  deriving DecidableEq, Repr

def saturatingAdd (a b : Nat) : Nat := min (a + b) (2 ^ 64 - 1)

def spawn (fps : UInt32) (reads : List ReadResult) : ScreenRecordVideoSource :=
  { stdout := some reads, delivered := [], leftover := [], queued := [], pts_us := 0
    frame_interval_us := 1000000 / max fps.toNat 1 }

/-- The three bytes from `i` on end a start code. -/
def codeEndsAt (buf : Bytes) (i : Nat) : Bool :=
  buf.getD i 0 = 0 ∧ buf.getD (i + 1) 0 = 0 ∧ buf.getD (i + 2) 0 = 1

/-- The search runs backwards; a zero before the three bytes belongs to the code. -/
def findLastStartCode (buf : Bytes) : Option Nat :=
  if buf.length < 3 then none
  else
    ((List.range (buf.length - 2)).reverse.find? (codeEndsAt buf)).map fun i =>
      if i > 0 ∧ buf.getD (i - 1) 0 = 0 then i - 1 else i

/-- Units without the last, if that has no slice yet; its bytes go back before the rest. -/
def pushBack (aus : List Bytes) (leftover : Bytes) : List Bytes × Bytes :=
  match aus.getLast? with
  | some last => if auHasSlice last then (aus, leftover) else (aus.dropLast, last ++ leftover)
  | none => (aus, leftover)

/-- What is done with the bytes of one read. -/
def feed (s : ScreenRecordVideoSource) (bs : Bytes) : ScreenRecordVideoSource :=
  let s := { s with leftover := s.leftover ++ bs, delivered := s.delivered ++ bs }
  match findLastStartCode s.leftover with
  | none => s
  | some last_start =>
    let completed := s.leftover.take last_start
    let s := { s with leftover := s.leftover.drop last_start }
    if completed ≠ [] then
      let (aus, leftover) := pushBack (groupAccessUnits completed) s.leftover
      { s with leftover, queued := s.queued ++ aus.filter (· ≠ []) }
    else s

/-- A queued unit goes first. -/
def popQueued (s : ScreenRecordVideoSource) : Option (VideoFrame × ScreenRecordVideoSource) :=
  match s.queued with
  | au :: queued =>
    some (⟨au, s.pts_us, auHasIdr au⟩,
      { s with queued, pts_us := saturatingAdd s.pts_us s.frame_interval_us })
  | [] => none

/-- The loop of `next_frame`, over the reads to come. -/
def nextFrameLoop (s : ScreenRecordVideoSource) :
    List ReadResult → NextFrame × ScreenRecordVideoSource
  | [] =>
    match popQueued s with
    | some (f, s) => (.frame f, { s with stdout := some [] })
    | none => (.waiting, { s with stdout := some [] })
  | read :: reads =>
    match popQueued s with
    | some (f, s) => (.frame f, { s with stdout := some (read :: reads) })
    | none =>
      match read with
      | .ok [] => (.ended, { s with stdout := some reads })
      | .ok (b :: bs) => nextFrameLoop (feed s (b :: bs)) reads
      | .err => (.ended, { s with stdout := some reads })

def nextFrame (s : ScreenRecordVideoSource) : NextFrame × ScreenRecordVideoSource :=
  match s.stdout with
  | some reads => nextFrameLoop s reads
  | none =>
    match popQueued s with
    | some (f, s) => (.frame f, s)
    | none => (.ended, s)

def close (s : ScreenRecordVideoSource) : ScreenRecordVideoSource := { s with stdout := none }

inductive Call
  | nextFrame
  | close
  deriving DecidableEq, Repr

def NextFrame.frames : NextFrame → List VideoFrame
  | .frame f => [f]
  | .ended | .waiting => []

/-- The source after one more call, and the frames that have been returned. -/
def call (x : ScreenRecordVideoSource × List VideoFrame) :
    Call → ScreenRecordVideoSource × List VideoFrame
  | .nextFrame =>
    let (r, s) := nextFrame x.1
    (s, x.2 ++ r.frames)
  | .close => (close x.1, x.2)

def run (fps : UInt32) (reads : List ReadResult) (cs : List Call) :
    ScreenRecordVideoSource × List VideoFrame :=
  cs.foldl call (spawn fps reads, [])

/-! ### What the units should be -/

def beforeLastCode (bs : Bytes) : Bytes :=
  match (startCodeOffsets bs).getLast? with
  | some code => bs.take code.1
  | none => []

/-- The access units of what comes before the last start code, but for a final one without a
slice. -/
def available (bs : Bytes) : List Bytes :=
  let aus := groupAccessUnits (beforeLastCode bs)
  match aus.getLast? with
  | some last => if auHasSlice last then aus else aus.dropLast
  | none => aus

def bytesOf (reads : List ReadResult) : Bytes :=
  reads.flatMap fun
    | .ok bs => bs
    | .err => []

/-- The frames returned and queued are the units of the bytes read, and no byte is lost. -/
structure Extracts (fps : UInt32) (reads : List ReadResult) (s : ScreenRecordVideoSource)
    (frames : List VideoFrame) : Prop where
  delivered : ∃ used rest, reads = used ++ rest ∧ s.delivered = bytesOf used ∧
    (s.stdout = some rest ∨ s.stdout = none)
  units : frames.map VideoFrame.annex_b ++ s.queued = available s.delivered
  pts : ∀ k f, frames[k]? = some f →
    f.pts_us = min (k * (spawn fps reads).frame_interval_us) (2 ^ 64 - 1)
  lossless : fromFirstCode s.delivered ≠ [] →
    (frames.map VideoFrame.annex_b ++ s.queued).flatten ++ s.leftover = fromFirstCode s.delivered
  waiting : fromFirstCode s.delivered = [] →
    frames = [] ∧ s.queued = [] ∧ s.leftover = s.delivered

variable {p r x g u buf bs : Bytes} {us vs ws : List Bytes} {k n : Nat}

/-! ### The backward search -/

theorem find?_reverse_range {P : Nat → Bool} (hk : k < n) (hP : P k = true)
    (hlast : ∀ j, k < j → j < n → P j = false) : (List.range n).reverse.find? P = some k := by
  induction n with
  | zero => omega
  | succ n ih =>
    rw [List.range_succ, List.reverse_append, List.reverse_singleton, List.singleton_append]
    by_cases hn : k = n
    · subst hn
      exact List.find?_cons_of_pos hP
    · rw [List.find?_cons_of_neg (by simp [hlast n (by omega) (by omega)])]
      exact ih (by omega) fun j hj hlt => hlast j hj (by omega)

theorem quiet_drop (h : Quiet p r) (hk : k < p.length) : codeLen (p.drop k ++ r) = 0 := by
  induction p generalizing k with
  | nil => cases hk
  | cons b p ih =>
    cases k with
    | zero => exact h.1
    | succ k => exact ih h.2 (by simpa using hk)

theorem getD_append_add (x y : Bytes) (k : Nat) : (x ++ y).getD (x.length + k) 0 = y.getD k 0 := by
  rw [List.getD_eq_getElem?_getD, List.getD_eq_getElem?_getD,
    List.getElem?_append_right (by omega), Nat.add_sub_cancel_left]

theorem codeEndsAt_append (x y : Bytes) (k : Nat) :
    codeEndsAt (x ++ y) (x.length + k) = codeEndsAt y k := by
  unfold codeEndsAt
  rw [Nat.add_assoc, Nat.add_assoc, getD_append_add, getD_append_add, getD_append_add]

theorem codeLen_of_codeEndsAt (h : codeEndsAt buf 0 = true) : codeLen buf ≠ 0 := by
  obtain ⟨h0, h1, h2⟩ := of_decide_eq_true h
  obtain _ | ⟨a, _ | ⟨b, _ | ⟨c, rest⟩⟩⟩ := buf
  · cases h2
  · cases h2
  · cases h2
  · obtain rfl : a = 0 := h0
    obtain rfl : b = 0 := h1
    obtain rfl : c = 1 := h2
    have hcode := codeLen_code (.inr rfl) rest
    rw [List.cons_append, List.cons_append, List.cons_append, List.nil_append] at hcode
    rw [hcode]
    decide

/-- No code ends inside quiet bytes. -/
theorem codeEndsAt_quiet (h : Quiet p []) (k : Nat) : codeEndsAt p k = false := by
  by_cases hk : k < p.length
  · have htake : (p.take k).length = k := by
      rw [List.length_take]
      omega
    have hdrop := codeEndsAt_append (p.take k) (p.drop k) 0
    rw [List.take_append_drop, htake, Nat.add_zero] at hdrop
    by_contra hne
    rw [hdrop, Bool.not_eq_false] at hne
    have hnone := quiet_drop h hk
    rw [List.append_nil] at hnone
    exact codeLen_of_codeEndsAt hne hnone
  · have hnone : p.getD (k + 2) 0 = 0 := by
      rw [List.getD_eq_getElem?_getD, List.getElem?_eq_none (by omega)]
      rfl
    unfold codeEndsAt
    rw [hnone]
    simp

theorem findLastStartCode_none (h : Quiet g []) : findLastStartCode g = none := by
  unfold findLastStartCode
  split
  · rfl
  · rw [List.find?_eq_none.mpr (fun k _ => by simp [codeEndsAt_quiet h k])]
    rfl

/-- The search stops at the last code, and takes in its first zero. -/
theorem findLastStartCode_some {code : Bytes} (hcode : IsCode code) (hp : Quiet p [])
    (hx : code = [0, 0, 1] → ∀ y, x ≠ y ++ [0]) :
    findLastStartCode (x ++ (code ++ p)) = some x.length := by
  have hthree := three_le_code hcode
  have hlen : (x ++ (code ++ p)).length = x.length + code.length + p.length := by
    rw [List.length_append, List.length_append, Nat.add_assoc]
  have hends : codeEndsAt (code ++ p) (code.length - 3) = true := by
    rcases hcode with rfl | rfl
    · rfl
    · rfl
  have hlast : ∀ m, code.length - 3 < m → codeEndsAt (code ++ p) m = false := by
    intro m hm
    by_cases hin : m < code.length
    · rcases hcode with rfl | rfl
      · have : m = 2 ∨ m = 3 := by simp at hm hin; omega
        rcases this with rfl | rfl
        · rfl
        · rfl
      · have : m = 1 ∨ m = 2 := by simp at hm hin; omega
        rcases this with rfl | rfl
        · rfl
        · rfl
    · obtain ⟨q, rfl⟩ := Nat.exists_eq_add_of_le (Nat.le_of_not_lt hin)
      rw [codeEndsAt_append, codeEndsAt_quiet hp]
  have hfind : (List.range ((x ++ (code ++ p)).length - 2)).reverse.find?
      (codeEndsAt (x ++ (code ++ p))) = some (x.length + (code.length - 3)) := by
    apply find?_reverse_range
    · omega
    · rw [codeEndsAt_append, hends]
    · intro j hj _
      obtain ⟨m, rfl⟩ := Nat.exists_eq_add_of_le (show x.length ≤ j by omega)
      rw [codeEndsAt_append]
      exact hlast m (by omega)
  unfold findLastStartCode
  rw [if_neg (by omega), hfind, Option.map_some, Option.some.injEq]
  rcases hcode with rfl | rfl
  · -- the zero before the three bytes is the code's own
    have hzero : (x ++ ([0, 0, 0, 1] ++ p)).getD (x.length + 0) 0 = 0 := by
      rw [getD_append_add]
      rfl
    rw [if_pos ⟨by simp, hzero⟩]
    simp
  · rcases List.eq_nil_or_concat x with rfl | ⟨y, b, rfl⟩
    · rfl
    · have hb : b ≠ 0 := by
        rintro rfl
        exact hx rfl y List.concat_eq_append
      have hbefore : (y.concat b ++ ([0, 0, 1] ++ p)).getD ((y.concat b).length + 0 - 1) 0 = b := by
        simp
      rw [List.length_cons, List.length_cons, List.length_cons, List.length_nil, Nat.sub_self,
        hbefore, if_neg fun hall => hb hall.2]
      simp

theorem quiet_concat {b : UInt8} (h : Quiet (x ++ [b]) r) : codeLen (b :: r) = 0 := by
  have hdrop := quiet_drop (k := x.length) h (by simp)
  rwa [List.drop_left, List.singleton_append] at hdrop

/-- The byte before a unit is no zero that would belong to the unit's code. -/
theorem byte_before {b : UInt8} (hg : Quiet g (us ++ [u]).flatten) (h : Cut (us ++ [u]))
    (hx : g ++ us.flatten = x ++ [b]) : codeLen (b :: u) = 0 ∨ b = 1 := by
  rcases List.eq_nil_or_concat us with rfl | ⟨vs, v, rfl⟩
  · rw [List.flatten_nil, List.append_nil] at hx
    rw [hx] at hg
    have hnone := quiet_concat hg
    rw [List.nil_append, List.flatten_singleton] at hnone
    exact .inl hnone
  · rw [List.concat_eq_append] at h hx
    rw [List.append_assoc] at h
    obtain ⟨code, p, rfl, hcode, hquiet, _⟩ := cut_cons.mp (cut_right h)
    rw [List.flatten_append, List.flatten_singleton, ← List.append_assoc, ← List.append_assoc] at hx
    have hquiet : Quiet p [u].flatten := hquiet
    rw [List.flatten_singleton] at hquiet
    rcases List.eq_nil_or_concat p with rfl | ⟨y, b', rfl⟩
    · right
      rw [List.append_nil] at hx
      have hlast := congrArg List.getLast? hx
      rw [List.getLast?_concat] at hlast
      rcases hcode with rfl | rfl
      · simpa using hlast.symm
      · simpa using hlast.symm
    · left
      rw [List.concat_eq_append] at hx hquiet
      rw [← List.append_assoc] at hx
      obtain rfl : b' = b := List.singleton_inj.mp (List.append_inj' hx rfl).2
      exact quiet_concat hquiet

/-- On a buffer of units the search finds the last of them. -/
theorem findLastStartCode_cut (hg : Quiet g (us ++ [u]).flatten) (h : Cut (us ++ [u])) :
    findLastStartCode (g ++ (us ++ [u]).flatten) = some (g ++ us.flatten).length := by
  obtain ⟨code, p, rfl, hcode, hquiet, _⟩ := cut_cons.mp (cut_right h)
  rw [List.flatten_append, List.flatten_singleton, ← List.append_assoc]
  apply findLastStartCode_some hcode hquiet
  rintro rfl y hy
  have hzero := byte_before hg h hy
  have hfour := codeLen_code (.inl rfl) p
  rcases hzero with hzero | hzero
  · have hsame : (0 : UInt8) :: ([0, 0, 1] ++ p) = [0, 0, 0, 1] ++ p := rfl
    rw [hsame, hfour] at hzero
    cases hzero
  · cases hzero

/-! ### The specification on a buffer of units -/

theorem beforeLastCode_none (hg : Quiet g []) : startCodeOffsets g = [] := by
  have hcodes : (startCodeOffsets (g ++ ([] : List Bytes).flatten)).map Prod.fst = [] :=
    startCodes_cut hg .nil
  rw [List.flatten_nil, List.append_nil] at hcodes
  exact List.map_eq_nil_iff.mp hcodes

theorem fromFirstCode_none (hg : Quiet g []) : fromFirstCode g = [] := by
  have hnone : fromFirstCode (g ++ ([] : List Bytes).flatten) = ([] : List Bytes).flatten :=
    fromFirstCode_cut hg .nil
  rwa [List.flatten_nil, List.append_nil] at hnone

theorem fromFirstCode_ne_nil (hg : Quiet g (us ++ [u]).flatten) (h : Cut (us ++ [u])) :
    fromFirstCode (g ++ (us ++ [u]).flatten) ≠ [] := by
  rw [fromFirstCode_cut hg h]
  intro hnil
  have hu := List.flatten_eq_nil_iff.mp hnil u (List.mem_append_right _ (List.mem_singleton_self u))
  exact unit_ne_nil h (List.mem_append_right _ (List.mem_singleton_self u)) hu

theorem beforeLastCode_cut (hg : Quiet g (us ++ [u]).flatten) (h : Cut (us ++ [u])) :
    beforeLastCode (g ++ (us ++ [u]).flatten) = g ++ us.flatten := by
  have hcodes := congrArg List.getLast? (startCodes_cut hg h)
  rw [List.length_append, List.length_singleton, List.range_succ, List.map_append,
    List.map_singleton, List.getLast?_concat, List.getLast?_map, Option.map_eq_some_iff] at hcodes
  obtain ⟨code, hlast, hstart⟩ := hcodes
  have htake : (us ++ [u]).take us.length = us := List.take_left
  unfold beforeLastCode
  rw [hlast]
  dsimp only
  rw [hstart, htake, List.flatten_append, ← List.append_assoc]
  exact List.take_left' (by simp)

/-! ### One read -/

theorem auHasSlice_closed {unit : List Bytes} (h : Cut unit) (hclosed : Closed isSliceNal unit) :
    auHasSlice unit.flatten = true := by
  obtain ⟨init, n, rfl, hn, _⟩ := hclosed
  rw [auHasSlice, splitNals_run h, List.any_eq_true]
  exact ⟨n, List.mem_append_right _ (List.mem_singleton_self n), hn⟩

theorem auHasSlice_open {unit : List Bytes} (h : Cut unit)
    (hopen : ∀ n ∈ unit, isSliceNal n = false) : auHasSlice unit.flatten = false := by
  rw [auHasSlice, splitNals_run h, List.any_eq_false]
  intro n hn
  have := hopen n hn
  rw [isSliceNal] at this
  simp [this]

/-- The closed groups go out, the open one comes before the rest. -/
theorem pushBack_cut (h : Cut us) (hg : Quiet g us.flatten) (leftover : Bytes) :
    pushBack (groupAccessUnits (g ++ us.flatten)) leftover =
      ((cut isSliceNal us).1.map List.flatten, (cut isSliceNal us).2.flatten ++ leftover) := by
  obtain ⟨hclosed, hopen, hall⟩ := cut_spec isSliceNal us
  rw [groupAccessUnits_cut hg h, groups]
  by_cases hnil : (cut isSliceNal us).2 = []
  · rw [if_pos hnil, List.append_nil, hnil, List.flatten_nil, List.nil_append]
    unfold pushBack
    cases hlast : ((cut isSliceNal us).1.map List.flatten).getLast? with
    | none => rfl
    | some last =>
      obtain ⟨unit, hunit, rfl⟩ := List.mem_map.mp (List.mem_of_getLast? hlast)
      have hcut : Cut unit :=
        cut_mem_groups h (by rw [groups]; exact List.mem_append_left _ hunit)
      dsimp only
      rw [if_pos (auHasSlice_closed hcut (hclosed unit hunit))]
  · have hcut : Cut (cut isSliceNal us).2 := by
      rw [← hall] at h
      exact cut_right h
    rw [if_neg hnil, List.map_append, List.map_singleton]
    unfold pushBack
    rw [List.getLast?_concat]
    dsimp only
    rw [if_neg (by simp [auHasSlice_open hcut hopen]), List.dropLast_concat]

theorem available_eq (bs : Bytes) :
    available bs = (pushBack (groupAccessUnits (beforeLastCode bs)) []).1 := by
  unfold available pushBack
  dsimp only
  split
  · split
    · rfl
    · rfl
  · rfl

theorem available_none (h : startCodeOffsets g = []) : available g = [] := by
  have hempty := pushBack_cut (g := []) .nil trivial []
  rw [available_eq, beforeLastCode, h]
  exact congrArg Prod.fst hempty

theorem available_cut (hg : Quiet g (us ++ [u]).flatten) (h : Cut (us ++ [u])) :
    available (g ++ (us ++ [u]).flatten) = (cut isSliceNal us).1.map List.flatten := by
  have hquiet : Quiet g us.flatten := by
    rw [List.flatten_append] at hg
    exact quiet_mono hg
  rw [available_eq, beforeLastCode_cut hg h, pushBack_cut (cut_left h) hquiet]

theorem closed_ne_nil (h : Cut us) : ∀ au ∈ (cut isSliceNal us).1.map List.flatten, au ≠ [] := by
  intro au hau
  obtain ⟨unit, hunit, rfl⟩ := List.mem_map.mp hau
  obtain ⟨init, n, rfl, _, _⟩ := (cut_spec isSliceNal us).1 unit hunit
  have hcut : Cut (init ++ [n]) :=
    cut_mem_groups h (by rw [groups]; exact List.mem_append_left _ hunit)
  have hn := unit_ne_nil hcut (List.mem_append_right _ (List.mem_singleton_self n))
  intro hnil
  exact hn (List.flatten_eq_nil_iff.mp hnil n (List.mem_append_right _ (List.mem_singleton_self n)))

/-- A read that leaves no code in the buffer only adds to it. -/
theorem feed_none {s : ScreenRecordVideoSource} (hbs : s.leftover ++ bs = g) (hg : Quiet g []) :
    feed s bs = { s with leftover := g, delivered := s.delivered ++ bs } := by
  unfold feed
  dsimp only
  rw [hbs, findLastStartCode_none hg]

/-- A read queues the closed groups of all units but the last. -/
theorem feed_cut {s : ScreenRecordVideoSource} (hbs : s.leftover ++ bs = g ++ (us ++ [u]).flatten)
    (hg : Quiet g (us ++ [u]).flatten) (h : Cut (us ++ [u])) :
    feed s bs = { s with
      delivered := s.delivered ++ bs
      leftover := (cut isSliceNal us).2.flatten ++ u
      queued := s.queued ++ (cut isSliceNal us).1.map List.flatten } := by
  have hquiet : Quiet g us.flatten := by
    rw [List.flatten_append] at hg
    exact quiet_mono hg
  have hfilter : ((cut isSliceNal us).1.map List.flatten).filter (· ≠ []) =
      (cut isSliceNal us).1.map List.flatten := by
    rw [List.filter_eq_self]
    intro au hau
    exact decide_eq_true (closed_ne_nil (cut_left h) au hau)
  have hparts : g ++ (us ++ [u]).flatten = (g ++ us.flatten) ++ u := by
    rw [List.flatten_append, List.flatten_singleton, List.append_assoc]
  unfold feed
  dsimp only
  rw [hbs, findLastStartCode_cut hg h]
  dsimp only
  rw [hparts, List.take_left, List.drop_left]
  split
  · rw [pushBack_cut (cut_left h) hquiet]
    dsimp only
    rw [hfilter]
  · rename_i hempty
    have hnil : us = [] := by
      cases us with
      | nil => rfl
      | cons v vs =>
        have hv := unit_ne_nil h (List.mem_append_left _ (List.mem_cons_self ..))
        rw [ne_eq, not_not, List.append_eq_nil_iff, List.flatten_eq_nil_iff] at hempty
        exact (hv (hempty.2 v (List.mem_cons_self ..))).elim
    subst hnil
    simp [cut]

/-! ### All reads so far -/

/-- The bytes read as garbage and units: before the first code they are all kept; then the units but
the last are cut into groups, of which the open one is kept, before the last unit. -/
inductive Extracted (delivered : Bytes) (units : List Bytes) (leftover : Bytes) : Prop
  | garbage (hquiet : Quiet delivered []) (hunits : units = []) (hkept : leftover = delivered)
  | cut {g u : Bytes} {us : List Bytes} (hbytes : delivered = g ++ (us ++ [u]).flatten)
      (hquiet : Quiet g (us ++ [u]).flatten) (hcut : Cut (us ++ [u]))
      (hunits : units = (cut isSliceNal us).1.map List.flatten)
      (hkept : leftover = (cut isSliceNal us).2.flatten ++ u)

/-- Units that are read anew begin with the code that the old last unit began with. -/
theorem exists_units (h : Cut [u]) (bs : Bytes) :
    ∃ ws w, u ++ bs = (ws ++ [w]).flatten ∧ Cut (ws ++ [w]) := by
  obtain ⟨g, us, hsplit, hquiet, hcut⟩ := exists_cut (u ++ bs)
  obtain ⟨code, p, rfl, hcode, _, _⟩ := cut_cons.mp h
  have hlen := codeLen_code hcode (p ++ bs)
  have hthree := three_le_code hcode
  rw [← List.append_assoc, hsplit] at hlen
  cases g with
  | cons b g =>
    rw [List.cons_append, hquiet.1] at hlen
    omega
  | nil =>
    rcases List.eq_nil_or_concat us with rfl | ⟨ws, w, rfl⟩
    · have hnone : codeLen ([] ++ ([] : List Bytes).flatten) = 0 := by decide
      omega
    · rw [List.concat_eq_append] at hsplit hcut
      exact ⟨ws, w, hsplit, hcut⟩

/-- One read keeps the picture. -/
theorem extracted_feed {s : ScreenRecordVideoSource} {out : List Bytes}
    (h : Extracted s.delivered (out ++ s.queued) s.leftover) :
    Extracted (feed s bs).delivered (out ++ (feed s bs).queued) (feed s bs).leftover := by
  cases h with
  | garbage hquiet hunits hkept =>
    obtain ⟨hout, hqueued⟩ := List.append_eq_nil_iff.mp hunits
    obtain ⟨g, us, hsplit, hg, hcut⟩ := exists_cut (s.leftover ++ bs)
    rcases List.eq_nil_or_concat us with rfl | ⟨vs, u, rfl⟩
    · rw [List.flatten_nil, List.append_nil] at hsplit
      rw [List.flatten_nil] at hg
      rw [feed_none hsplit hg]
      dsimp only
      rw [← hkept, hsplit]
      exact .garbage hg hunits rfl
    · rw [List.concat_eq_append] at hsplit hg hcut
      rw [feed_cut hsplit hg hcut]
      refine .cut (hkept ▸ hsplit) hg hcut ?_ rfl
      rw [hout, hqueued]
      rfl
  | @cut g u us hbytes hquiet hcut hunits hkept =>
    obtain ⟨_, _, hall⟩ := cut_spec isSliceNal us
    obtain ⟨ws, w, hsplit, hws⟩ := exists_units (cut_right hcut) bs
    have hnew : Cut (us ++ ws ++ [w]) := by
      rw [List.append_assoc]
      exact cut_extend hcut hws hsplit.symm
    have hflat : (us ++ ws ++ [w]).flatten = (us ++ [u]).flatten ++ bs := by
      rw [List.append_assoc, List.flatten_append, ← hsplit, List.flatten_append,
        List.flatten_singleton, List.append_assoc]
    have hlong : 3 ≤ (us ++ [u]).flatten.length := by
      have := three_le_unit (cut_right hcut)
      rw [List.flatten_append, List.flatten_singleton, List.length_append]
      omega
    -- the buffer is the open group and the units that are read anew
    have hbuf : s.leftover ++ bs = [] ++ ((cut isSliceNal us).2 ++ ws ++ [w]).flatten := by
      rw [hkept, List.append_assoc, hsplit, List.nil_append, List.append_assoc,
        ← List.flatten_append]
    have hopen : Cut ((cut isSliceNal us).2 ++ ws ++ [w]) := by
      rw [← hall, List.append_assoc, List.append_assoc] at hnew
      rw [List.append_assoc]
      exact cut_right hnew
    have happend := cut_append isSliceNal us ws
    have hbytes' : s.delivered ++ bs = g ++ (us ++ ws ++ [w]).flatten := by
      rw [hflat, ← List.append_assoc, ← hbytes]
    have hquiet' : Quiet g (us ++ ws ++ [w]).flatten := by
      rw [hflat]
      exact quiet_extend hlong hquiet bs
    rw [feed_cut hbuf trivial hopen]
    refine .cut hbytes' hquiet' hnew ?_ ?_
    · rw [happend, List.map_append, ← hunits, List.append_assoc]
    · rw [happend]

/-! ### All calls -/

theorem saturatingAdd_min (k i : Nat) :
    saturatingAdd (min (k * i) (2 ^ 64 - 1)) i = min ((k + 1) * i) (2 ^ 64 - 1) := by
  unfold saturatingAdd
  rw [Nat.succ_mul]
  omega

/-- What holds between the calls, and at every turn of the loop. -/
structure Inv (fps : UInt32) (reads rest : List ReadResult) (s : ScreenRecordVideoSource)
    (frames : List VideoFrame) : Prop where
  delivered : ∃ used, reads = used ++ rest ∧ s.delivered = bytesOf used
  extracted : Extracted s.delivered (frames.map VideoFrame.annex_b ++ s.queued) s.leftover
  interval : s.frame_interval_us = 1000000 / max fps.toNat 1
  next_pts : s.pts_us = min (frames.length * s.frame_interval_us) (2 ^ 64 - 1)
  pts : ∀ k f, frames[k]? = some f → f.pts_us = min (k * s.frame_interval_us) (2 ^ 64 - 1)

variable {fps : UInt32} {reads rest : List ReadResult} {s s' : ScreenRecordVideoSource}
  {frames : List VideoFrame} {f : VideoFrame}

theorem inv_spawn (fps : UInt32) (reads : List ReadResult) :
    Inv fps reads reads (spawn fps reads) [] where
  delivered := ⟨[], rfl, rfl⟩
  extracted := .garbage trivial rfl rfl
  interval := rfl
  next_pts := by simp [spawn]
  pts k f h := by cases h

/-- The state of the pipe is not looked at. -/
theorem inv_stdout (h : Inv fps reads rest s frames) (stdout : Option (List ReadResult)) :
    Inv fps reads rest { s with stdout } frames :=
  ⟨h.delivered, h.extracted, h.interval, h.next_pts, h.pts⟩

theorem inv_popQueued (h : Inv fps reads rest s frames) (hpop : popQueued s = some (f, s')) :
    Inv fps reads rest s' (frames ++ [f]) := by
  unfold popQueued at hpop
  split at hpop
  · rename_i au queued hqueued
    cases hpop
    refine ⟨h.delivered, ?_, h.interval, ?_, ?_⟩
    · have hextracted := h.extracted
      rw [hqueued] at hextracted
      rw [List.map_append, List.append_assoc]
      exact hextracted
    · dsimp only
      rw [h.next_pts, saturatingAdd_min, List.length_append, List.length_singleton]
    · intro k g hg
      rcases Nat.lt_or_ge k frames.length with hlt | hge
      · rw [List.getElem?_append_left hlt] at hg
        exact h.pts k g hg
      · rw [List.getElem?_append_right hge, List.getElem?_singleton] at hg
        split at hg
        · cases hg
          rw [show k = frames.length by omega]
          exact h.next_pts
        · cases hg
  · cases hpop

/-- A read touches the buffers only. -/
theorem feed_fields (s : ScreenRecordVideoSource) (bs : Bytes) :
    (feed s bs).delivered = s.delivered ++ bs ∧ (feed s bs).pts_us = s.pts_us ∧
      (feed s bs).frame_interval_us = s.frame_interval_us := by
  unfold feed
  dsimp only
  split
  · exact ⟨rfl, rfl, rfl⟩
  · split
    · exact ⟨rfl, rfl, rfl⟩
    · exact ⟨rfl, rfl, rfl⟩

theorem inv_feed (h : Inv fps reads (.ok bs :: rest) s frames) :
    Inv fps reads rest (feed s bs) frames := by
  obtain ⟨hdelivered, hpts, hinterval⟩ := feed_fields s bs
  obtain ⟨used, hused, hbytes⟩ := h.delivered
  refine ⟨⟨used ++ [.ok bs], ?_, ?_⟩, extracted_feed h.extracted, ?_, ?_, ?_⟩
  · rw [List.append_assoc]
    exact hused
  · rw [hdelivered, hbytes]
    simp [bytesOf]
  · rw [hinterval]
    exact h.interval
  · rw [hpts, hinterval]
    exact h.next_pts
  · rw [hinterval]
    exact h.pts

/-- A read without bytes adds none. -/
theorem inv_skip {read : ReadResult} (h : Inv fps reads (read :: rest) s frames)
    (hread : read = .ok [] ∨ read = .err) : Inv fps reads rest s frames := by
  obtain ⟨used, hused, hbytes⟩ := h.delivered
  refine ⟨⟨used ++ [read], ?_, ?_⟩, h.extracted, h.interval, h.next_pts, h.pts⟩
  · rw [List.append_assoc]
    exact hused
  · rw [hbytes]
    rcases hread with rfl | rfl
    · simp [bytesOf]
    · simp [bytesOf]

theorem nextFrameLoop_inv (h : Inv fps reads rest s frames) :
    ∃ rest', (nextFrameLoop s rest).2.stdout = some rest' ∧
      Inv fps reads rest' (nextFrameLoop s rest).2 (frames ++ (nextFrameLoop s rest).1.frames) := by
  induction rest generalizing s with
  | nil =>
    unfold nextFrameLoop
    split
    · rename_i f s' hpop
      exact ⟨_, rfl, inv_stdout (inv_popQueued h hpop) _⟩
    · refine ⟨_, rfl, ?_⟩
      rw [NextFrame.frames, List.append_nil]
      exact inv_stdout h _
  | cons read rest ih =>
    unfold nextFrameLoop
    split
    · rename_i f s' hpop
      exact ⟨_, rfl, inv_stdout (inv_popQueued h hpop) _⟩
    · split
      · refine ⟨_, rfl, ?_⟩
        rw [NextFrame.frames, List.append_nil]
        exact inv_stdout (inv_skip h (.inl rfl)) _
      · exact ih (inv_feed h)
      · refine ⟨_, rfl, ?_⟩
        rw [NextFrame.frames, List.append_nil]
        exact inv_stdout (inv_skip h (.inr rfl)) _

theorem call_inv {c : Call} {x : ScreenRecordVideoSource × List VideoFrame}
    (h : Inv fps reads rest x.1 x.2) (hpipe : x.1.stdout = some rest ∨ x.1.stdout = none) :
    ∃ rest', Inv fps reads rest' (call x c).1 (call x c).2 ∧
      ((call x c).1.stdout = some rest' ∨ (call x c).1.stdout = none) := by
  cases c with
  | close => exact ⟨rest, inv_stdout h none, .inr rfl⟩
  | nextFrame =>
    unfold call nextFrame
    rcases hpipe with hpipe | hpipe
    · rw [hpipe]
      obtain ⟨rest', hstdout, hinv⟩ := nextFrameLoop_inv h
      exact ⟨rest', hinv, .inl hstdout⟩
    · rw [hpipe]
      dsimp only
      split
      · rename_i f s' hpop
        refine ⟨rest, inv_popQueued h hpop, .inr ?_⟩
        unfold popQueued at hpop
        split at hpop
        · cases hpop
          exact hpipe
        · cases hpop
      · refine ⟨rest, ?_, .inr hpipe⟩
        rw [NextFrame.frames, List.append_nil]
        exact h

theorem run_inv (fps : UInt32) (reads : List ReadResult) (cs : List Call) :
    ∃ rest, Inv fps reads rest (run fps reads cs).1 (run fps reads cs).2 ∧
      ((run fps reads cs).1.stdout = some rest ∨ (run fps reads cs).1.stdout = none) := by
  induction cs using List.reverseRecOn with
  | nil => exact ⟨reads, inv_spawn fps reads, .inl rfl⟩
  | append_singleton cs c ih =>
    obtain ⟨rest, hinv, hpipe⟩ := ih
    have hrun : run fps reads (cs ++ [c]) = call (run fps reads cs) c := by
      rw [run, List.foldl_append]
      rfl
    rw [hrun]
    exact call_inv hinv hpipe

theorem extracts_of_inv (h : Inv fps reads rest s frames)
    (hpipe : s.stdout = some rest ∨ s.stdout = none) : Extracts fps reads s frames := by
  obtain ⟨used, hused, hbytes⟩ := h.delivered
  have hpts := h.pts
  rw [h.interval] at hpts
  refine ⟨⟨used, rest, hused, hbytes, hpipe⟩, ?_, hpts, ?_, ?_⟩
  · cases h.extracted with
    | garbage hquiet hunits hkept => rw [hunits, available_none (beforeLastCode_none hquiet)]
    | cut hsplit hquiet hcut hunits hkept => rw [hunits, hsplit, available_cut hquiet hcut]
  · intro hcodes
    cases h.extracted with
    | garbage hquiet hunits hkept => exact (hcodes (fromFirstCode_none hquiet)).elim
    | @cut g u us hsplit hquiet hcut hunits hkept =>
      rw [hunits, hkept, hsplit, fromFirstCode_cut hquiet hcut, ← List.append_assoc,
        ← List.flatten_flatten, ← List.flatten_append, (cut_spec isSliceNal us).2.2,
        List.flatten_append, List.flatten_singleton]
  · intro hnone
    cases h.extracted with
    | garbage hquiet hunits hkept =>
      obtain ⟨hframes, hqueued⟩ := List.append_eq_nil_iff.mp hunits
      exact ⟨List.map_eq_nil_iff.mp hframes, hqueued, hkept⟩
    | cut hsplit hquiet hcut hunits hkept =>
      rw [hsplit] at hnone
      exact (fromFirstCode_ne_nil hquiet hcut hnone).elim

/-! ### The end of the reads -/

variable {x : ScreenRecordVideoSource × List VideoFrame} {read : ReadResult} {au : Bytes}
  {queued : List Bytes}

theorem nextFrameLoop_stdout (s : ScreenRecordVideoSource) (rest : List ReadResult) :
    ∃ rest', (nextFrameLoop s rest).2.stdout = some rest' ∧ rest'.length ≤ rest.length := by
  induction rest generalizing s with
  | nil =>
    unfold nextFrameLoop
    split
    · exact ⟨_, rfl, Nat.le_refl _⟩
    · exact ⟨_, rfl, Nat.le_refl _⟩
  | cons read rest ih =>
    have hle : rest.length ≤ (read :: rest).length := Nat.le_succ _
    unfold nextFrameLoop
    split
    · exact ⟨_, rfl, Nat.le_refl _⟩
    · split
      · exact ⟨_, rfl, hle⟩
      · obtain ⟨rest', hstdout, hless⟩ := ih (feed s _)
        exact ⟨rest', hstdout, hless.trans hle⟩
      · exact ⟨_, rfl, hle⟩

/-- A call takes from the queue. -/
theorem call_queued (hpipe : x.1.stdout = some rest) (hqueued : x.1.queued = au :: queued) :
    (call x .nextFrame).1.stdout = some rest ∧ (call x .nextFrame).1.queued = queued := by
  have hpop : popQueued x.1 = some (⟨au, x.1.pts_us, auHasIdr au⟩,
      { x.1 with queued, pts_us := saturatingAdd x.1.pts_us x.1.frame_interval_us }) := by
    rw [popQueued, hqueued]
  rw [call, nextFrame, hpipe]
  cases rest with
  | nil =>
    unfold nextFrameLoop
    rw [hpop]
    exact ⟨rfl, rfl⟩
  | cons read rest =>
    unfold nextFrameLoop
    rw [hpop]
    exact ⟨rfl, rfl⟩

/-- With an empty queue it takes a read. -/
theorem call_reads (hpipe : x.1.stdout = some (read :: rest)) (hqueued : x.1.queued = []) :
    ∃ rest', (call x .nextFrame).1.stdout = some rest' ∧ rest'.length ≤ rest.length := by
  have hpop : popQueued x.1 = none := by
    rw [popQueued, hqueued]
  rw [call, nextFrame, hpipe]
  unfold nextFrameLoop
  rw [hpop]
  dsimp only
  split
  · exact ⟨rest, rfl, Nat.le_refl _⟩
  · exact nextFrameLoop_stdout (feed x.1 _) rest
  · exact ⟨rest, rfl, Nat.le_refl _⟩

/-- Each call leaves fewer reads, or as many and a shorter queue. -/
theorem calls_drain (hpipe : x.1.stdout = some rest) :
    ∃ n, ((List.replicate n Call.nextFrame).foldl call x).1.stdout = some [] ∧
      ((List.replicate n Call.nextFrame).foldl call x).1.queued = [] := by
  induction hlen : rest.length using Nat.strong_induction_on generalizing x rest with
  | _ len ihlen =>
    induction hqueued : x.1.queued generalizing x with
    | nil =>
      cases rest with
      | nil => exact ⟨0, hpipe, hqueued⟩
      | cons read rest =>
        obtain ⟨rest', hpipe', hle⟩ := call_reads hpipe hqueued
        have hlt : rest'.length < len := by
          rw [← hlen, List.length_cons]
          omega
        obtain ⟨n, hn⟩ := ihlen _ hlt hpipe' rfl
        exact ⟨n + 1, hn⟩
    | cons au queued ih =>
      obtain ⟨hpipe', hqueued'⟩ := call_queued hpipe hqueued
      obtain ⟨n, hn⟩ := ih hpipe' hqueued'
      exact ⟨n + 1, hn⟩

/-- Only `close` takes the pipe away. -/
theorem run_open {cs : List Call} (fps : UInt32) (reads : List ReadResult) (hcs : .close ∉ cs) :
    ∃ rest, (run fps reads cs).1.stdout = some rest := by
  induction cs using List.reverseRecOn with
  | nil => exact ⟨reads, rfl⟩
  | append_singleton cs c ih =>
    obtain ⟨rest, hpipe⟩ := ih fun h => hcs (List.mem_append_left _ h)
    have hrun : run fps reads (cs ++ [c]) = call (run fps reads cs) c := by
      rw [run, List.foldl_append]
      rfl
    rw [hrun]
    cases c with
    | close => exact (hcs (List.mem_append_right _ (List.mem_singleton_self _))).elim
    | nextFrame =>
      obtain ⟨rest', hstdout, -⟩ := nextFrameLoop_stdout (run fps reads cs).1 rest
      refine ⟨rest', ?_⟩
      rw [call, nextFrame, hpipe]
      exact hstdout

/-- Called often enough, `next_frame` returns every unit of all that there is to read. -/
theorem run_drains {cs : List Call} (fps : UInt32) (reads : List ReadResult) (hcs : .close ∉ cs) :
    ∃ n, (run fps reads (cs ++ List.replicate n .nextFrame)).1.delivered = bytesOf reads ∧
      (run fps reads (cs ++ List.replicate n .nextFrame)).2.map VideoFrame.annex_b =
        available (bytesOf reads) := by
  obtain ⟨rest₀, hopen⟩ := run_open fps reads hcs
  obtain ⟨n, hdrained⟩ := calls_drain hopen
  have hrun : run fps reads (cs ++ List.replicate n .nextFrame) =
      (List.replicate n Call.nextFrame).foldl call (run fps reads cs) := List.foldl_append
  rw [← hrun] at hdrained
  obtain ⟨hstdout, hqueued⟩ := hdrained
  obtain ⟨rest, hinv, hpipe⟩ := run_inv fps reads (cs ++ List.replicate n .nextFrame)
  obtain ⟨used, hused, hbytes⟩ := hinv.delivered
  have hnone : rest = [] := by
    rcases hpipe with hpipe | hpipe
    · exact Option.some.inj (hpipe.symm.trans hstdout)
    · cases hpipe.symm.trans hstdout
  rw [hnone, List.append_nil] at hused
  have hall : (run fps reads (cs ++ List.replicate n .nextFrame)).1.delivered = bytesOf reads := by
    rw [hbytes, hused]
  have hunits := (extracts_of_inv hinv hpipe).units
  rw [hqueued, List.append_nil, hall] at hunits
  exact ⟨n, hall, hunits⟩

/-- Whatever calls are made and however the reads come, the units are those of the bytes read; and
unless the source is closed, enough further calls read everything and return all of its units. -/
theorem run_extracts (fps : UInt32) (reads : List ReadResult) (cs : List Call) :
    Extracts fps reads (run fps reads cs).1 (run fps reads cs).2 ∧
    (.close ∉ cs → ∃ n,
      (run fps reads (cs ++ List.replicate n .nextFrame)).1.delivered = bytesOf reads ∧
      (run fps reads (cs ++ List.replicate n .nextFrame)).2.map VideoFrame.annex_b =
        available (bytesOf reads)) := by
  obtain ⟨rest, hinv, hpipe⟩ := run_inv fps reads cs
  exact ⟨extracts_of_inv hinv hpipe, run_drains fps reads⟩

/-- Both start codes behind the first are cut by a read boundary, and a read fails in between. -/
def cutReads : List ReadResult :=
  [.ok [0, 0, 0, 1, 0x67, 1, 0], .err, .ok [0, 1, 0x65, 7, 0, 0], .ok [0, 1, 0x41, 8, 0, 0, 1, 9]]

theorem run_extracts_two : ∃ n,
    (run 30 cutReads (.nextFrame :: List.replicate n .nextFrame)).2.map VideoFrame.annex_b =
      [[0, 0, 0, 1, 0x67, 1, 0, 0, 1, 0x65, 7], [0, 0, 0, 1, 0x41, 8]] := by
  obtain ⟨n, -, hunits⟩ := (run_extracts 30 cutReads [.nextFrame]).2 (by decide)
  have havailable : available (bytesOf cutReads) =
      [[0, 0, 0, 1, 0x67, 1, 0, 0, 1, 0x65, 7], [0, 0, 0, 1, 0x41, 8]] := by
    decide +kernel
  exact ⟨n, hunits.trans havailable⟩

end Aabox.ScreenRecord
