import Aabox.FlowControl

/-!
# Winding down after the pipeline is dropped

The generation's senders and the queue's receiver are gone. A task goes on by itself; the other
tasks may only count the frames that they have sent before.
-/
namespace Aabox.WindDown
open Aabox.Lib Aabox.Messages Aabox.Audio Aabox.Video

/-- The exits on which the task has called its source's `close`. -/
def closesSource : StreamerEvent → Bool
  | .checkGeneration | .changed | .sendFailed => true
  | _ => false

/-- Whether the event is in keeping with `next_frame` returning `r`. -/
def Returns (r : Option (UInt64 × Bytes)) : StreamerEvent → Prop
  | .frame pts_us annex_b => r = some (pts_us, annex_b)
  | .exhausted => r = none
  | _ => True

/-- The pipeline after the drop, as one task sees it: whether its wait at the cap may have begun
before the drop, and whether it has called its source's `close`. -/
structure Down where
  pipe : VideoPipeline
  asleep : Bool
  closed : Bool
  deriving DecidableEq, Repr

inductive Event
  | own (ev : StreamerEvent)
  | other (j : Nat) (ev : StreamerEvent)
  deriving DecidableEq, Repr

def Event.isOwn : Event → Bool
  | .own _ => true
  | .other _ _ => false

def Exited (p : VideoPipeline) (i : Nat) : Bool := p.streamers[i]? = some none

variable {i j k n : Nat} {r : Option (UInt64 × Bytes)} {s t : Down} {e : Event} {xs : List Event}
  {p p' q : VideoPipeline} {st st' : Streamer} {ev : StreamerEvent} {a c : Bool}

/-- The steps after the drop, task `i`'s own and those of the others. On a closed watch `changed` is
ready at its first poll, so a wait that begins now is not ended by its timer. -/
inductive Step (i : Nat) (r : Option (UInt64 × Bytes)) : Down → Event → Down → Prop
  | own {s : Down} {st : Streamer} {ev : StreamerEvent} {p : VideoPipeline}
    (hi : s.pipe.streamers[i]? = some (some st)) (hp : stepStreamer s.pipe i st ev = some p)
    (hwake : ev = .wake → s.asleep = true) (hr : Returns r ev) :
    Step i r s (.own ev)
      { pipe := p, asleep := false, closed := s.closed || Exited p i && closesSource ev }
  | other {s : Down} {j : Nat} {st : Streamer} {ev : StreamerEvent} {p : VideoPipeline} (hij : j ≠ i)
    (hj : s.pipe.streamers[j]? = some (some st)) (hp : stepStreamer s.pipe j st ev = some p) :
    Step i r s (.other j ev) { s with pipe := p }

/-- The task takes boundedly many steps, is never stuck but for `next_frame`, and has closed its
source once it has returned. -/
structure WindsDown (p : VideoPipeline) (i : Nat) (r : Option (UInt64 × Bytes)) : Prop where
  bounded : ∃ n, ∀ xs t, Run (Step i r) ⟨p, true, false⟩ xs t → xs.countP Event.isOwn ≤ n
  enabled : ∀ xs t, Run (Step i r) ⟨p, true, false⟩ xs t → Exited t.pipe i = false →
    ∃ ev u, Step i r t (.own ev) u
  closes : ∀ xs t, Run (Step i r) ⟨p, true, false⟩ xs t → Exited t.pipe i = true → t.closed = true

def isCounting (x : Option Streamer) : Bool := x.any (·.pc = .counting)

/-- The frames that were sent and are still to be counted. -/
def pending (p : VideoPipeline) : Nat := p.streamers.countP isCounting

/-- What is counted in any case before the task checks the cap. -/
def own (st : Streamer) : Nat := if st.pc = .counting then 1 else 0

/-- Whatever the other tasks count in the meantime, the task sees at the cap a counter that meets
`P`. -/
def Sees (p : VideoPipeline) (st : Streamer) (P : UInt32 → Prop) : Prop :=
  ∀ m, own st ≤ m → m ≤ pending p → P (p.in_flight + UInt32.ofNat m)

/-- The task may come to the cap check; `asleep` as in `Down`. -/
def ComesToCap (p : VideoPipeline) (st : Streamer) (asleep : Bool) : Prop :=
  match st.pc with
  | .capCheck => True
  | .capped => p.generation = st.my_gen ∨ asleep = true
  | .top | .counting => p.generation = st.my_gen
  | _ => False

/-- The task is of the current generation and on its way to the cap check. -/
def Loops (p : VideoPipeline) (st : Streamer) : Prop :=
  p.generation = st.my_gen ∧ ComesToCap p st true

/-- A task that still loops always finds room below the cap, and one whose source is exhausted does
not come to ask it for a frame. -/
def Good (p : VideoPipeline) (st : Streamer) (r : Option (UInt64 × Bytes)) : Prop :=
  (Loops p st → Sees p st (· < p.max_in_flight)) ∧
    (r = none → st.pc ≠ .fetching ∧
      (ComesToCap p st true → Sees p st (p.max_in_flight ≤ ·)))

/-- What an event of a task does to its slot once the queue is closed. -/
inductive Moved (p : VideoPipeline) (st : Streamer) : StreamerEvent → Option Streamer → Prop
  | live (hpc : st.pc = .top) (hgen : p.generation = st.my_gen) :
    Moved p st .checkGeneration (some { st with pc := .capCheck })
  | stale (hpc : st.pc = .top) (hgen : p.generation ≠ st.my_gen) : Moved p st .checkGeneration none
  | full (hpc : st.pc = .capCheck) (hcap : p.max_in_flight ≤ p.in_flight) :
    Moved p st .checkCap (some { st with pc := .capped })
  | room (hpc : st.pc = .capCheck) (hcap : p.in_flight < p.max_in_flight) :
    Moved p st .checkCap (some { st with pc := .fetching })
  | wake (hpc : st.pc = .capped) : Moved p st .wake (some { st with pc := .capCheck })
  | changedLive (hpc : st.pc = .capped) (hgen : p.generation = st.my_gen) :
    Moved p st .changed (some { st with pc := .capCheck })
  | changedStale (hpc : st.pc = .capped) (hgen : p.generation ≠ st.my_gen) :
    Moved p st .changed none
  | frame {pts_us : UInt64} {annex_b : Bytes} {out : OutboundMessage} (hpc : st.pc = .fetching) :
    Moved p st (.frame pts_us annex_b) (some { st with pc := .sending out })
  | exhausted (hpc : st.pc = .fetching) : Moved p st .exhausted none
  | failed {out : OutboundMessage} (hpc : st.pc = .sending out) : Moved p st .sendFailed none
  | counted (hpc : st.pc = .counting) : Moved p st .count (some { st with pc := .top })

/-- The pipeline after an event that leaves `x` in slot `i`. -/
def moved (p : VideoPipeline) (i : Nat) (st : Streamer) (x : Option Streamer) : VideoPipeline :=
  { p.setStreamer i x with in_flight := p.in_flight + UInt32.ofNat (own st) }

theorem moved_of_ne (hpc : st.pc ≠ .counting) (x : Option Streamer) :
    moved p i st x = p.setStreamer i x := by
  simp [moved, own, hpc, VideoPipeline.setStreamer]

theorem step_down (hrx : p.rx_open = false) (hp : stepStreamer p i st ev = some p') :
    ∃ x, Moved p st ev x ∧ p' = moved p i st x := by
  have hmoved : ∀ {pc}, st.pc = pc → pc ≠ .counting → ∀ x, p.setStreamer i x = moved p i st x := by
    rintro pc rfl hne x
    exact (moved_of_ne hne x).symm
  cases stepStreamer_cases hp with
  | live hpc hgen => exact ⟨_, .live hpc hgen, hmoved hpc (by simp) _⟩
  | stale hpc hgen => exact ⟨_, .stale hpc hgen, hmoved hpc (by simp) _⟩
  | full hpc hcap => exact ⟨_, .full hpc hcap, hmoved hpc (by simp) _⟩
  | room hpc hcap => exact ⟨_, .room hpc hcap, hmoved hpc (by simp) _⟩
  | wake hpc => exact ⟨_, .wake hpc, hmoved hpc (by simp) _⟩
  | changedLive hpc hgen => exact ⟨_, .changedLive hpc hgen, hmoved hpc (by simp) _⟩
  | changedStale hpc hgen => exact ⟨_, .changedStale hpc hgen, hmoved hpc (by simp) _⟩
  | frame hpc => exact ⟨_, .frame hpc, hmoved hpc (by simp) _⟩
  | exhausted hpc => exact ⟨_, .exhausted hpc, hmoved hpc (by simp) _⟩
  | send _ hopen => simp [hrx] at hopen
  | sendFailed hpc => exact ⟨_, .failed hpc, hmoved hpc (by simp) _⟩
  | count hpc =>
    exact ⟨_, .counted hpc, by simp [moved, own, hpc, VideoPipeline.setStreamer]⟩

/-- No task comes to count another frame. -/
theorem moved_notCounting {x : Option Streamer} (h : Moved p st ev x) : isCounting x = false := by
  cases h <;> simp [isCounting]

theorem pending_moved (hi : p.streamers[i]? = some (some st)) {x : Option Streamer}
    (hx : isCounting x = false) : pending (moved p i st x) + own st = pending p := by
  obtain ⟨hlt, hget⟩ := List.getElem?_eq_some_iff.mp hi
  have hpos : own st ≤ pending p := by
    unfold own
    split
    · rename_i hpc
      refine List.countP_pos_iff.mpr ⟨some st, List.mem_of_getElem? hi, ?_⟩
      simp [isCounting, hpc]
    · exact Nat.zero_le _
  have hset : pending (moved p i st x) = pending p - own st := by
    simp only [pending, moved, VideoPipeline.setStreamer]
    rw [List.countP_set hlt, hget, hx]
    simp [own, isCounting]
  omega

/-- What a task sees at the cap later on, it could have seen before. -/
theorem sees_moved {P : UInt32 → Prop} (hj : p.streamers[j]? = some (some st))
    {x : Option Streamer} (hx : isCounting x = false) {b b' : Streamer} (h : Sees p b P)
    (hown : own b ≤ own b' + own st) : Sees (moved p j st x) b' P := by
  intro m hle hm
  have hcount := pending_moved hj hx
  have hsum : (moved p j st x).in_flight + UInt32.ofNat m =
      p.in_flight + UInt32.ofNat (own st + m) := by
    rw [UInt32.ofNat_add, ← UInt32.add_assoc]
    rfl
  rw [hsum]
  exact h _ (by omega) (by omega)

theorem moved_getElem (hi : p.streamers[i]? = some (some st)) (x : Option Streamer) :
    (moved p i st x).streamers[i]? = some x := by
  have hlt : i < p.streamers.length := (List.getElem?_eq_some_iff.mp hi).1
  simp [moved, VideoPipeline.setStreamer, hlt]

theorem moved_getElem_other (hij : j ≠ i) (x : Option Streamer) :
    (moved p j st x).streamers[i]? = p.streamers[i]? := by
  simp [moved, VideoPipeline.setStreamer, hij]

/-! ### What keeps a task winding down -/

structure Inv (i : Nat) (r : Option (UInt64 × Bytes)) (s : Down) : Prop where
  rx : s.pipe.rx_open = false
  present : ∃ x, s.pipe.streamers[i]? = some x
  room : ∀ st, s.pipe.streamers[i]? = some (some st) → Loops s.pipe st →
    Sees s.pipe st (· < s.pipe.max_in_flight)
  awake : ∀ st, s.pipe.streamers[i]? = some (some st) → s.pipe.generation = st.my_gen →
    st.pc = .capped → s.asleep = true
  fetches : r = none → ∀ st, s.pipe.streamers[i]? = some (some st) →
    st.pc ≠ .fetching ∧
      (ComesToCap s.pipe st s.asleep → Sees s.pipe st (s.pipe.max_in_flight ≤ ·))
  closed : Exited s.pipe i = true → s.closed = true

theorem inv_of_good (hrx : p.rx_open = false) (hi : p.streamers[i]? = some (some st))
    (h : Good p st r) : Inv i r ⟨p, true, false⟩ where
  rx := hrx
  present := ⟨some st, hi⟩
  room b hb := by
    obtain rfl : st = b := by simpa [hi] using hb
    exact h.1
  awake _ _ _ _ := rfl
  fetches hr b hb := by
    obtain rfl : st = b := by simpa [hi] using hb
    exact h.2 hr
  closed hex := by simp [Exited, hi] at hex

/-- A step of another task, which can only count, keeps the invariant. -/
theorem inv_other (h : Inv i r s) (hij : j ≠ i) (hj : s.pipe.streamers[j]? = some (some st))
    (hp : stepStreamer s.pipe j st ev = some p) : Inv i r { s with pipe := p } := by
  obtain ⟨x, hmoved, rfl⟩ := step_down h.rx hp
  have hx := moved_notCounting hmoved
  have hget := @moved_getElem_other _ _ s.pipe st hij x
  refine ⟨h.rx, by rw [hget]; exact h.present, ?_, ?_, ?_, ?_⟩
  · intro b hb hloops
    rw [hget] at hb
    exact sees_moved hj hx (h.room b hb hloops) (Nat.le_add_right _ _)
  · intro b hb
    rw [hget] at hb
    exact h.awake b hb
  · intro hr b hb
    rw [hget] at hb
    obtain ⟨hpc, hsees⟩ := h.fetches hr b hb
    exact ⟨hpc, fun hcomes => sees_moved hj hx (hsees hcomes) (Nat.le_add_right _ _)⟩
  · intro hex
    refine h.closed ?_
    simpa [Exited, hget] using hex

/-- What the task's own event has to keep, for the slot that it leaves. -/
structure Keeps (p : VideoPipeline) (st : Streamer) (asleep : Bool)
    (r : Option (UInt64 × Bytes)) (ev : StreamerEvent) (x : Option Streamer) : Prop where
  loops : ∀ b, x = some b → Loops p b → Loops p st
  awake : ∀ b, x = some b → p.generation = b.my_gen → b.pc ≠ .capped
  fetches : r = none → ∀ b, x = some b →
    b.pc ≠ .fetching ∧ (ComesToCap p b false → ComesToCap p st asleep)
  closes : x = none → closesSource ev = true

/-- How far the task is from its return. -/
def rank (asleep : Bool) : Option Streamer → Nat
  | none => 0
  | some st =>
    match st.pc with
    | .counting => 8
    | .top => 7
    | .capped => if asleep then 6 else 4
    | .capCheck => 5
    | .fetching => 3
    | .sending _ => 2

theorem sees_now {P : UInt32 → Prop} (h : Sees p st P) (hpc : st.pc ≠ .counting) :
    P p.in_flight := by
  have hnow := h 0 (by simp [own, hpc]) (Nat.zero_le _)
  simpa using hnow

theorem keeps_moved {x : Option Streamer} (h : Inv i r s)
    (hi : s.pipe.streamers[i]? = some (some st)) (hm : Moved s.pipe st ev x)
    (hwake : ev = .wake → s.asleep = true) (hr : Returns r ev) :
    Keeps s.pipe st s.asleep r ev x ∧ rank false x < rank s.asleep (some st) := by
  have hroom := h.room st hi
  have hawake := h.awake st hi
  have hfetches := fun hr => h.fetches hr st hi
  cases hm with
  | live hpc hgen =>
    refine ⟨⟨?_, ?_, ?_, ?_⟩, ?_⟩ <;> simp_all [Loops, ComesToCap, rank]
  | stale hpc hgen =>
    refine ⟨⟨?_, ?_, ?_, ?_⟩, ?_⟩ <;> simp [closesSource, rank, hpc]
  | full hpc hcap =>
    -- A task of the current generation would have found room.
    have hstale : s.pipe.generation ≠ st.my_gen := by
      intro hgen
      have hlt := sees_now (hroom ⟨hgen, by simp [ComesToCap, hpc]⟩) (by simp [hpc])
      exact absurd hcap (UInt32.not_le.mpr hlt)
    refine ⟨⟨?_, ?_, ?_, ?_⟩, ?_⟩ <;> simp_all [Loops, ComesToCap, rank]
  | room hpc hcap =>
    -- An exhausted source would have found the task at its cap.
    have hsome : r ≠ none := by
      intro hnone
      have hle := sees_now ((hfetches hnone).2 (by simp [ComesToCap, hpc])) (by simp [hpc])
      exact absurd hle (UInt32.not_le.mpr hcap)
    refine ⟨⟨?_, ?_, ?_, ?_⟩, ?_⟩ <;> simp_all [Loops, ComesToCap, rank]
  | wake hpc =>
    refine ⟨⟨?_, ?_, ?_, ?_⟩, ?_⟩ <;> simp_all [Loops, ComesToCap, rank]
  | changedLive hpc hgen =>
    refine ⟨⟨?_, ?_, ?_, ?_⟩, ?_⟩ <;> simp_all [Loops, ComesToCap, rank]
  | changedStale hpc hgen =>
    refine ⟨⟨?_, ?_, ?_, ?_⟩, ?_⟩
    · simp
    · simp
    · simp
    · simp [closesSource]
    · simp only [rank, hpc]
      split <;> omega
  | frame hpc =>
    refine ⟨⟨?_, ?_, ?_, ?_⟩, ?_⟩ <;> simp [Loops, ComesToCap, rank, hpc]
  | exhausted hpc => exact absurd hpc (hfetches hr).1
  | failed hpc =>
    refine ⟨⟨?_, ?_, ?_, ?_⟩, ?_⟩ <;> simp [closesSource, rank, hpc]
  | counted hpc =>
    refine ⟨⟨?_, ?_, ?_, ?_⟩, ?_⟩ <;> simp_all [Loops, ComesToCap, rank]

theorem inv_own {x : Option Streamer} (h : Inv i r s) (hi : s.pipe.streamers[i]? = some (some st))
    (hm : Moved s.pipe st ev x) (hk : Keeps s.pipe st s.asleep r ev x) :
    Inv i r
      { pipe := moved s.pipe i st x
        asleep := false
        closed := s.closed || Exited (moved s.pipe i st x) i && closesSource ev } := by
  have hx := moved_notCounting hm
  have hget := moved_getElem hi x
  have hsame : ∀ b, (moved s.pipe i st x).streamers[i]? = some (some b) → x = some b := by
    intro b hb
    rw [hget] at hb
    exact Option.some.inj hb
  refine ⟨h.rx, ⟨x, hget⟩, ?_, ?_, ?_, ?_⟩
  · intro b hb hloops
    exact sees_moved hi hx (h.room st hi (hk.loops b (hsame b hb) hloops)) (Nat.le_add_left _ _)
  · intro b hb hgen hpc
    exact absurd hpc (hk.awake b (hsame b hb) hgen)
  · intro hr b hb
    obtain ⟨hpc, hcomes⟩ := hk.fetches hr b (hsame b hb)
    exact ⟨hpc, fun hc =>
      sees_moved hi hx ((h.fetches hr st hi).2 (hcomes hc)) (Nat.le_add_left _ _)⟩
  · intro hex
    have hnone : x = none := by simpa [Exited, hget] using hex
    simp only at hex ⊢
    rw [hex, hk.closes hnone]
    simp

theorem inv_step (h : Inv i r s) (hs : Step i r s e t) : Inv i r t := by
  cases hs with
  | own hi hp hwake hr =>
    obtain ⟨x, hm, rfl⟩ := step_down h.rx hp
    exact inv_own h hi hm (keeps_moved h hi hm hwake hr).1
  | other hij hj hp => exact inv_other h hij hj hp

def Down.rank (s : Down) (i : Nat) : Nat :=
  (s.pipe.streamers[i]?).elim 0 (WindDown.rank s.asleep)

/-- Own steps use up the rank, and others leave it. -/
theorem rank_step (h : Inv i r s) (hs : Step i r s e t) :
    t.rank i + (if e.isOwn then 1 else 0) ≤ s.rank i := by
  cases hs with
  | own hi hp hwake hr =>
    obtain ⟨x, hm, rfl⟩ := step_down h.rx hp
    have hlt := (keeps_moved h hi hm hwake hr).2
    simp only [Down.rank, moved_getElem hi, hi, Event.isOwn, Option.elim_some, if_true]
    exact hlt
  | other hij hj hp =>
    obtain ⟨x, hm, rfl⟩ := step_down h.rx hp
    simp [Down.rank, moved_getElem_other hij, Event.isOwn]

theorem rank_run (hrun : Run (Step i r) s xs t) (h : Inv i r s) :
    xs.countP Event.isOwn + t.rank i ≤ s.rank i := by
  induction hrun with
  | refl => simp
  | stepL hs _ ih =>
    have hstep := rank_step h hs
    have hrest := ih (inv_step h hs)
    rw [List.countP_cons]
    omega

/-- Every place of the task has an event that is ready once `next_frame` returns. -/
theorem exists_ready (hrx : p.rx_open = false) (st : Streamer) (r : Option (UInt64 × Bytes)) :
    ∃ ev p', stepStreamer p i st ev = some p' ∧ ev ≠ .wake ∧ Returns r ev := by
  cases hpc : st.pc with
  | top =>
    by_cases hgen : p.generation = st.my_gen
    · exact ⟨.checkGeneration, _, by rw [stepStreamer, if_pos hpc, if_pos hgen], by simp, trivial⟩
    · exact ⟨.checkGeneration, _, by rw [stepStreamer, if_pos hpc, if_neg hgen], by simp, trivial⟩
  | capCheck =>
    by_cases hcap : p.in_flight ≥ p.max_in_flight
    · exact ⟨.checkCap, _, by rw [stepStreamer, if_pos hpc, if_pos hcap], by simp, trivial⟩
    · exact ⟨.checkCap, _, by rw [stepStreamer, if_pos hpc, if_neg hcap], by simp, trivial⟩
  | capped =>
    by_cases hgen : p.generation = st.my_gen
    · exact ⟨.changed, _, by rw [stepStreamer, if_pos hpc, if_pos hgen], by simp, trivial⟩
    · exact ⟨.changed, _, by rw [stepStreamer, if_pos hpc, if_neg hgen], by simp, trivial⟩
  | fetching =>
    cases r with
    | none => exact ⟨.exhausted, _, by rw [stepStreamer, if_pos hpc], by simp, rfl⟩
    | some frame =>
      exact ⟨.frame frame.1 frame.2, _, by rw [stepStreamer, if_pos hpc], by simp, rfl⟩
  | sending out =>
    exact ⟨.sendFailed, _, by simp only [stepStreamer, hpc, hrx]; rfl, by simp, trivial⟩
  | counting => exact ⟨.count, _, by rw [stepStreamer, if_pos hpc], by simp, trivial⟩

theorem own_enabled (h : Inv i r s) (hex : Exited s.pipe i = false) :
    ∃ ev t, Step i r s (.own ev) t := by
  obtain ⟨x, hi⟩ := h.present
  cases x with
  | none => simp [Exited, hi] at hex
  | some st =>
    obtain ⟨ev, p, hp, hne, hr⟩ := @exists_ready i s.pipe h.rx st r
    exact ⟨ev, _, .own hi hp (fun hwake => absurd hwake hne) hr⟩

theorem windsDown_of_good (hrx : p.rx_open = false) (hi : p.streamers[i]? = some (some st))
    (h : Good p st r) : WindsDown p i r := by
  have hinit : Inv i r ⟨p, true, false⟩ := inv_of_good hrx hi h
  have hinv : ∀ xs t, Run (Step i r) ⟨p, true, false⟩ xs t → Inv i r t := by
    intro xs t hrun
    exact hrun.invariant (fun _ _ _ => inv_step) hinit
  refine ⟨⟨Down.rank ⟨p, true, false⟩ i, ?_⟩, ?_, ?_⟩
  · intro xs t hrun
    have hle := rank_run hrun hinit
    omega
  · intro xs t hrun hex
    exact own_enabled (hinv xs t hrun) hex
  · intro xs t hrun hex
    exact (hinv xs t hrun).closed hex

/-! ### What keeps a task from winding down -/

/-- The other tasks may count `k` of the frames they have sent. -/
theorem count_others (r : Option (UInt64 × Bytes)) (a c : Bool) (hpc : st.pc ≠ .counting)
    (hrx : p.rx_open = false) (hi : p.streamers[i]? = some (some st)) (hk : k ≤ pending p) :
    ∃ xs q, Run (Step i r) ⟨p, a, c⟩ xs ⟨q, a, c⟩ ∧ q.rx_open = false ∧
      q.streamers[i]? = some (some st) ∧ q.generation = p.generation ∧
      q.max_in_flight = p.max_in_flight ∧ q.in_flight = p.in_flight + UInt32.ofNat k := by
  induction k generalizing p with
  | zero => exact ⟨[], p, .refl, hrx, hi, rfl, rfl, by simp⟩
  | succ k ih =>
    obtain ⟨y, hmem, hy⟩ := List.countP_pos_iff.mp (Nat.lt_of_lt_of_le (Nat.succ_pos k) hk)
    obtain ⟨j, hj⟩ := List.mem_iff_getElem?.mp hmem
    cases y with
    | none => simp [isCounting] at hy
    | some b =>
      have hb : b.pc = .counting := by simpa [isCounting] using hy
      have hij : j ≠ i := by
        rintro rfl
        obtain rfl : st = b := by simpa [hi] using hj
        exact hpc hb
      let x : Option Streamer := some { b with pc := .top }
      have hp : stepStreamer p j b .count = some (moved p j b x) := by
        rw [stepStreamer, if_pos hb]
        simp [moved, own, hb, x, VideoPipeline.setStreamer]
      have hcount := @pending_moved _ _ _ hj x (by simp [isCounting, x])
      have hown : own b = 1 := by simp [own, hb]
      obtain ⟨xs, q, hrun, hqrx, hq, hgen, hmax, hflight⟩ := @ih (moved p j b x) hrx
        (by rw [moved_getElem_other hij, hi]) (by omega)
      refine ⟨_, q, .stepL (.other hij hj hp) hrun, hqrx, hq, hgen, hmax, ?_⟩
      have hone : (moved p j b x).in_flight = p.in_flight + UInt32.ofNat 1 := by
        rw [moved, hown]
      rw [hflight, hone, UInt32.add_assoc, ← UInt32.ofNat_add, Nat.add_comm 1 k]

/-- A state in which the task is about to check the cap, and no close has been called. -/
structure AtCheck (i : Nat) (gen : UInt64) (st : Streamer) (max flight : UInt32) (s : Down) :
    Prop where
  rx : s.pipe.rx_open = false
  slot : s.pipe.streamers[i]? = some (some { st with pc := .capCheck })
  generation : s.pipe.generation = gen
  max : s.pipe.max_in_flight = max
  flight : s.pipe.in_flight = flight
  closed : s.closed = false

theorem check_after_count (r : Option (UInt64 × Bytes)) (a : Bool) (hrx : q.rx_open = false)
    (hq : q.streamers[i]? = some (some { st with pc := .capCheck })) (hk : k ≤ pending q) :
    ∃ xs t, Run (Step i r) ⟨q, a, false⟩ xs t ∧
      AtCheck i q.generation st q.max_in_flight (q.in_flight + UInt32.ofNat k) t := by
  obtain ⟨xs, u, hrun, hurx, hu, hgen, hmax, hflight⟩ :=
    count_others r a false (by simp) hrx hq hk
  exact ⟨xs, _, hrun, hurx, hu, hgen, hmax, hflight, rfl⟩

/-- An own event that leaves the task in its loop. -/
theorem own_moves (r : Option (UInt64 × Bytes)) (hi : p.streamers[i]? = some (some st))
    (hp : stepStreamer p i st ev = some (moved p i st (some st')))
    (hwake : ev = .wake → a = true) (hr : Returns r ev) :
    Step i r ⟨p, a, false⟩ (.own ev) ⟨moved p i st (some st'), false, false⟩ := by
  have hstep : Step i r ⟨p, a, false⟩ (.own ev) _ := .own hi hp hwake hr
  have hex : Exited (moved p i st (some st')) i = false := by simp [Exited, moved_getElem hi]
  simpa [hex] using hstep

/-- One own event takes the task to the cap check. -/
theorem check_after (r : Option (UInt64 × Bytes)) (hrx : p.rx_open = false)
    (hi : p.streamers[i]? = some (some st)) (hpc : st.pc ≠ .counting)
    (hp : stepStreamer p i st ev = some (p.setStreamer i (some { st with pc := .capCheck })))
    (hwake : ev = .wake → a = true) (hr : Returns r ev) (hk : k ≤ pending p) :
    ∃ xs t, Run (Step i r) ⟨p, a, false⟩ xs t ∧
      AtCheck i p.generation st p.max_in_flight (p.in_flight + UInt32.ofNat k) t := by
  rw [← moved_of_ne hpc] at hp
  have hsum := @pending_moved _ _ _ hi (some { st with pc := .capCheck }) (by simp [isCounting])
  have hzero : own st = 0 := by simp [own, hpc]
  obtain ⟨xs, t, hrun, hcheck⟩ := @check_after_count i k (moved p i st _) st r false hrx
    (moved_getElem hi _) (by omega)
  refine ⟨_, t, .stepL (own_moves r hi hp hwake hr) hrun, ?_⟩
  have hflight : (moved p i st (some { st with pc := .capCheck })).in_flight = p.in_flight := by
    simp [moved, hzero]
  rw [hflight] at hcheck
  exact hcheck

theorem top_to_check (r : Option (UInt64 × Bytes)) (a : Bool) (hrx : p.rx_open = false)
    (hi : p.streamers[i]? = some (some st)) (hpc : st.pc = .top) (hgen : p.generation = st.my_gen)
    (hk : k ≤ pending p) :
    ∃ xs t, Run (Step i r) ⟨p, a, false⟩ xs t ∧
      AtCheck i p.generation st p.max_in_flight (p.in_flight + UInt32.ofNat k) t := by
  have hp : stepStreamer p i st .checkGeneration =
      some (p.setStreamer i (some { st with pc := .capCheck })) := by
    rw [stepStreamer, if_pos hpc, if_pos hgen]
  exact check_after r hrx hi (by simp [hpc]) hp (by simp) trivial hk

/-- The task can come to the cap check and find there any of the counts it may see. -/
theorem comes_to_check (r : Option (UInt64 × Bytes)) (hrx : p.rx_open = false)
    (hi : p.streamers[i]? = some (some st)) (hcomes : ComesToCap p st true)
    (hown : own st ≤ k) (hk : k ≤ pending p) :
    ∃ xs t, Run (Step i r) ⟨p, true, false⟩ xs t ∧
      AtCheck i p.generation st p.max_in_flight (p.in_flight + UInt32.ofNat k) t := by
  cases hpc : st.pc with
  | top =>
    have hgen : p.generation = st.my_gen := by simpa [ComesToCap, hpc] using hcomes
    exact top_to_check r true hrx hi hpc hgen hk
  | capCheck =>
    have hst : { st with pc := .capCheck } = st := by rw [← hpc]
    exact check_after_count r true hrx (hst.symm ▸ hi) hk
  | capped =>
    have hp : stepStreamer p i st .wake =
        some (p.setStreamer i (some { st with pc := .capCheck })) := by
      rw [stepStreamer, if_pos hpc]
    exact check_after r hrx hi (by simp [hpc]) hp (by simp) trivial hk
  | counting =>
    have hgen : p.generation = st.my_gen := by simpa [ComesToCap, hpc] using hcomes
    have hone : own st = 1 := by simp [own, hpc]
    have hp : stepStreamer p i st .count = some (moved p i st (some { st with pc := .top })) := by
      rw [stepStreamer, if_pos hpc]
      simp [moved, hone, VideoPipeline.setStreamer]
    have hsum := @pending_moved _ _ _ hi (some { st with pc := .top }) (by simp [isCounting])
    obtain ⟨xs, t, hrun, hcheck⟩ := @top_to_check i (k - 1)
      (moved p i st (some { st with pc := .top })) { st with pc := .top } r false hrx
      (moved_getElem hi _) rfl hgen (by omega)
    refine ⟨_, t, .stepL (own_moves r hi hp (by simp) trivial) hrun, hcheck.rx, hcheck.slot,
      hcheck.generation, hcheck.max, hcheck.flight.trans ?_, hcheck.closed⟩
    rw [moved, hone, UInt32.add_assoc, ← UInt32.ofNat_add, Nat.add_sub_cancel' (hone ▸ hown)]
  | fetching => simp [ComesToCap, hpc] at hcomes
  | sending out => simp [ComesToCap, hpc] at hcomes

/-- At the cap a task of the current generation goes round as often as one likes. -/
theorem spins (n : Nat) {gen : UInt64} {max flight : UInt32} (h : AtCheck i gen st max flight s)
    (hgen : gen = st.my_gen) (hcap : max ≤ flight) :
    ∃ xs t, Run (Step i r) s xs t ∧ n ≤ xs.countP Event.isOwn := by
  induction n generalizing s with
  | zero => exact ⟨[], s, .refl, Nat.zero_le _⟩
  | succ n ih =>
    obtain ⟨p, a, c⟩ := s
    obtain ⟨hrx, hslot, hgen', hmax, hflight, rfl⟩ := h
    let b : Streamer := { st with pc := .capped }
    let p₁ := moved p i { st with pc := .capCheck } (some b)
    let p₂ := moved p₁ i b (some { st with pc := .capCheck })
    have hfull : stepStreamer p i { st with pc := .capCheck } .checkCap = some p₁ := by
      have hge : p.in_flight ≥ p.max_in_flight := by
        rw [show p.max_in_flight = max from hmax, show p.in_flight = flight from hflight]
        exact hcap
      rw [stepStreamer, if_pos rfl, if_pos hge]
      exact congrArg some (moved_of_ne (by simp) _).symm
    have hslot₁ : p₁.streamers[i]? = some (some b) := moved_getElem hslot _
    have hchanged : stepStreamer p₁ i b .changed = some p₂ := by
      have heq : p₁.generation = b.my_gen := hgen'.trans hgen
      rw [stepStreamer, if_pos rfl, if_pos heq]
      exact congrArg some (moved_of_ne (by simp [b]) _).symm
    have hzero : ∀ v : UInt32, v + UInt32.ofNat 0 = v := by simp
    have hcheck : AtCheck i gen st max flight ⟨p₂, false, false⟩ :=
      ⟨hrx, moved_getElem hslot₁ _, hgen', hmax, (hzero _).trans ((hzero _).trans hflight), rfl⟩
    obtain ⟨xs, t, hrun, hle⟩ := ih hcheck
    refine ⟨_, t, .stepL (own_moves r hslot hfull (by simp) trivial)
      (.stepL (own_moves r hslot₁ hchanged (by simp) trivial) hrun), ?_⟩
    simp only [List.countP_cons, Event.isOwn, if_true]
    omega

/-- The exit on which the source is left open. -/
theorem exhausts (a : Bool) (hi : p.streamers[i]? = some (some st)) (hpc : st.pc = .fetching) :
    ∃ t, Step i none ⟨p, a, false⟩ (.own .exhausted) t ∧ Exited t.pipe i = true ∧
      t.closed = false := by
  have hp : stepStreamer p i st .exhausted = some (p.setStreamer i none) := by
    rw [stepStreamer, if_pos hpc]
  have hlt : i < p.streamers.length := (List.getElem?_eq_some_iff.mp hi).1
  refine ⟨_, .own hi hp (by simp) rfl, ?_, ?_⟩
  · simp [Exited, VideoPipeline.setStreamer, hlt]
  · simp [closesSource]

/-- With room below the cap the task asks its exhausted source, and returns without a close. -/
theorem leaves_open {gen : UInt64} {max flight : UInt32} (h : AtCheck i gen st max flight s)
    (hcap : flight < max) :
    ∃ xs t, Run (Step i none) s xs t ∧ Exited t.pipe i = true ∧ t.closed = false := by
  obtain ⟨p, a, c⟩ := s
  obtain ⟨hrx, hslot, hgen, hmax, hflight, rfl⟩ := h
  let b : Streamer := { st with pc := .fetching }
  have hroom : stepStreamer p i { st with pc := .capCheck } .checkCap =
      some (moved p i { st with pc := .capCheck } (some b)) := by
    have hlt : ¬ p.in_flight ≥ p.max_in_flight := by
      rw [show p.max_in_flight = max from hmax, show p.in_flight = flight from hflight]
      exact UInt32.not_le.mpr hcap
    rw [stepStreamer, if_pos rfl, if_neg hlt]
    exact congrArg some (moved_of_ne (by simp) _).symm
  obtain ⟨t, hexit, hex, hopen⟩ := exhausts false (moved_getElem hslot (some b)) rfl
  exact ⟨_, t, .stepL (own_moves none hslot hroom (by simp) trivial) (.stepL hexit .refl), hex,
    hopen⟩

theorem good_of_windsDown (hrx : p.rx_open = false) (hi : p.streamers[i]? = some (some st))
    (h : WindsDown p i r) : Good p st r := by
  refine ⟨?_, ?_⟩
  · rintro ⟨hgen, hcomes⟩ m hown hm
    by_contra hcap
    obtain ⟨xs, s, hrun, hcheck⟩ := comes_to_check r hrx hi hcomes hown hm
    obtain ⟨n, hn⟩ := h.bounded
    obtain ⟨ys, t, hspin, hle⟩ := @spins i r s st (n + 1) _ _ _ hcheck hgen (UInt32.not_lt.mp hcap)
    have hbound := hn _ _ (hrun.trans hspin)
    rw [List.countP_append] at hbound
    omega
  · rintro rfl
    refine ⟨?_, ?_⟩
    · intro hpc
      obtain ⟨t, hexit, hex, hopen⟩ := exhausts true hi hpc
      have hclosed := h.closes _ _ (.stepL hexit .refl) hex
      rw [hopen] at hclosed
      cases hclosed
    · intro hcomes m hown hm
      by_contra hcap
      obtain ⟨xs, s, hrun, hcheck⟩ := comes_to_check none hrx hi hcomes hown hm
      obtain ⟨ys, t, hleave, hex, hopen⟩ := leaves_open hcheck (UInt32.not_le.mp hcap)
      have hclosed := h.closes _ _ (hrun.trans hleave) hex
      rw [hopen] at hclosed
      cases hclosed

/-- For every state after the drop, every result of `next_frame` and every interleaving. -/
theorem windsDown_iff (hrx : p.rx_open = false) (hi : p.streamers[i]? = some (some st)) :
    WindsDown p i r ↔ Good p st r :=
  ⟨good_of_windsDown hrx hi, windsDown_of_good hrx hi⟩

/-- A pipeline dropped while its only task stands at `pc`, with ten frames in flight. -/
def dropped (pc : StreamerPc) : VideoPipeline :=
  { generation := 1, session_id := 1, in_flight := 10, max_in_flight := VIDEO_MAX_UNACKED
    wire_channel := 1, queue := [], rx_open := false, streamers := [some ⟨1, pc, captureFor 0⟩] }

/-- A task that awaits the queue finds it closed. -/
theorem windsDown_sending : WindsDown (dropped (.sending ⟨1, 0, []⟩)) 0 none := by
  refine (windsDown_iff rfl rfl).mpr ⟨?_, ?_⟩
  · rintro ⟨-, h⟩
    cases h
  · intro _
    refine ⟨by decide, ?_⟩
    intro h
    cases h

/-- Ten frames are unacknowledged when the pipeline is dropped. -/
theorem capped_stays :
    ¬ ∀ p i r, p.rx_open = false → (∃ st, p.streamers[i]? = some (some st)) → WindsDown p i r := by
  intro h
  have hdown := h (dropped .capped) 0 (some (0, [])) rfl ⟨_, rfl⟩
  have hgood := good_of_windsDown rfl rfl hdown
  have hroom := sees_now (hgood.1 ⟨rfl, .inl rfl⟩) (by decide)
  revert hroom
  decide

end Aabox.WindDown
