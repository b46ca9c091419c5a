import Aabox.Handlers.Video
import Aabox.Lib.Run

/-!
# Generations of the video pipeline

A call of `start` or `stop` is taken apart into its accesses to the shared state, and tasks may step
or end, for whatever reason, between any two of them.
-/
namespace Aabox.Generations
open Aabox.Lib Aabox.Messages Aabox.Audio Aabox.Video

/-- What a call has done so far. -/
inductive Call
  | idle
  | startBegun (session : Int) (config : UInt32)
  | startStored (config : UInt32)
  | startReset (config : UInt32)
  | startSubscribed (config : UInt32)
  | startLoaded (config : UInt32) (new_gen : UInt64)
  | startSent (config : UInt32) (new_gen : UInt64)
  | stopBegun
  | stopLoaded (new_gen : UInt64)
  | stopSent
  deriving DecidableEq, Repr

/-- The call holds a receiver of the watch, which it gives to the task that it spawns. -/
def Call.holds : Call → Bool
  | .startSubscribed _ | .startLoaded _ _ | .startSent _ _ => true
  | _ => false

/-- The call has still to send its generation. -/
def Call.toSend : Call → Nat
  | .idle | .startSent _ _ | .stopSent => 0
  | _ => 1

def Call.starting : Call → Bool
  | .startBegun _ _ | .startStored _ | .startReset _ => true
  | c => c.holds

/-- `begun` counts the calls, and `stopped` tells that no call of `start` was made since one of
`stop` returned. -/
structure State where
  pipe : VideoPipeline
  call : Call
  begun : Nat
  stopped : Bool
  deriving DecidableEq, Repr

def init (max_in_flight : UInt32) : State :=
  { pipe := .new max_in_flight, call := .idle, begun := 0, stopped := false }

/-- A send on the watch fails when there is no receiver, and then leaves the value alone. -/
def State.sendGeneration (s : State) (new_gen : UInt64) : VideoPipeline :=
  if s.call.holds || s.pipe.streamers.any Option.isSome then
    { s.pipe with generation := new_gen }
  else s.pipe

/-- The call's next access. -/
def State.op (s : State) : State :=
  match s.call with
  | .idle => s
  | .startBegun session config =>
    { s with pipe := { s.pipe with session_id := session }, call := .startStored config }
  | .startStored config =>
    { s with pipe := { s.pipe with in_flight := 0 }, call := .startReset config }
  | .startReset config => { s with call := .startSubscribed config }
  | .startSubscribed config => { s with call := .startLoaded config (s.pipe.generation + 1) }
  | .startLoaded config new_gen =>
    { s with pipe := s.sendGeneration new_gen, call := .startSent config new_gen }
  | .startSent config new_gen =>
    let streamers := s.pipe.streamers ++ [some ⟨new_gen, .top, captureFor config⟩]
    { s with pipe := { s.pipe with streamers }, call := .idle }
  | .stopBegun => { s with call := .stopLoaded (s.pipe.generation + 1) }
  | .stopLoaded new_gen => { s with pipe := s.sendGeneration new_gen, call := .stopSent }
  | .stopSent =>
    { s with pipe := { s.pipe with in_flight := 0 }, call := .idle, stopped := true }

inductive Event
  | start (session : Int) (config : UInt32) | stop | op
  | task (i : Nat) (e : StreamerEvent) | exit (i : Nat)
  | ack | wire (ch : UInt8) | recv | dropRx
  deriving DecidableEq, Repr

variable {s t : State} {a : Event} {i j : Nat} {st : Streamer} {p p' : VideoPipeline}
  {ev : StreamerEvent} {new_gen : UInt64} {max_in_flight : UInt32}

/-- Calls are made one at a time; a task may end at any point. -/
inductive Step : State → Event → State → Prop
  | start {s : State} {session : Int} {config : UInt32} (h : s.call = .idle) :
    Step s (.start session config)
      { s with call := .startBegun session config, begun := s.begun + 1, stopped := false }
  | stop {s : State} (h : s.call = .idle) :
    Step s .stop { s with call := .stopBegun, begun := s.begun + 1 }
  | op {s : State} : Step s .op s.op
  | task {s : State} {i : Nat} {st : Streamer} {ev : StreamerEvent} {p : VideoPipeline}
    (hi : s.pipe.streamers[i]? = some (some st)) (hp : stepStreamer s.pipe i st ev = some p) :
    Step s (.task i ev) { s with pipe := p }
  | exit {s : State} {i : Nat} : Step s (.exit i) { s with pipe := s.pipe.setStreamer i none }
  | ack {s : State} : Step s .ack { s with pipe := s.pipe.onMediaAck }
  | wire {s : State} {ch : UInt8} : Step s (.wire ch) { s with pipe := s.pipe.setWireChannel ch }
  | recv {s : State} {x : UInt64 × OutboundMessage} {queue : List (UInt64 × OutboundMessage)}
    (hq : s.pipe.queue = x :: queue) : Step s .recv { s with pipe := { s.pipe with queue } }
  | dropRx {s : State} : Step s .dropRx { s with pipe := { s.pipe with rx_open := false } }

/-- The step function of the relation. -/
def next (s : State) : Event → Option State
  | .start session config =>
    if s.call = .idle then
      some { s with call := .startBegun session config, begun := s.begun + 1, stopped := false }
    else none
  | .stop =>
    if s.call = .idle then some { s with call := .stopBegun, begun := s.begun + 1 } else none
  | .op => some s.op
  | .task i ev =>
    match s.pipe.streamers[i]? with
    | some (some st) => (stepStreamer s.pipe i st ev).map fun pipe => { s with pipe }
    | _ => none
  | .exit i => some { s with pipe := s.pipe.setStreamer i none }
  | .ack => some { s with pipe := s.pipe.onMediaAck }
  | .wire ch => some { s with pipe := s.pipe.setWireChannel ch }
  | .recv =>
    match s.pipe.queue with
    | _ :: queue => some { s with pipe := { s.pipe with queue } }
    | [] => none
  | .dropRx => some { s with pipe := { s.pipe with rx_open := false } }

theorem next_of_step (h : Step s a t) : next s a = some t := by
  cases h with
  | start hc => simp only [next, hc, if_true]
  | stop hc => simp only [next, hc, if_true]
  | task hi hp => simp only [next, hi, hp, Option.map_some]
  | recv hq => simp only [next, hq]
  | _ => rfl

theorem step_of_next (h : next s a = some t) : Step s a t := by
  cases a with
  | start session config =>
    simp only [next] at h
    split at h <;> cases h
    exact .start ‹_›
  | stop =>
    simp only [next] at h
    split at h <;> cases h
    exact .stop ‹_›
  | task i ev =>
    simp only [next] at h
    split at h
    · rename_i st hi
      obtain ⟨p, hp, rfl⟩ := Option.map_eq_some_iff.mp h
      exact .task hi hp
    · cases h
  | recv =>
    simp only [next] at h
    split at h <;> cases h
    exact .recv ‹_›
  | op => cases h; exact .op
  | exit i => cases h; exact .exit
  | ack => cases h; exact .ack
  | wire ch => cases h; exact .wire
  | dropRx => cases h; exact .dropRx

theorem run_step_iff {xs : List Event} : Run Step s xs t ↔ xs.foldlM next s = some t := by
  rw [← run_iff_foldlM]
  exact ⟨Run.mono fun _ _ _ => next_of_step, Run.mono fun _ _ _ => step_of_next⟩

/-- Task `i` exists, and its generation is the current one. -/
def Live (p : VideoPipeline) (i : Nat) : Prop :=
  ∃ st, p.streamers[i]? = some (some st) ∧ st.my_gen = p.generation

/-- No task's generation is ahead of the current one, and one at most has it. -/
structure Ordered (p : VideoPipeline) : Prop where
  older : ∀ (i : Nat) (st : Streamer), p.streamers[i]? = some (some st) →
    st.my_gen.toNat ≤ p.generation.toNat
  unique : ∀ i j, Live p i → Live p j → i = j

/-- What the call in progress has established. -/
def Call.Holds (p : VideoPipeline) : Call → Prop
  | .startLoaded _ new_gen | .stopLoaded new_gen => new_gen = p.generation + 1
  | .startSent _ new_gen => new_gen = p.generation ∧ ∀ i, ¬ Live p i
  | .stopSent => ∀ i, ¬ Live p i
  | _ => True

structure Inv (s : State) : Prop where
  counted : s.pipe.generation.toNat + s.call.toSend ≤ s.begun
  ordered : Ordered s.pipe
  call : s.call.Holds s.pipe
  starting : s.call.starting = true → s.stopped = false
  stopped : s.stopped = true → ∀ i, ¬ Live s.pipe i

theorem inv_init : Inv (init max_in_flight) where
  counted := Nat.le_refl 0
  ordered :=
    { older := fun i st h => by cases h
      unique := by
        rintro i j ⟨st, h, -⟩
        cases h }
  call := trivial
  starting h := by cases h
  stopped h := by cases h

/-- The tasks of `p'` are tasks of `p`, of the same generations. -/
structure Fewer (p p' : VideoPipeline) : Prop where
  generation : p'.generation = p.generation
  length : p'.streamers.length = p.streamers.length
  tasks : ∀ (i : Nat) (st' : Streamer), p'.streamers[i]? = some (some st') →
    ∃ st, p.streamers[i]? = some (some st) ∧ st'.my_gen = st.my_gen

theorem fewer_live (h : Fewer p p') (hl : Live p' i) : Live p i := by
  obtain ⟨st', hi, hgen⟩ := hl
  obtain ⟨st, hi', hsame⟩ := h.tasks i st' hi
  exact ⟨st, hi', by rw [← hsame, hgen, h.generation]⟩

theorem fewer_holds (h : Fewer p p') {c : Call} (hc : c.Holds p) : c.Holds p' := by
  cases c with
  | startLoaded config g => exact hc.trans (by rw [h.generation])
  | stopLoaded g => exact hc.trans (by rw [h.generation])
  | startSent config g => exact ⟨hc.1.trans h.generation.symm, fun i hl => hc.2 i (fewer_live h hl)⟩
  | stopSent => exact fun i hl => hc i (fewer_live h hl)
  | _ => trivial

/-- Tasks that move on or end, and accesses that only touch other data, keep the invariant. -/
theorem inv_fewer (h : Inv s) (hp : Fewer s.pipe p) : Inv { s with pipe := p } where
  counted := by
    have hgen := congrArg UInt64.toNat hp.generation
    have := h.counted
    simp only at hgen ⊢
    omega
  ordered :=
    { older := by
        intro i st' hi
        obtain ⟨st, hi', hsame⟩ := hp.tasks i st' hi
        rw [hsame, hp.generation]
        exact h.ordered.older i st hi'
      unique := fun i j hi hj => h.ordered.unique i j (fewer_live hp hi) (fewer_live hp hj) }
  call := fewer_holds hp h.call
  starting := h.starting
  stopped hs i hl := h.stopped hs i (fewer_live hp hl)

theorem fewer_set {st' : Option Streamer} (hi : p.streamers[i]? = some (some st))
    (hst : ∀ a, st' = some a → a.my_gen = st.my_gen) {p' : VideoPipeline}
    (hgen : p'.generation = p.generation) (hs : p'.streamers = p.streamers.set i st') :
    Fewer p p' := by
  refine ⟨hgen, by rw [hs, List.length_set], ?_⟩
  intro j a hj
  rw [hs, List.getElem?_set] at hj
  split at hj
  · rename_i hij
    subst hij
    split at hj
    · exact ⟨st, hi, hst a (Option.some.inj hj)⟩
    · cases hj
  · exact ⟨a, hj, rfl⟩

theorem fewer_exit : Fewer p (p.setStreamer i none) := by
  refine ⟨rfl, List.length_set, ?_⟩
  intro j a hj
  simp only [VideoPipeline.setStreamer, List.getElem?_set] at hj
  split at hj
  · split at hj <;> cases hj
  · exact ⟨a, hj, rfl⟩

/-- A task's own step touches neither the generation nor another task. -/
theorem fewer_step (hi : p.streamers[i]? = some (some st))
    (hp : stepStreamer p i st ev = some p') : Fewer p p' := by
  cases stepStreamer_cases hp <;> exact fewer_set hi (fun a ha => by cases ha <;> rfl) rfl rfl

/-- A new generation is ahead of every task, as long as the counter has not come around. -/
theorem bumped (h : Ordered p) (hlt : p.generation.toNat + 1 < 2 ^ 64)
    (hnew : new_gen = p.generation + 1) :
    Ordered { p with generation := new_gen } ∧
      (∀ i, ¬ Live { p with generation := new_gen } i) ∧
      new_gen.toNat = p.generation.toNat + 1 := by
  have htoNat : new_gen.toNat = p.generation.toNat + 1 := by
    rw [hnew, UInt64.toNat_add]
    exact Nat.mod_eq_of_lt hlt
  have hnone : ∀ i, ¬ Live { p with generation := new_gen } i := by
    rintro i ⟨st, hi, hgen⟩
    have hle := h.older i st hi
    rw [show st.my_gen = new_gen from hgen] at hle
    omega
  refine ⟨⟨?_, fun i _ hi => absurd hi (hnone i)⟩, hnone, htoNat⟩
  intro i st hi
  have hle := h.older i st hi
  simp only
  omega

/-- A send of the next generation leaves no task live: it bumps the counter, or there is no task. -/
theorem sent (h : Inv s) (hlt : s.begun < 2 ^ 64) (hsend : s.call.toSend = 1)
    (hnew : new_gen = s.pipe.generation + 1) :
    Ordered (s.sendGeneration new_gen) ∧ (∀ i, ¬ Live (s.sendGeneration new_gen) i) ∧
      (s.sendGeneration new_gen).generation.toNat ≤ s.pipe.generation.toNat + 1 := by
  have hcount := h.counted
  rw [hsend] at hcount
  unfold State.sendGeneration
  split
  · obtain ⟨hordered, hnone, htoNat⟩ := bumped h.ordered (Nat.lt_of_le_of_lt hcount hlt) hnew
    exact ⟨hordered, hnone, Nat.le_of_eq htoNat⟩
  · rename_i hrx
    have hall : ∀ x ∈ s.pipe.streamers, x = none := by simpa using (by simpa using hrx : _ ∧ _).2
    refine ⟨h.ordered, ?_, Nat.le_succ _⟩
    rintro i ⟨st, hi, -⟩
    cases hall _ (List.mem_of_getElem? hi)

/-- The new task is the only live one. -/
theorem ordered_append (h : Ordered p) (hnone : ∀ i, ¬ Live p i) (hgen : st.my_gen = p.generation) :
    Ordered { p with streamers := p.streamers ++ [some st] } := by
  have hlive : ∀ i, Live { p with streamers := p.streamers ++ [some st] } i →
      i = p.streamers.length := by
    rintro i ⟨a, hi, ha⟩
    rcases Nat.lt_trichotomy i p.streamers.length with hlt | heq | hgt
    · rw [List.getElem?_append_left hlt] at hi
      exact absurd ⟨a, hi, ha⟩ (hnone i)
    · exact heq
    · rw [List.getElem?_eq_none (by simp; omega)] at hi
      cases hi
  refine ⟨?_, fun i j hi hj => (hlive i hi).trans (hlive j hj).symm⟩
  intro i a hi
  rw [List.getElem?_append] at hi
  split at hi
  · exact h.older i a hi
  · obtain rfl : a = st := by simpa using List.mem_of_getElem? hi
    exact Nat.le_of_eq (congrArg UInt64.toNat hgen)

theorem inv_op (h : Inv s) (hlt : s.begun < 2 ^ 64) : Inv s.op := by
  have hsent := fun g => @sent s g h hlt
  obtain ⟨p, call, begun, stopped⟩ := s
  obtain ⟨hcount, hordered, hcall, hstarting, hstopped⟩ := h
  cases call with
  | idle => exact ⟨hcount, hordered, hcall, hstarting, hstopped⟩
  | startBegun session config =>
    exact ⟨hcount, ⟨hordered.older, hordered.unique⟩, trivial, fun _ => hstarting rfl, hstopped⟩
  | startStored config =>
    exact ⟨hcount, ⟨hordered.older, hordered.unique⟩, trivial, fun _ => hstarting rfl, hstopped⟩
  | startReset config => exact ⟨hcount, hordered, trivial, fun _ => hstarting rfl, hstopped⟩
  | startSubscribed config => exact ⟨hcount, hordered, rfl, fun _ => hstarting rfl, hstopped⟩
  | startLoaded config new_gen =>
    obtain ⟨hordered, hnone, hle⟩ := hsent new_gen rfl hcall
    exact ⟨Nat.le_trans hle hcount, hordered, ⟨rfl, hnone⟩, fun _ => hstarting rfl, fun _ => hnone⟩
  | startSent config new_gen =>
    refine ⟨hcount, ordered_append hordered hcall.2 hcall.1, trivial, fun hs => ?_, fun hs => ?_⟩
    · cases hs
    · cases (hstarting rfl).symm.trans hs
  | stopBegun =>
    refine ⟨hcount, hordered, rfl, fun hs => ?_, hstopped⟩
    cases hs
  | stopLoaded new_gen =>
    obtain ⟨hordered, hnone, hle⟩ := hsent new_gen rfl hcall
    refine ⟨Nat.le_trans hle hcount, hordered, hnone, fun hs => ?_, fun _ => hnone⟩
    cases hs
  | stopSent =>
    refine ⟨hcount, ⟨hordered.older, hordered.unique⟩, trivial, fun hs => ?_, fun _ => hcall⟩
    cases hs

theorem begun_step (h : Step s a t) : s.begun ≤ t.begun := by
  cases h with
  | start => exact Nat.le_succ _
  | stop => exact Nat.le_succ _
  | op =>
    refine Nat.le_of_eq ?_
    unfold State.op
    split <;> rfl
  | _ => exact Nat.le_refl _

theorem begun_run {xs : List Event} (h : Run Step s xs t) : s.begun ≤ t.begun := by
  induction h with
  | refl => exact Nat.le_refl _
  | stepL hstep _ ih => exact Nat.le_trans (begun_step hstep) ih

theorem inv_step (h : Inv s) (hlt : s.begun < 2 ^ 64) (hs : Step s a t) : Inv t := by
  cases hs with
  | start hc =>
    have hcount := h.counted
    rw [hc] at hcount
    refine ⟨Nat.succ_le_succ hcount, h.ordered, trivial, fun _ => rfl, fun hs => ?_⟩
    cases hs
  | stop hc =>
    have hcount := h.counted
    rw [hc] at hcount
    refine ⟨Nat.succ_le_succ hcount, h.ordered, trivial, fun hs => ?_, h.stopped⟩
    cases hs
  | op => exact inv_op h hlt
  | task hi hp => exact inv_fewer h (fewer_step hi hp)
  | exit => exact inv_fewer h fewer_exit
  | ack => exact inv_fewer h ⟨rfl, rfl, fun _ st' hi => ⟨st', hi, rfl⟩⟩
  | wire => exact inv_fewer h ⟨rfl, rfl, fun _ st' hi => ⟨st', hi, rfl⟩⟩
  | recv hq => exact inv_fewer h ⟨rfl, rfl, fun _ st' hi => ⟨st', hi, rfl⟩⟩
  | dropRx => exact inv_fewer h ⟨rfl, rfl, fun _ st' hi => ⟨st', hi, rfl⟩⟩

theorem inv_reachable (h : Reachable Step (init max_in_flight) s) (hlt : s.begun < 2 ^ 64) :
    Inv s := by
  obtain ⟨xs, hrun⟩ := h
  refine hrun.invariant (I := fun s => s.begun < 2 ^ 64 → Inv s) ?_ (fun _ => inv_init) hlt
  intro s a t hs hstep ht
  have hlt := Nat.lt_of_le_of_lt (begun_step hstep) ht
  exact inv_step (hs hlt) hlt hstep

/-- A call's access that adds a task is the spawn of `start`. -/
theorem op_spawns (h : Inv s) (hlen : s.op.pipe.streamers.length = s.pipe.streamers.length + 1) :
    Live s.op.pipe s.pipe.streamers.length := by
  have hsend : ∀ g, (s.sendGeneration g).streamers = s.pipe.streamers := by
    intro g
    unfold State.sendGeneration
    split <;> rfl
  have hcall := h.call
  obtain ⟨p, call, begun, stopped⟩ := s
  cases call with
  | startSent config new_gen => exact ⟨_, List.getElem?_concat_length, hcall.1⟩
  | startLoaded config new_gen =>
    rw [State.op, hsend new_gen] at hlen
    simp at hlen
  | stopLoaded new_gen =>
    rw [State.op, hsend new_gen] at hlen
    simp at hlen
  | _ => simp [State.op] at hlen

/-- With fewer than `2 ^ 64` calls, one task at most is of the current generation, none is after
`stop` has returned, and a task is so when it is spawned. -/
theorem one_live_generation (h : Reachable Step (init max_in_flight) s) (hlt : s.begun < 2 ^ 64) :
    (∀ i j, Live s.pipe i → Live s.pipe j → i = j) ∧
      (s.stopped = true → ∀ i, ¬ Live s.pipe i) ∧
      ∀ a t, Step s a t → t.pipe.streamers.length = s.pipe.streamers.length + 1 →
        Live t.pipe s.pipe.streamers.length := by
  have hinv : Inv s := inv_reachable h hlt
  refine ⟨hinv.ordered.unique, hinv.stopped, ?_⟩
  intro a t hstep hlen
  cases hstep with
  | op => exact op_spawns hinv hlen
  | task hi hp => simp [(fewer_step hi hp).length] at hlen
  | exit => simp [VideoPipeline.setStreamer] at hlen
  | _ => simp [VideoPipeline.onMediaAck, VideoPipeline.setWireChannel] at hlen

/-- A start and all its accesses, with task `i` on its way to a frame when it has been spawned. -/
def startAndFetch (session : Int) (i : Nat) : List Event :=
  .start session 0 :: List.replicate 6 .op ++ [.task i .checkGeneration, .task i .checkCap]

def stopAll : List Event := .stop :: List.replicate 3 .op

def restartAndStop : List Event := startAndFetch 1 0 ++ startAndFetch 2 1 ++ stopAll

/-- A restart and a stop, with the tasks of both generations still waiting for their frames, and
then a third start. -/
theorem one_live_generation_restart :
    ∃ s t, Run Step (init 4) restartAndStop s ∧
      (s.pipe.streamers.map Option.isSome = [true, true] ∧ ∀ i, ¬ Live s.pipe i) ∧
      Run Step s (startAndFetch 3 2) t ∧ t.pipe.streamers.map Option.isSome = [true, true, true] ∧
      Live t.pipe 2 ∧ ∀ i, Live t.pipe i → i = 2 := by
  obtain ⟨s, hs, t, ht, hstopped, hnum, htasks, htasks', st, hst, hgen⟩ :
      ∃ s ∈ restartAndStop.foldlM next (init 4),
        ∃ t ∈ (startAndFetch 3 2).foldlM next s, s.stopped = true ∧ t.begun < 2 ^ 64 ∧
          s.pipe.streamers.map Option.isSome = [true, true] ∧
          t.pipe.streamers.map Option.isSome = [true, true, true] ∧
          ∃ st ∈ t.pipe.streamers[2]?.join, st.my_gen = t.pipe.generation := by decide
  have hs' : Run Step (init 4) _ s := run_step_iff.mpr hs
  have ht' : Run Step s _ t := run_step_iff.mpr ht
  have hlt : s.begun < 2 ^ 64 := Nat.lt_of_le_of_lt (begun_run ht') hnum
  have hlive : Live t.pipe 2 := ⟨st, Option.join_eq_some_iff.mp hst, hgen⟩
  refine ⟨s, t, hs', ⟨htasks, ?_⟩, ht', htasks', hlive, fun i hi => ?_⟩
  · exact (one_live_generation ⟨_, hs'⟩ hlt).2.1 hstopped
  · exact (one_live_generation ⟨_, hs'.trans ht'⟩ hnum).1 i 2 hi hlive

/-! ### Calls that nothing interrupts -/

theorem start_uninterrupted (session : Int) (config : UInt32) (h : s.call = .idle) :
    ∃ t, Run Step s (.start session config :: List.replicate 6 .op) t ∧ t.call = .idle ∧
      t.pipe = s.pipe.start session config := by
  exact ⟨_, .stepL (.start h) (.stepL .op (.stepL .op (.stepL .op (.stepL .op (.stepL .op
    (.stepL .op .refl)))))), rfl, rfl⟩

theorem stop_uninterrupted (h : s.call = .idle) :
    ∃ t, Run Step s [.stop, .op, .op, .op] t ∧ t.call = .idle ∧ t.pipe = s.pipe.stop := by
  refine ⟨_, .stepL (.stop h) (.stepL .op (.stepL .op (.stepL .op .refl))), rfl, ?_⟩
  simp only [State.op, State.sendGeneration, Call.holds, VideoPipeline.stop, Bool.false_or]
  split <;> rfl

end Aabox.Generations
