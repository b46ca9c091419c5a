import Aabox.Generations

/-!
# Cancelled tasks

What a streaming task still does after a call of `stop` or `start` that cancelled its generation has
returned. The tasks run between any two accesses of the call.
-/
namespace Aabox.Cancellation
open Aabox.Lib Aabox.Messages Aabox.Audio Aabox.Video Aabox.Generations

variable {max : UInt32} {s t u : State} {i j : Nat} {st : Streamer} {p : VideoPipeline}
  {ev : StreamerEvent} {a : Event} {es : List Event}

/-- Task `i` queues a frame or counts one. -/
def Acts (i : Nat) : Event → Prop
  | .task j .send | .task j .count => j = i
  | _ => False

/-- The generation of task `i` is not the current one. -/
def Cancelled (i : Nat) (s : State) (_ : Event) : Prop :=
  ∀ st, s.pipe.streamers[i]? = some (some st) → st.my_gen ≠ s.pipe.generation

/-- Whatever happens, task `i` neither queues nor counts a frame for as long as it is cancelled. -/
def Silent (i : Nat) (s : State) : Prop :=
  ∀ es t, Run (Guard Step (Cancelled i)) s es t → ∀ a ∈ es, ¬ Acts i a

/-- The call in progress returns with its next access. -/
def last : Call → Bool
  | .startSent _ _ | .stopSent => true
  | _ => false

/-- Where a task checks its generation before it does anything more. With a cap of zero it never
gets past the cap, and without a receiver it has nothing to count but a frame already sent. -/
def Resting (max : UInt32) (rx_open : Bool) (pc : StreamerPc) : Prop :=
  pc = .top ∨ (max = 0 ∧ (pc = .capCheck ∨ pc = .capped)) ∨ (rx_open = false ∧ pc ≠ .counting)

structure RestInv (max : UInt32) (i : Nat) (s : State) : Prop where
  max_eq : s.pipe.max_in_flight = max
  resting : ∀ st, s.pipe.streamers[i]? = some (some st) → Resting max s.pipe.rx_open st.pc

/-- A step of another task leaves the resting task alone. -/
theorem restInv_other (h : RestInv max i s) (hij : j ≠ i)
    (hp : stepStreamer s.pipe j st ev = some p) : RestInv max i { s with pipe := p } := by
  obtain ⟨hmax, hrx, -, st', hstreamers⟩ := stepStreamer_frame hp
  refine ⟨hmax.trans h.max_eq, ?_⟩
  intro a ha
  have hsame : s.pipe.streamers[i]? = some (some a) := by
    rw [← ha]
    simp [hstreamers, hij]
  simp only [hrx]
  exact h.resting a hsame

theorem getElem?_setStreamer {st' : Option Streamer} (hi : p.streamers[i]? = some (some st)) :
    (p.setStreamer i st').streamers[i]? = some st' := by
  obtain ⟨hlt, -⟩ := List.getElem?_eq_some_iff.mp hi
  simp [VideoPipeline.setStreamer, hlt]

/-- A cancelled task at rest ends at its next check, stays below the cap, or finds the queue
closed. -/
theorem restInv_own (h : RestInv max i s) (hi : s.pipe.streamers[i]? = some (some st))
    (hgen : st.my_gen ≠ s.pipe.generation) (hp : stepStreamer s.pipe i st ev = some p) :
    RestInv max i { s with pipe := p } ∧ ev ≠ .send ∧ ev ≠ .count := by
  have hmove : ∀ st' : Option Streamer,
      (∀ a, st' = some a → Resting max s.pipe.rx_open a.pc) →
        RestInv max i { s with pipe := s.pipe.setStreamer i st' } := by
    intro st' hst'
    refine ⟨h.max_eq, ?_⟩
    intro a ha
    exact hst' a (Option.some.inj ((getElem?_setStreamer hi).symm.trans ha))
  have hrest : Resting max s.pipe.rx_open st.pc := h.resting st hi
  cases stepStreamer_cases hp with
  | live _ hsame | changedLive _ hsame => exact absurd hsame.symm hgen
  | stale | changedStale | exhausted | sendFailed => exact ⟨hmove none (by simp), by simp, by simp⟩
  | full hpc | wake hpc =>
    refine ⟨hmove _ ?_, by simp, by simp⟩
    simpa [Resting, hpc] using hrest
  | room hpc hcap =>
    refine ⟨hmove _ ?_, by simp, by simp⟩
    rcases hrest with htop | ⟨hzero, -⟩ | ⟨hrx, -⟩
    · simp [hpc] at htop
    · rw [h.max_eq, hzero] at hcap
      exact absurd hcap (UInt32.not_lt.mpr UInt32.zero_le)
    · simp [Resting, hrx]
  | frame hpc =>
    refine ⟨hmove _ ?_, by simp, by simp⟩
    have hrx : s.pipe.rx_open = false := by simpa [Resting, hpc] using hrest
    simp [Resting, hrx]
  | send hpc hopen =>
    have hrx : s.pipe.rx_open = false := by simpa [Resting, hpc] using hrest
    cases hrx.symm.trans hopen
  | count hpc => simp [Resting, hpc] at hrest

theorem op_frame (s : State) :
    s.op.pipe.max_in_flight = s.pipe.max_in_flight ∧ s.op.pipe.rx_open = s.pipe.rx_open ∧
      ∃ new, s.op.pipe.streamers = s.pipe.streamers ++ new ∧
        ∀ slot ∈ new, ∀ a, slot = some a → a.pc = .top := by
  have hsend : ∀ g, (s.sendGeneration g).max_in_flight = s.pipe.max_in_flight ∧
      (s.sendGeneration g).rx_open = s.pipe.rx_open ∧
        (s.sendGeneration g).streamers = s.pipe.streamers := by
    intro g
    unfold State.sendGeneration
    split <;> exact ⟨rfl, rfl, rfl⟩
  obtain ⟨p, call, begun, stopped⟩ := s
  cases call with
  | startSent config new_gen =>
    refine ⟨rfl, rfl, _, rfl, ?_⟩
    intro slot hslot a ha
    rw [List.mem_singleton.mp hslot] at ha
    cases ha
    rfl
  | startLoaded config new_gen | stopLoaded new_gen =>
    obtain ⟨hmax, hrx, hstreamers⟩ := hsend new_gen
    exact ⟨hmax, hrx, [], hstreamers.trans (List.append_nil _).symm, by simp⟩
  | _ => exact ⟨rfl, rfl, [], (List.append_nil _).symm, by simp⟩

theorem restInv_op (h : RestInv max i s) : RestInv max i s.op := by
  obtain ⟨hmax, hrx, new, hnew, htop⟩ := op_frame s
  refine ⟨hmax.trans h.max_eq, ?_⟩
  intro a ha
  rw [hnew, List.getElem?_append] at ha
  split at ha
  · rw [hrx]
    exact h.resting a ha
  · exact .inl (htop _ (List.mem_of_getElem? ha) a rfl)

theorem restInv_step (h : RestInv max i s) (hstep : Guard Step (Cancelled i) s a t) :
    RestInv max i t ∧ ¬ Acts i a := by
  obtain ⟨hs, hcancel⟩ := hstep
  cases hs with
  | @task j st ev p hj hp =>
    rcases Decidable.em (j = i) with rfl | hij
    · obtain ⟨hrest, hsend, hcount⟩ := restInv_own h hj (hcancel st hj) hp
      refine ⟨hrest, ?_⟩
      cases ev <;> simp_all [Acts]
    · refine ⟨restInv_other h hij hp, ?_⟩
      cases ev <;> simp [Acts, hij]
  | @exit j =>
    refine ⟨⟨h.max_eq, ?_⟩, id⟩
    intro a ha
    simp only [VideoPipeline.setStreamer, List.getElem?_set] at ha
    split at ha
    · split at ha <;> cases ha
    · exact h.resting a ha
  | op => exact ⟨restInv_op h, id⟩
  | dropRx =>
    refine ⟨⟨h.max_eq, ?_⟩, id⟩
    intro a ha
    rcases h.resting a ha with htop | hcap | ⟨-, hne⟩
    · exact .inl htop
    · exact .inr (.inl hcap)
    · exact .inr (.inr ⟨rfl, hne⟩)
  | _ => exact ⟨⟨h.max_eq, h.resting⟩, id⟩

/-- A task at rest stays silent. -/
theorem silent_of_resting (h : RestInv max i s) : Silent i s := by
  intro es t hrun
  induction hrun with
  | refl => simp
  | stepL hstep _ ih =>
    obtain ⟨hrest, hquiet⟩ := restInv_step h hstep
    intro a ha
    rcases List.mem_cons.mp ha with rfl | ha
    · exact hquiet
    · exact ih hrest a ha

/-! ### A task that is not at rest -/

theorem not_silent_of_act (hstep : Guard Step (Cancelled i) s a t) (hact : Acts i a) :
    ¬ Silent i s := by
  intro h
  exact h [a] t (.stepL hstep .refl) a (List.mem_singleton_self a) hact

theorem not_silent_of_step (hstep : Guard Step (Cancelled i) s a t) (ht : ¬ Silent i t) :
    ¬ Silent i s := by
  intro h
  refine ht fun es u hrun e he => ?_
  exact h (a :: es) u (.stepL hstep hrun) e (List.mem_cons_of_mem _ he)

theorem cancelled_of (hi : s.pipe.streamers[i]? = some (some st))
    (hgen : st.my_gen ≠ s.pipe.generation) (a : Event) : Cancelled i s a := by
  intro b hb
  obtain rfl : st = b := Option.some.inj (Option.some.inj (hi.symm.trans hb))
  exact hgen

theorem guard_task (hi : s.pipe.streamers[i]? = some (some st))
    (hgen : st.my_gen ≠ s.pipe.generation) (hp : stepStreamer s.pipe i st ev = some p) :
    Guard Step (Cancelled i) s (.task i ev) { s with pipe := p } :=
  ⟨.task hi hp, cancelled_of hi hgen _⟩

theorem acts_counting (hi : s.pipe.streamers[i]? = some (some st))
    (hgen : st.my_gen ≠ s.pipe.generation) (hpc : st.pc = .counting) : ¬ Silent i s := by
  have hp : stepStreamer s.pipe i st .count = some
      (({ s.pipe with in_flight := s.pipe.in_flight + 1 } : VideoPipeline).setStreamer i
        (some { st with pc := .top })) := by simp only [stepStreamer, hpc, if_true]
  exact not_silent_of_act (guard_task hi hgen hp) rfl

/-- A frame at the queue goes in as soon as the control loop has made room. -/
theorem acts_sending {out : OutboundMessage} (hi : s.pipe.streamers[i]? = some (some st))
    (hgen : st.my_gen ≠ s.pipe.generation) (hopen : s.pipe.rx_open = true)
    (hpc : st.pc = .sending out) : ¬ Silent i s := by
  obtain ⟨queue, hq⟩ : ∃ queue, s.pipe.queue = queue := ⟨_, rfl⟩
  induction queue generalizing s with
  | nil =>
    have hroom : s.pipe.rx_open ∧ s.pipe.queue.length < QUEUE_CAPACITY := by
      simp [hopen, hq, QUEUE_CAPACITY]
    have hp : stepStreamer s.pipe i st .send = some
        (({ s.pipe with queue := s.pipe.queue ++ [(st.my_gen, out)] } : VideoPipeline).setStreamer i
          (some { st with pc := .counting })) := by
      simp only [stepStreamer, hpc, if_pos hroom]
    exact not_silent_of_act (guard_task hi hgen hp) rfl
  | cons f queue ih =>
    have hrecv : Guard Step (Cancelled i) s .recv { s with pipe := { s.pipe with queue } } :=
      ⟨.recv hq, cancelled_of hi hgen _⟩
    exact not_silent_of_step hrecv (ih hi hgen hopen rfl)

theorem acts_fetching (hi : s.pipe.streamers[i]? = some (some st))
    (hgen : st.my_gen ≠ s.pipe.generation) (hopen : s.pipe.rx_open = true)
    (hpc : st.pc = .fetching) : ¬ Silent i s := by
  have hp : stepStreamer s.pipe i st (.frame 0 []) = some (s.pipe.setStreamer i
      (some { st with pc := .sending ⟨s.pipe.wire_channel,
        MSG_AV_MEDIA_WITH_TIMESTAMP_INDICATION, beBytes 8 (0 : UInt64).toNat ++ []⟩ })) := by
    simp only [stepStreamer, hpc, if_true]
  exact not_silent_of_step (guard_task hi hgen hp)
    (acts_sending (getElem?_setStreamer hi) hgen hopen rfl)

/-- A task at the cap goes on as soon as enough frames have been acknowledged. -/
theorem acts_capCheck (hi : s.pipe.streamers[i]? = some (some st))
    (hgen : st.my_gen ≠ s.pipe.generation) (hopen : s.pipe.rx_open = true)
    (hmax : s.pipe.max_in_flight ≠ 0) (hpc : st.pc = .capCheck) : ¬ Silent i s := by
  obtain ⟨n, hn⟩ : ∃ n, s.pipe.in_flight.toNat = n := ⟨_, rfl⟩
  induction n using Nat.strong_induction_on generalizing s with
  | _ n ih =>
    by_cases hcap : s.pipe.in_flight ≥ s.pipe.max_in_flight
    · have hpos : 0 < s.pipe.in_flight :=
        Std.lt_of_lt_of_le (UInt32.pos_iff_ne_zero.mpr hmax) hcap
      have hlt := UInt32.lt_iff_toNat_lt.mp hpos
      obtain ⟨m, hack, hm⟩ := onMediaAck_eq s.pipe
      have hstep : Guard Step (Cancelled i) s .ack { s with pipe := s.pipe.onMediaAck } :=
        ⟨.ack, cancelled_of hi hgen _⟩
      rw [hack] at hstep
      have hless : m.toNat < n := by
        rw [UInt32.toNat_zero] at hlt
        omega
      exact not_silent_of_step hstep (ih m.toNat hless hi hgen hopen hmax rfl)
    · have hp : stepStreamer s.pipe i st .checkCap =
          some (s.pipe.setStreamer i (some { st with pc := .fetching })) := by
        simp only [stepStreamer, hpc, if_true, if_neg hcap]
      exact not_silent_of_step (guard_task hi hgen hp)
        (acts_fetching (getElem?_setStreamer hi) hgen hopen rfl)

theorem acts_capped (hi : s.pipe.streamers[i]? = some (some st))
    (hgen : st.my_gen ≠ s.pipe.generation) (hopen : s.pipe.rx_open = true)
    (hmax : s.pipe.max_in_flight ≠ 0) (hpc : st.pc = .capped) : ¬ Silent i s := by
  have hp : stepStreamer s.pipe i st .wake =
      some (s.pipe.setStreamer i (some { st with pc := .capCheck })) := by
    simp only [stepStreamer, hpc, if_true]
  exact not_silent_of_step (guard_task hi hgen hp)
    (acts_capCheck (getElem?_setStreamer hi) hgen hopen hmax rfl)

/-- A cancelled task that is not at rest has a way to act. -/
theorem not_silent_of_not_resting (hi : s.pipe.streamers[i]? = some (some st))
    (hgen : st.my_gen ≠ s.pipe.generation) (hmax : s.pipe.max_in_flight = max)
    (hpc : ¬ Resting max s.pipe.rx_open st.pc) : ¬ Silent i s := by
  simp only [Resting, not_or, not_and] at hpc
  obtain ⟨htop, hzero, hclosed⟩ := hpc
  cases h : st.pc with
  | top => exact (htop h).elim
  | counting => exact acts_counting hi hgen h
  | capCheck =>
    exact acts_capCheck hi hgen (by simp_all) (hmax ▸ fun h0 => (hzero h0).1 h) h
  | capped => exact acts_capped hi hgen (by simp_all) (hmax ▸ fun h0 => (hzero h0).2 h) h
  | fetching => exact acts_fetching hi hgen (by simp_all) h
  | sending out => exact acts_sending hi hgen (by simp_all) h

theorem max_step (h : s.pipe.max_in_flight = max) (hstep : Step s a t) :
    t.pipe.max_in_flight = max := by
  cases hstep with
  | op => exact (op_frame s).1.trans h
  | task hi hp => exact (stepStreamer_frame hp).1.trans h
  | _ => exact h

/-- A cancelled task stays silent in every interleaving exactly if it is at rest. -/
theorem silent_iff_resting (hreach : Reachable Step (Generations.init max) s)
    (hi : s.pipe.streamers[i]? = some (some st)) (hcancel : st.my_gen ≠ s.pipe.generation) :
    Silent i s ↔ Resting max s.pipe.rx_open st.pc := by
  obtain ⟨xs, hrun⟩ := hreach
  have hmax : s.pipe.max_in_flight = max :=
    hrun.invariant (I := fun s => s.pipe.max_in_flight = max) (fun _ _ _ => max_step) rfl
  constructor
  · intro hsilent
    by_contra hpc
    exact not_silent_of_not_resting hi hcancel hmax hpc hsilent
  · intro hpc
    refine silent_of_resting ⟨hmax, ?_⟩
    intro a ha
    obtain rfl : st = a := Option.some.inj (Option.some.inj (hi.symm.trans ha))
    exact hpc

/-- The access with which a call returns leaves the tasks that there are alone. -/
theorem op_task (hi : s.pipe.streamers[i]? = some (some st)) :
    s.op.pipe.streamers[i]? = some (some st) := by
  obtain ⟨-, -, new, hnew, -⟩ := op_frame s
  obtain ⟨hlt, -⟩ := List.getElem?_eq_some_iff.mp hi
  rw [hnew, List.getElem?_append_left hlt]
  exact hi

/-- A call that is about to return has cancelled every task. -/
theorem cancelled_of_last (hinv : Inv s) (hlast : last s.call = true)
    (hi : s.pipe.streamers[i]? = some (some st)) : st.my_gen ≠ s.op.pipe.generation := by
  intro hgen
  have hcall := hinv.call
  obtain ⟨p, call, begun, stopped⟩ := s
  cases call with
  | startSent config new_gen => exact hcall.2 i ⟨st, hi, hgen⟩
  | stopSent => exact hcall i ⟨st, hi, hgen⟩
  | _ => cases hlast

/-- When a call of `stop` or `start` returns, the tasks that there were are cancelled. Such a task
stays silent from then on, in every interleaving, exactly if it stands at the top of its loop. -/
theorem silent_iff (max : UInt32) (hreach : Reachable Step (Generations.init max) s)
    (hlast : last s.call = true) (hi : s.pipe.streamers[i]? = some (some st)) :
    (s.begun < 2 ^ 64 → st.my_gen ≠ s.op.pipe.generation) ∧
      (st.my_gen ≠ s.op.pipe.generation →
        (Silent i s.op ↔ Resting max s.pipe.rx_open st.pc)) := by
  constructor
  · intro hlt
    exact cancelled_of_last (inv_reachable hreach hlt) hlast hi
  · intro hcancel
    obtain ⟨xs, hrun⟩ := hreach
    have hreach' : Reachable Step (Generations.init max) s.op :=
      ⟨xs ++ [.op], hrun.trans (.stepL .op .refl)⟩
    rw [← (op_frame s).2.1]
    exact silent_iff_resting hreach' (op_task hi) hcancel

/-- The first task on its way to a frame, up to its send. -/
def toSend : List Event :=
  [.task 0 .checkGeneration, .task 0 .checkCap, .task 0 (.frame 0 [])]

def started : List Event := .start 1 0 :: List.replicate 6 .op

/-- A restart up to its last access. The first task, which it cancels, queues and counts a frame
after the counter has been reset, and goes back to the top of its loop. -/
def restarting : List Event :=
  started ++ .start 2 0 :: List.replicate 2 .op ++ toSend ++ [.task 0 .send, .task 0 .count] ++
    List.replicate 3 .op

/-- A stop, with the task passing its checks between the two accesses to the generation. -/
def stopping : List Event := started ++ .stop :: .op :: toSend ++ [.op, .op]

theorem silent_restarting : ∃ s, Run Step (Generations.init VIDEO_MAX_UNACKED) restarting s ∧
    last s.call = true ∧ s.pipe.in_flight = 1 ∧ Silent 0 s.op := by
  obtain ⟨s, hexec, hlast, hcount, st, hi, hgen, hpc⟩ :
      ∃ s ∈ restarting.foldlM next (Generations.init VIDEO_MAX_UNACKED), last s.call = true ∧
        s.pipe.in_flight = 1 ∧ ∃ st ∈ s.pipe.streamers[0]?.join,
          st.my_gen ≠ s.op.pipe.generation ∧ st.pc = .top := by decide
  have hrun := run_step_iff.mpr hexec
  have hsilent := (silent_iff VIDEO_MAX_UNACKED ⟨_, hrun⟩ hlast (Option.join_eq_some_iff.mp hi)).2
  exact ⟨s, hrun, hlast, hcount, (hsilent hgen).mpr (.inl hpc)⟩

/-- The stop has returned, and then the task that it has cancelled queues a frame and counts it. -/
theorem frame_after_stop : ∃ s t, Run Step (Generations.init VIDEO_MAX_UNACKED) stopping s ∧
    s.call = .idle ∧ s.stopped = true ∧ s.pipe.queue = [] ∧ s.pipe.in_flight = 0 ∧
      Run Step s [.task 0 .send, .task 0 .count] t ∧ t.pipe.queue.length = 1 ∧
        t.pipe.in_flight = 1 := by
  obtain ⟨s, hs, t, ht, hresult⟩ :
      ∃ s ∈ stopping.foldlM next (Generations.init VIDEO_MAX_UNACKED),
        ∃ t ∈ [Event.task 0 .send, .task 0 .count].foldlM next s, s.call = .idle ∧
          s.stopped = true ∧ s.pipe.queue = [] ∧ s.pipe.in_flight = 0 ∧
            t.pipe.queue.length = 1 ∧ t.pipe.in_flight = 1 := by decide
  obtain ⟨hcall, hstopped, hqueue, hzero, hlength, hone⟩ := hresult
  exact ⟨s, t, run_step_iff.mpr hs, hcall, hstopped, hqueue, hzero, run_step_iff.mpr ht, hlength,
    hone⟩

end Aabox.Cancellation
