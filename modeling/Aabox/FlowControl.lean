import Aabox.Generations
import Aabox.HandleFrame

/-!
# Video flow control

Streaming tasks, the control loop and a head unit that acknowledges each frame it receives. The loop
handles one message after the other, one access to the pipeline at a time, with the tasks running in
between. A task's send and increment are two steps; `push` is the two with nothing in between.
-/
namespace Aabox.FlowControl
open Aabox.Lib Aabox.Messages Aabox.Audio Aabox.Video Aabox.HandleFrame Aabox.Generations

/-- `todo` are the calls that the message in hand has still to make, and `unacked` the frames sent
to the head unit whose acknowledgement has not been handled. -/
structure Flow where
  calls : State
  todo : List PipelineOp
  unacked : List (UInt64 × OutboundMessage)
  deriving DecidableEq, Repr

inductive FlowEvent
  | task (i : Nat) (ev : StreamerEvent)
  | push (i : Nat)
  | access
  | transmit
  | message (m : Message)
  | ack (k : Nat) (body : Bytes)
  deriving DecidableEq, Repr

def init (max_in_flight : UInt32) : Flow := ⟨Generations.init max_in_flight, [], []⟩

def Flow.pipe (s : Flow) : VideoPipeline := s.calls.pipe

def task? (s : Flow) (i : Nat) : Option Streamer := s.pipe.streamers[i]?.join

/-- The loop is between two messages. -/
def Flow.idle (s : Flow) : Bool := s.todo = [] ∧ s.calls.call = .idle

/-- What the receive path does to the pipeline. -/
def receive (prost : Prost) (p : VideoPipeline) (m : Message) : VideoPipeline :=
  (videoOps prost p.wire_channel m).foldl PipelineOp.apply p

def ackMessage (f : UInt64 × OutboundMessage) (body : Bytes) : Message :=
  ⟨f.2.channel, MSG_AV_MEDIA_ACK_INDICATION, body⟩

/-- How a call begins; the whole of it, where it is a single access. -/
def accessOf : PipelineOp → Event
  | .setWireChannel ch => .wire ch
  | .start session config => .start session config
  | .stop => .stop
  | .mediaAck => .ack

def move (s : Flow) (a : Event) : Option Flow :=
  (Generations.next s.calls a).map fun calls => { s with calls }

/-- The loop goes on with the call in progress, or begins the next one. -/
def access (s : Flow) : Option Flow :=
  if s.calls.call = .idle then
    match s.todo with
    | op :: todo => move { s with todo } (accessOf op)
    | [] => none
  else move s .op

/-- The first access of an acknowledgement is the release of its frame's slot. -/
def next (prost : Prost) (s : Flow) : FlowEvent → Option Flow
  | .task i ev => move s (.task i ev)
  | .push i => (move s (.task i .send)).bind fun s => move s (.task i .count)
  | .access => access s
  | .transmit =>
    match s.pipe.queue with
    | f :: _ => if s.idle then move { s with unacked := s.unacked ++ [f] } .recv else none
    | [] => none
  | .message m =>
    if s.idle then some { s with todo := videoOps prost s.pipe.wire_channel m } else none
  | .ack k body =>
    match s.unacked[k]? with
    | some f =>
      if s.idle then
        access { s with
          todo := videoOps prost s.pipe.wire_channel (ackMessage f body)
          unacked := s.unacked.eraseIdx k }
      else none
    | none => none

def carries (g : UInt64) (f : UInt64 × OutboundMessage) : Bool := f.1 == g

/-- Frames of the current generation that have been queued and not yet acknowledged. -/
def outstanding (s : Flow) : Nat := (s.pipe.queue ++ s.unacked).countP (carries s.pipe.generation)

/-- The cap is kept, and the counter is right. -/
def Controlled (max : UInt32) (s : Flow) : Prop :=
  outstanding s ≤ max.toNat ∧ s.pipe.in_flight.toNat = outstanding s

/-- A start that has reset the counter and not yet sent its generation. -/
def reset : Generations.Call → Bool
  | .startReset _ | .startSubscribed _ | .startLoaded _ _ => true
  | _ => false

/-- The call in progress replaces a generation with frames outstanding, and is between the reset of
the counter and the send of the generation, in either order. -/
def Replacing (s : Flow) : Prop :=
  (reset s.calls.call = true ∧ outstanding s ≠ 0) ∨
    (s.calls.call = .stopSent ∧ s.pipe.in_flight ≠ 0)

/-- No frame and no task belongs to generation `g`. -/
def Fresh (s : Flow) (g : UInt64) : Prop :=
  (∀ f ∈ s.pipe.queue ++ s.unacked, f.1 ≠ g) ∧
    ∀ st ∈ s.pipe.streamers, st.all (·.my_gen != g) = true

/-- A generation is sent under a number not in use. A stop that no task hears finds nothing
outstanding, and no slot is released that is taken. -/
def AccessOrderly (s : Flow) : Generations.Call → Prop
  | .startLoaded _ new_gen => Fresh s new_gen
  | .stopLoaded new_gen =>
    if s.pipe.streamers.any Option.isSome then Fresh s new_gen else outstanding s = 0
  | .idle => s.todo.head? = some .mediaAck → s.pipe.in_flight = 0
  | _ => True

/-- Only the task of the current generation sends and counts, with nothing in between and not while
a start has reset the counter and not yet sent its generation. What is counted while a stop has
still to reset the counter does no harm. -/
def Orderly (s : Flow) : FlowEvent → Prop
  | .task i .send => (task? s i).all (·.my_gen != s.pipe.generation) = true
  | .task _ .count => s.calls.call = .stopSent
  | .task _ _ => True
  | .push i =>
    s.calls.call = .stopSent ∨
      (reset s.calls.call = false ∧ (task? s i).all (·.my_gen == s.pipe.generation) = true)
  | .access => AccessOrderly s s.calls.call
  | .transmit | .message _ => True
  | .ack k _ => ∀ f ∈ s.unacked[k]?, s.pipe.in_flight = 0 ∨ f.1 = s.pipe.generation

instance (s : Flow) (g : UInt64) : Decidable (Fresh s g) := inferInstanceAs (Decidable (_ ∧ _))

instance (s : Flow) : (c : Generations.Call) → Decidable (AccessOrderly s c)
  | .startLoaded _ _ => inferInstanceAs (Decidable (Fresh _ _))
  | .stopLoaded new_gen => inferInstanceAs (Decidable (if s.pipe.streamers.any Option.isSome = true
      then Fresh s new_gen else outstanding s = 0))
  | .idle => inferInstanceAs (Decidable (_ = _ → _ = _))
  | .startBegun _ _ | .startStored _ | .startReset _ | .startSubscribed _ | .startSent _ _
  | .stopBegun | .stopSent => isTrue trivial

instance (s : Flow) : (e : FlowEvent) → Decidable (Orderly s e)
  | .task _ .send => inferInstanceAs (Decidable (_ = _))
  | .task _ .count => inferInstanceAs (Decidable (_ = _))
  | .task _ .checkGeneration | .task _ .checkCap | .task _ .wake | .task _ .changed
  | .task _ (.frame _ _) | .task _ .exhausted | .task _ .sendFailed => isTrue trivial
  | .push _ => inferInstanceAs (Decidable (_ ∨ _ ∧ _))
  | .access => inferInstanceAs (Decidable (AccessOrderly s _))
  | .transmit | .message _ => isTrue trivial
  | .ack k _ => inferInstanceAs (Decidable (∀ f ∈ s.unacked[k]?, s.pipe.in_flight = 0 ∨
      f.1 = s.pipe.generation))

instance (max : UInt32) (s : Flow) : Decidable (Controlled max s) :=
  inferInstanceAs (Decidable (_ ∧ _))

variable {prost : Prost} {max : UInt32} {s t u : Flow} {i j k : Nat} {st : Streamer}
  {p p' : VideoPipeline} {ev : StreamerEvent} {g : UInt64} {a : Event}

def Flow.withPipe (s : Flow) (p : VideoPipeline) : Flow :=
  { s with calls := { s.calls with pipe := p } }

/-- A task past the cap check has a frame to come. -/
def StreamerPc.past : StreamerPc → Prop
  | .fetching | .sending _ => True
  | _ => False

/-- The call has sent its generation, and no task of it has been spawned. -/
def bare : Generations.Call → Bool
  | .startSent _ _ | .stopSent => true
  | _ => false

structure Inv (max : UInt32) (s : Flow) : Prop where
  max_eq : s.pipe.max_in_flight = max
  cap : outstanding s ≤ max.toNat
  count : reset s.calls.call = false → s.calls.call ≠ .stopSent →
    s.pipe.in_flight.toNat = outstanding s
  zero : reset s.calls.call = true → s.pipe.in_flight = 0
  stop : s.calls.call = .stopSent → outstanding s = 0
  bare : bare s.calls.call = true → ∀ i a, task? s i = some a → a.my_gen ≠ s.pipe.generation
  single : ∀ i j a b, task? s i = some a → task? s j = some b →
    a.my_gen = s.pipe.generation → b.my_gen = s.pipe.generation → i = j
  room : ∀ i a, task? s i = some a → a.my_gen = s.pipe.generation → StreamerPc.past a.pc →
    s.pipe.in_flight.toNat < max.toNat

theorem inv_init (max : UInt32) : Inv max (init max) where
  max_eq := rfl
  cap := Nat.zero_le _
  count _ _ := rfl
  zero _ := rfl
  stop _ := rfl
  bare h := by cases h
  single i j a b h := by cases h
  room i a h := by cases h

/-! ### The tasks -/

theorem task?_setStreamer (j : Nat) (st' : Option Streamer) (h : task? s i = some st) :
    task? (s.withPipe (s.pipe.setStreamer i st')) j = if i = j then st' else task? s j := by
  have hlt : i < s.pipe.streamers.length := by
    by_contra hge
    rw [task?, List.getElem?_eq_none (Nat.le_of_not_lt hge)] at h
    cases h
  change (s.pipe.streamers.set i st')[j]?.join = _
  rw [List.getElem?_set]
  by_cases hij : i = j
  · subst hij
    simp [hlt]
  · simp [hij, task?]

theorem move_task (h : move s (.task i ev) = some t) :
    ∃ st p, task? s i = some st ∧ stepStreamer s.pipe i st ev = some p ∧ t = s.withPipe p := by
  obtain ⟨calls, hcalls, rfl⟩ := Option.map_eq_some_iff.mp h
  cases step_of_next hcalls with
  | task hi hp => exact ⟨_, _, Option.join_eq_some_iff.mpr hi, hp, rfl⟩

/-- Every step of a task but the send and the increment only moves the task on. -/
theorem stepStreamer_moves (hsend : ev ≠ .send) (hcount : ev ≠ .count)
    (h : stepStreamer p i st ev = some p') :
    ∃ st', p' = p.setStreamer i st' ∧ ∀ a, st' = some a → a.my_gen = st.my_gen ∧
      (StreamerPc.past a.pc → StreamerPc.past st.pc ∨ p.in_flight < p.max_in_flight) := by
  cases stepStreamer_cases h with
  | send => exact (hsend rfl).elim
  | count => exact (hcount rfl).elim
  | live | full | wake | changedLive => exact ⟨_, rfl, by simp [StreamerPc.past]⟩
  | stale | changedStale | exhausted | sendFailed => exact ⟨none, rfl, by simp⟩
  | room hpc hcap =>
    refine ⟨_, rfl, ?_⟩
    rintro a ⟨⟩
    exact ⟨rfl, fun _ => .inr hcap⟩
  | frame hpc =>
    refine ⟨_, rfl, ?_⟩
    rintro a ⟨⟩
    exact ⟨rfl, fun _ => .inl (by simp [hpc, StreamerPc.past])⟩

/-- Moving a task on, or ending it, keeps the invariant. -/
theorem inv_setStreamer (st' : Option Streamer) (h : Inv max s) (hi : task? s i = some st)
    (hst' : ∀ a, st' = some a → a.my_gen = st.my_gen ∧
      (StreamerPc.past a.pc → StreamerPc.past st.pc ∨ s.pipe.in_flight < s.pipe.max_in_flight)) :
    Inv max (s.withPipe (s.pipe.setStreamer i st')) := by
  have hgen : ∀ j a, task? (s.withPipe (s.pipe.setStreamer i st')) j = some a →
      ∃ b, task? s j = some b ∧ a.my_gen = b.my_gen := by
    intro j a ha
    rw [task?_setStreamer j st' hi] at ha
    split at ha
    · rename_i hij
      subst hij
      exact ⟨st, hi, (hst' a ha).1⟩
    · exact ⟨a, ha, rfl⟩
  refine ⟨h.max_eq, h.cap, h.count, h.zero, h.stop, ?_, ?_, ?_⟩
  · intro hb j a ha
    obtain ⟨b, hb', hsame⟩ := hgen j a ha
    rw [hsame]
    exact h.bare hb j b hb'
  · intro j j' a b ha hb hcur hcur'
    obtain ⟨a', ha', hsame⟩ := hgen j a ha
    obtain ⟨b', hb', hsame'⟩ := hgen j' b hb
    exact h.single j j' a' b' ha' hb' (hsame ▸ hcur) (hsame' ▸ hcur')
  · intro j a ha hcur hpast
    rw [task?_setStreamer j st' hi] at ha
    split at ha
    · obtain ⟨hmy, hroom⟩ := hst' a ha
      rcases hroom hpast with hpast | hlt
      · exact h.room i st hi (hmy ▸ hcur) hpast
      · have hlt := UInt32.lt_iff_toNat_lt.mp hlt
        rw [h.max_eq] at hlt
        exact hlt
    · exact h.room j a ha hcur hpast

theorem countP_carries_ne {fs : List (UInt64 × OutboundMessage)} (h : ∀ f ∈ fs, f.1 ≠ g) :
    fs.countP (carries g) = 0 := by
  rw [List.countP_eq_zero]
  intro f hf
  simpa [carries] using h f hf

theorem toNat_add_one {n m : UInt32} (h : n.toNat < m.toNat) : (n + 1).toNat = n.toNat + 1 := by
  have hm := m.toNat_lt
  rw [UInt32.toNat_add]
  simp only [UInt32.reduceToNat]
  omega

/-- A frame of another generation goes into the queue uncounted. -/
theorem inv_enqueue {f : UInt64 × OutboundMessage} (h : Inv max s) (hne : f.1 ≠ s.pipe.generation) :
    Inv max (s.withPipe { s.pipe with queue := s.pipe.queue ++ [f] }) := by
  have hsame : outstanding (s.withPipe { s.pipe with queue := s.pipe.queue ++ [f] }) =
      outstanding s := by
    simp only [outstanding, Flow.withPipe, Flow.pipe, List.countP_append]
    simp [carries, show f.1 ≠ s.calls.pipe.generation from hne]
  refine ⟨h.max_eq, hsame ▸ h.cap, ?_, h.zero, ?_, h.bare, h.single, h.room⟩
  · rw [hsame]
    exact h.count
  · rw [hsame]
    exact h.stop

/-- While a stop has still to reset the counter, the counter does not matter. -/
theorem inv_uncounted (n : UInt32) (h : Inv max s) (hstop : s.calls.call = .stopSent) :
    Inv max (s.withPipe { s.pipe with in_flight := n }) where
  max_eq := h.max_eq
  cap := h.cap
  count _ hne := absurd hstop hne
  zero hreset := by
    change reset s.calls.call = true at hreset
    rw [hstop] at hreset
    cases hreset
  stop := h.stop
  bare := h.bare
  single := h.single
  room i a ha hcur := absurd hcur (h.bare (by rw [hstop]; rfl) i a ha)

/-- A cancelled task that sends adds a frame of its own generation only. -/
theorem inv_send (h : Inv max s) (hi : task? s i = some st) (hne : st.my_gen ≠ s.pipe.generation)
    (hp : stepStreamer s.pipe i st .send = some p) : Inv max (s.withPipe p) := by
  cases stepStreamer_cases hp with
  | @send out =>
    have hqueued := @inv_enqueue max s (st.my_gen, out) h hne
    exact inv_setStreamer (some { st with pc := .counting }) hqueued hi (by simp [StreamerPc.past])

theorem inv_count (h : Inv max s) (hi : task? s i = some st) (hstop : s.calls.call = .stopSent)
    (hp : stepStreamer s.pipe i st .count = some p) : Inv max (s.withPipe p) := by
  cases stepStreamer_cases hp with
  | count =>
    exact inv_setStreamer (some { st with pc := .top }) (inv_uncounted _ h hstop) hi
      (by simp [StreamerPc.past])

/-- The pipeline after a task's send and increment. -/
def pushed (p : VideoPipeline) (i : Nat) (st : Streamer) (out : OutboundMessage) : VideoPipeline :=
  { p with
    queue := p.queue ++ [(st.my_gen, out)]
    in_flight := p.in_flight + 1
    streamers := p.streamers.set i (some { st with pc := .top }) }

theorem push_eq (hstep : next prost s (.push i) = some t) :
    ∃ st out, task? s i = some st ∧ st.pc = .sending out ∧
      t = s.withPipe (pushed s.pipe i st out) := by
  obtain ⟨u, hu, ht⟩ := Option.bind_eq_some_iff.mp hstep
  obtain ⟨st, p, hi, hp, rfl⟩ := move_task hu
  obtain ⟨st', p', hi', hp', rfl⟩ := move_task ht
  cases stepStreamer_cases hp with
  | @send out hpc =>
    have hcounting : task? ((s.withPipe { s.pipe with
        queue := s.pipe.queue ++ [(st.my_gen, out)] }).withPipe _) i =
          some { st with pc := .counting } := (task?_setStreamer i _ hi).trans (if_pos rfl)
    cases hcounting.symm.trans hi'
    cases stepStreamer_cases hp' with
    | count =>
      refine ⟨st, out, hi, hpc, ?_⟩
      simp [Flow.withPipe, Flow.pipe, pushed, VideoPipeline.setStreamer]

/-- The current task sends a frame and counts it. -/
theorem inv_push {out : OutboundMessage} (h : Inv max s) (hi : task? s i = some st)
    (hpc : st.pc = .sending out) (hcur : st.my_gen = s.pipe.generation)
    (hreset : reset s.calls.call = false) : Inv max (s.withPipe (pushed s.pipe i st out)) := by
  have hbare : bare s.calls.call = false := by
    by_contra hb
    exact h.bare (by simpa using hb) i st hi hcur
  have hnot : s.calls.call ≠ .stopSent := by
    intro hstop
    rw [hstop] at hbare
    cases hbare
  have hroom := h.room i st hi hcur (by simp [hpc, StreamerPc.past])
  have hmove := inv_setStreamer (some { st with pc := .top }) h hi (by simp [StreamerPc.past])
  have hadd := toNat_add_one hroom
  have hcount := h.count hreset hnot
  have hone : outstanding (s.withPipe (pushed s.pipe i st out)) = outstanding s + 1 := by
    simp only [outstanding, Flow.withPipe, Flow.pipe, pushed, List.countP_append]
    simp only [List.countP_singleton, carries, show st.my_gen = s.calls.pipe.generation from hcur,
      beq_self_eq_true, if_true]
    omega
  refine ⟨h.max_eq, ?_, ?_, ?_, fun hs => absurd hs hnot, ?_, hmove.single, ?_⟩
  · omega
  · intro _ _
    exact hadd.trans (by omega)
  · intro hr
    cases hreset.symm.trans hr
  · intro hb
    cases hbare.symm.trans hb
  · intro j a ha hcurj hpast
    by_cases hij : i = j
    · subst hij
      have htop := (task?_setStreamer i (some { st with pc := .top }) hi).symm.trans ha
      rw [if_pos rfl] at htop
      cases htop
      exact hpast.elim
    · have hother := (task?_setStreamer j (some { st with pc := .top }) hi).symm.trans ha
      rw [if_neg hij] at hother
      exact (hij (h.single i j st a hi hother hcur hcurj)).elim

theorem inv_task (h : Inv max s) (hcond : Orderly s (.task i ev))
    (hstep : move s (.task i ev) = some t) : Inv max t := by
  obtain ⟨st, p, hi, hp, rfl⟩ := move_task hstep
  by_cases hsend : ev = .send
  · subst hsend
    exact inv_send h hi (by simpa [Orderly, hi] using hcond) hp
  · by_cases hcount : ev = .count
    · subst hcount
      exact inv_count h hi hcond hp
    · obtain ⟨st', rfl, hst'⟩ := stepStreamer_moves hsend hcount hp
      exact inv_setStreamer st' h hi hst'

/-- Either the current task goes on, or a stop has still to reset what is counted. -/
theorem inv_push_step (h : Inv max s) (hcond : Orderly s (.push i))
    (hstep : next prost s (.push i) = some t) : Inv max t := by
  rcases hcond with hstop | ⟨hreset, hcur⟩
  · obtain ⟨u, hu, ht⟩ := Option.bind_eq_some_iff.mp hstep
    obtain ⟨st, p, hi, hp, rfl⟩ := move_task hu
    obtain ⟨st', p', hi', hp', rfl⟩ := move_task ht
    have hne : st.my_gen ≠ s.pipe.generation := h.bare (by rw [hstop]; rfl) i st hi
    exact inv_count (inv_send h hi hne hp) hi' hstop hp'
  · obtain ⟨st, out, hi, hpc, rfl⟩ := push_eq hstep
    exact inv_push h hi hpc (by simpa [hi] using hcur) hreset

/-! ### The control loop -/

theorem Fresh.task_ne (hf : Fresh s g) (hi : task? s i = some st) : st.my_gen ≠ g := by
  have hne := hf.2 _ (List.mem_of_getElem? (Option.join_eq_some_iff.mp hi))
  simpa using hne

/-- The call's next access has been made. -/
def opDone (s : Flow) : Flow := { s with calls := s.calls.op }

/-- A start resets the counter. -/
theorem inv_reset {config : UInt32} (h : Inv max s) (hcall : s.calls.call = .startStored config) :
    Inv max (opDone s) := by
  obtain ⟨⟨p, call, begun, stopped⟩, todo, unacked⟩ := s
  cases hcall
  exact
    { max_eq := h.max_eq
      cap := h.cap
      count := fun hr => by cases hr
      zero := fun _ => rfl
      stop := fun hs => by cases hs
      bare := fun hb => by cases hb
      single := h.single
      room := fun i a ha hcur hpast =>
        Nat.lt_of_le_of_lt (Nat.zero_le _) (h.room i a ha hcur hpast) }

/-- A generation of which there is neither a task nor a frame. -/
theorem inv_of_bare (hmax : t.pipe.max_in_flight = max) (hbare : bare t.calls.call = true)
    (hnone : outstanding t = 0) (hne : ∀ i a, task? t i = some a → a.my_gen ≠ t.pipe.generation)
    (hcount : t.calls.call ≠ .stopSent → t.pipe.in_flight = 0) : Inv max t where
  max_eq := hmax
  cap := hnone.trans_le (Nat.zero_le _)
  count _ hs := (congrArg UInt32.toNat (hcount hs)).trans hnone.symm
  zero hr := by
    cases hcall : t.calls.call with
    | startSent config new_gen => exact hcount (by simp [hcall])
    | stopSent =>
      rw [hcall] at hr
      cases hr
    | _ =>
      rw [hcall] at hbare
      cases hbare
  stop _ := hnone
  bare _ := hne
  single i j a b ha _ hcur := absurd hcur (hne i a ha)
  room i a ha hcur := absurd hcur (hne i a ha)

/-- A start sends its generation, which finds nothing counted. -/
theorem inv_started {config : UInt32} {new_gen : UInt64} (h : Inv max s)
    (hcall : s.calls.call = .startLoaded config new_gen) (hf : Fresh s new_gen) :
    Inv max (opDone s) := by
  obtain ⟨⟨p, call, begun, stopped⟩, todo, unacked⟩ := s
  cases hcall
  exact inv_of_bare h.max_eq rfl (countP_carries_ne hf.1) (fun i a ha => hf.task_ne ha)
    (fun _ => h.zero rfl)

/-- The new task is the only one of its generation, and at the top of its loop. -/
theorem inv_spawned {config : UInt32} {new_gen : UInt64} (h : Inv max s)
    (hcall : s.calls.call = .startSent config new_gen) : Inv max (opDone s) := by
  obtain ⟨⟨p, call, begun, stopped⟩, todo, unacked⟩ := s
  cases hcall
  have hcurrent : ∀ (j : Nat) (a : Streamer),
      (p.streamers ++ [some ⟨new_gen, .top, captureFor config⟩])[j]?.join = some a →
        a.my_gen = p.generation → j = p.streamers.length ∧ a.pc = .top := by
    intro j a ha hcur
    rw [List.getElem?_append] at ha
    split at ha
    · exact absurd hcur (h.bare rfl j a ha)
    · rename_i hj
      rw [Option.join_eq_some_iff, List.getElem?_singleton] at ha
      split at ha
      · cases ha
        exact ⟨by omega, rfl⟩
      · cases ha
  exact
    { max_eq := h.max_eq
      cap := h.cap
      count := fun _ _ => h.count rfl (fun hs => by cases hs)
      zero := fun hr => by cases hr
      stop := fun hs => by cases hs
      bare := fun hb => by cases hb
      single := fun i j a b ha hb hcur hcur' =>
        (hcurrent i a ha hcur).1.trans (hcurrent j b hb hcur').1.symm
      room := fun i a ha hcur hpast => by
        rw [(hcurrent i a ha hcur).2] at hpast
        exact hpast.elim }

/-- A stop sends its generation, unless there is no task to hear it. -/
theorem inv_stopping {new_gen : UInt64} (h : Inv max s) (hcall : s.calls.call = .stopLoaded new_gen)
    (hcond : AccessOrderly s (.stopLoaded new_gen)) : Inv max (opDone s) := by
  have hcases : if s.pipe.streamers.any Option.isSome = true then Fresh s new_gen
      else outstanding s = 0 := hcond
  by_cases hlive : s.pipe.streamers.any Option.isSome = true
  · rw [if_pos hlive] at hcases
    have hsend : s.calls.sendGeneration new_gen = { s.pipe with generation := new_gen } := by
      have hany : s.calls.pipe.streamers.any Option.isSome = true := hlive
      simp only [State.sendGeneration, hany, Bool.or_true, if_true, Flow.pipe]
    simp only [opDone, State.op, hcall, hsend]
    exact inv_of_bare h.max_eq rfl (countP_carries_ne hcases.1)
      (fun i a ha => hcases.task_ne ha) (fun hs => absurd rfl hs)
  · rw [if_neg hlive] at hcases
    have hsend : s.calls.sendGeneration new_gen = s.pipe := by
      have hany : ¬ s.calls.pipe.streamers.any Option.isSome = true := hlive
      simp only [State.sendGeneration, hcall, Generations.Call.holds, Bool.false_or, hany, if_false,
        Bool.false_eq_true, Flow.pipe]
    simp only [opDone, State.op, hcall, hsend]
    refine inv_of_bare h.max_eq rfl hcases (fun i a ha => ?_) (fun hs => absurd rfl hs)
    refine absurd (List.any_eq_true.mpr ⟨some a, ?_, rfl⟩) hlive
    exact List.mem_of_getElem? (Option.join_eq_some_iff.mp ha)

/-- A stop resets the counter, with nothing outstanding. -/
theorem inv_stopped (h : Inv max s) (hcall : s.calls.call = .stopSent) : Inv max (opDone s) := by
  obtain ⟨⟨p, call, begun, stopped⟩, todo, unacked⟩ := s
  cases hcall
  exact
    { max_eq := h.max_eq
      cap := h.cap
      count := fun _ _ => (h.stop rfl).symm
      zero := fun hr => by cases hr
      stop := fun _ => h.stop rfl
      bare := fun hb => by cases hb
      single := fun i j a b ha _ hcur _ => absurd hcur (h.bare rfl i a ha)
      room := fun i a ha hcur _ => absurd hcur (h.bare rfl i a ha) }

/-- A call moves on without touching what the counter depends on. -/
theorem inv_moves (c : Generations.Call) (session : Int) (ch : UInt8) (begun : Nat) (stopped : Bool)
    (todo : List PipelineOp) (h : Inv max s) (hreset : reset c = reset s.calls.call)
    (hfrom : bare s.calls.call = false) (hto : bare c = false) :
    Inv max { s with
      calls := ⟨{ s.pipe with session_id := session, wire_channel := ch }, c, begun, stopped⟩
      todo } := by
  have hnot : ∀ {c : Generations.Call}, bare c = false → c ≠ .stopSent := by
    rintro c hb rfl
    cases hb
  exact
    { max_eq := h.max_eq
      cap := h.cap
      count := fun hr _ => h.count (hreset.symm.trans hr) (hnot hfrom)
      zero := fun hr => h.zero (hreset.symm.trans hr)
      stop := fun hs => absurd hs (hnot hto)
      bare := fun hb => by cases hto.symm.trans hb
      single := h.single
      room := h.room }

theorem inv_op (h : Inv max s) (hcond : AccessOrderly s s.calls.call) : Inv max (opDone s) := by
  have hmoves := fun c session => inv_moves c session s.pipe.wire_channel s.calls.begun
    s.calls.stopped s.todo h
  cases hcall : s.calls.call with
  | idle =>
    rw [opDone, State.op, hcall]
    exact h
  | startStored config => exact inv_reset h hcall
  | startLoaded config new_gen =>
    rw [hcall] at hcond
    exact inv_started h hcall hcond
  | startSent config new_gen => exact inv_spawned h hcall
  | stopLoaded new_gen =>
    rw [hcall] at hcond
    exact inv_stopping h hcall hcond
  | stopSent => exact inv_stopped h hcall
  | startBegun session config =>
    rw [hcall] at hmoves
    rw [opDone, State.op, hcall]
    exact hmoves (.startStored config) session rfl rfl rfl
  | startReset config =>
    rw [hcall] at hmoves
    rw [opDone, State.op, hcall]
    exact hmoves (.startSubscribed config) s.pipe.session_id rfl rfl rfl
  | startSubscribed config =>
    rw [hcall] at hmoves
    rw [opDone, State.op, hcall]
    exact hmoves (.startLoaded config (s.pipe.generation + 1)) s.pipe.session_id rfl rfl rfl
  | stopBegun =>
    rw [hcall] at hmoves
    rw [opDone, State.op, hcall]
    exact hmoves (.stopLoaded (s.pipe.generation + 1)) s.pipe.session_id rfl rfl rfl

/-- A call begins; one that releases a slot finds none taken. -/
theorem inv_begin {op : PipelineOp} {todo : List PipelineOp} (h : Inv max s)
    (hidle : s.calls.call = .idle) (hack : op = .mediaAck → s.pipe.in_flight = 0)
    (hstep : move { s with todo } (accessOf op) = some t) : Inv max t := by
  have hmoves := fun c ch begun stopped =>
    inv_moves c s.pipe.session_id ch begun stopped todo h
  rw [hidle] at hmoves
  obtain ⟨calls, hcalls, rfl⟩ := Option.map_eq_some_iff.mp hstep
  cases op with
  | setWireChannel ch =>
    cases hcalls
    have hwired := hmoves .idle ch s.calls.begun s.calls.stopped rfl rfl rfl
    rw [← hidle] at hwired
    exact hwired
  | start session config =>
    cases step_of_next hcalls with
    | start _ =>
      exact hmoves (.startBegun session config) s.pipe.wire_channel (s.calls.begun + 1) false
        rfl rfl rfl
  | stop =>
    cases step_of_next hcalls with
    | stop _ =>
      exact hmoves .stopBegun s.pipe.wire_channel (s.calls.begun + 1) s.calls.stopped rfl rfl rfl
  | mediaAck =>
    cases hcalls
    have hzero : s.pipe.onMediaAck = s.pipe := by
      rw [VideoPipeline.onMediaAck, hack rfl, if_neg (by decide), ← hack rfl]
    have hsame := hmoves .idle s.pipe.wire_channel s.calls.begun s.calls.stopped rfl rfl rfl
    rw [← hidle] at hsame
    change Inv max { s with calls := { s.calls with pipe := s.pipe.onMediaAck }, todo }
    rw [hzero]
    exact hsame

theorem inv_access (h : Inv max s) (hcond : AccessOrderly s s.calls.call)
    (hstep : access s = some t) : Inv max t := by
  rw [access] at hstep
  split at hstep
  · rename_i hidle
    split at hstep
    · rename_i op todo htodo
      refine inv_begin h hidle (fun hop => ?_) hstep
      rw [hidle] at hcond
      exact hcond (by rw [htodo, hop]; rfl)
    · cases hstep
  · cases hstep
    exact inv_op h hcond

theorem inv_transmit (h : Inv max s) (hstep : next prost s .transmit = some t) : Inv max t := by
  simp only [next] at hstep
  split at hstep
  · rename_i f queue hq
    split at hstep
    · obtain ⟨calls, hcalls, rfl⟩ := Option.map_eq_some_iff.mp hstep
      cases step_of_next hcalls with
      | @recv x queue' hq' =>
        obtain ⟨rfl, rfl⟩ : x = f ∧ queue' = queue := List.cons.inj (hq'.symm.trans hq)
        change s.calls.pipe.queue = x :: queue' at hq'
        have hsame : outstanding { s with
            calls := { s.calls with pipe := { s.calls.pipe with queue := queue' } }
            unacked := s.unacked ++ [x] } = outstanding s := by
          simp only [outstanding, Flow.pipe, hq', List.countP_append, List.countP_cons,
            List.countP_nil]
          omega
        refine ⟨h.max_eq, hsame ▸ h.cap, ?_, h.zero, ?_, h.bare, h.single, h.room⟩
        · intro hr hs
          exact (h.count hr hs).trans hsame.symm
        · intro hs
          exact hsame.trans (h.stop hs)
    · cases hstep
  · cases hstep

/-- The messages of a head unit that acknowledge a frame release a slot, and on the canonical video
channel two. -/
theorem ackOps (prost : Prost) (w : UInt8) (f : UInt64 × OutboundMessage) (body : Bytes) :
    ∃ n, videoOps prost w (ackMessage f body) = List.replicate (n + 1) .mediaAck := by
  have hcross : isCrossChannelControl MSG_AV_MEDIA_ACK_INDICATION = false := by decide
  have hintercept : interceptOps w f.2.channel MSG_AV_MEDIA_ACK_INDICATION = [.mediaAck] := rfl
  simp only [videoOps, ackMessage, hcross, hintercept]
  by_cases hchan : ChannelId.tryFrom f.2.channel = some .video
  · have hops : handleOps prost MSG_AV_MEDIA_ACK_INDICATION body =
        (prost.avMediaAckIndication body).toList.map fun _ => .mediaAck := rfl
    simp only [hchan, hops]
    cases prost.avMediaAckIndication body with
    | none => exact ⟨0, rfl⟩
    | some _ => exact ⟨1, rfl⟩
  · simp only [hchan]
    exact ⟨0, rfl⟩

theorem countP_eraseIdx {α : Type} {l : List α} {a : α} (q : α → Bool) (h : l[k]? = some a) :
    l.countP q = (l.eraseIdx k).countP q + if q a then 1 else 0 := by
  induction l generalizing k with
  | nil => simp at h
  | cons b l ih =>
    cases k with
    | zero =>
      obtain rfl : b = a := by simpa using h
      rw [List.countP_cons, List.eraseIdx_cons_zero]
    | succ k =>
      rw [List.eraseIdx_cons_succ, List.countP_cons, List.countP_cons, ih (by simpa using h)]
      omega

/-- The frame is no longer outstanding, and its slot is free. -/
theorem inv_release {n : UInt32} {f : UInt64 × OutboundMessage} (todo : List PipelineOp)
    (h : Inv max s) (hidle : s.calls.call = .idle) (hf : s.unacked[k]? = some f)
    (hcond : s.pipe.in_flight = 0 ∨ f.1 = s.pipe.generation)
    (hn : n.toNat = s.pipe.in_flight.toNat - 1) :
    Inv max { s.withPipe { s.pipe with in_flight := n } with
      todo, unacked := s.unacked.eraseIdx k } := by
  have hreset : reset s.calls.call = false := by rw [hidle]; rfl
  have hstop : s.calls.call ≠ .stopSent := by rw [hidle]; simp
  have hcount := h.count hreset hstop
  have herase := countP_eraseIdx (carries s.pipe.generation) hf
  have hcap := h.cap
  have hvalue : n.toNat = outstanding { s.withPipe { s.pipe with in_flight := n } with
      todo, unacked := s.unacked.eraseIdx k } := by
    simp only [outstanding, Flow.withPipe, Flow.pipe, List.countP_append] at hcount herase hn ⊢
    rcases hcond with hzero | hgen
    · have hz : s.calls.pipe.in_flight.toNat = 0 := congrArg UInt32.toNat hzero
      omega
    · have hcarries : carries s.calls.pipe.generation f = true := by
        simp [carries, show f.1 = s.calls.pipe.generation from hgen]
      simp only [hcarries, if_true] at herase
      omega
  exact
    { max_eq := h.max_eq
      cap := hvalue ▸ (by omega)
      count := fun _ _ => hvalue
      zero := fun hr => by cases hreset.symm.trans hr
      stop := fun hs => absurd hs hstop
      bare := h.bare
      single := h.single
      room := fun i a ha hcur hpast => by
        have hroom := h.room i a ha hcur hpast
        change n.toNat < max.toNat
        omega }

/-- An orderly acknowledgement releases the slot of the frame it is for. -/
theorem inv_ack {body : Bytes} (h : Inv max s) (hcond : Orderly s (.ack k body))
    (hstep : next prost s (.ack k body) = some t) : Inv max t := by
  simp only [next] at hstep
  cases hf : s.unacked[k]? with
  | none => simp [hf] at hstep
  | some f =>
    simp only [hf] at hstep
    split at hstep
    · rename_i hidle
      have hcall : s.calls.call = .idle := (of_decide_eq_true hidle).2
      obtain ⟨n, hops⟩ := ackOps prost s.pipe.wire_channel f body
      obtain ⟨m, hack, hm⟩ := onMediaAck_eq s.pipe
      simp only [access, hcall, hops, List.replicate_succ, if_true] at hstep
      cases hstep
      have hrelease := inv_release (List.replicate n .mediaAck) h hcall hf (hcond f hf) hm
      rw [← hack] at hrelease
      exact hrelease
    · cases hstep

theorem inv_message {m : Message} (h : Inv max s) (hstep : next prost s (.message m) = some t) :
    Inv max t := by
  simp only [next] at hstep
  split at hstep <;> cases hstep
  exact ⟨h.max_eq, h.cap, h.count, h.zero, h.stop, h.bare, h.single, h.room⟩

theorem inv_step {e : FlowEvent} (h : Inv max s)
    (hstep : Guard (Steps (next prost)) Orderly s e t) : Inv max t := by
  obtain ⟨hnext, hcond⟩ := hstep
  cases e with
  | task i ev => exact inv_task h hcond hnext
  | push i => exact inv_push_step h hcond hnext
  | access => exact inv_access h hcond hnext
  | transmit => exact inv_transmit h hnext
  | message m => exact inv_message h hnext
  | ack k body => exact inv_ack h hcond hnext

/-- In an orderly run the cap is kept in every state, and the counter is right in all of them but
those in which a generation with frames outstanding is being replaced. -/
theorem controlled_run (prost : Prost) (max : UInt32) {es : List FlowEvent}
    (hrun : Run (Guard (Steps (next prost)) Orderly) (init max) es s) :
    outstanding s ≤ max.toNat ∧ (Controlled max s ↔ ¬ Replacing s) := by
  have h : Inv max s := hrun.invariant (fun _ _ _ h hs => inv_step h hs) (inv_init max)
  refine ⟨h.cap, ?_, ?_⟩
  · rintro ⟨-, hcount⟩ (⟨hreset, hne⟩ | ⟨hstop, hne⟩)
    · exact hne (hcount.symm.trans (congrArg UInt32.toNat (h.zero hreset)))
    · exact hne (UInt32.toNat_inj.mp (hcount.trans (h.stop hstop)))
  · intro hnot
    refine ⟨h.cap, ?_⟩
    rw [Replacing, not_or] at hnot
    by_cases hreset : reset s.calls.call = true
    · have hzero : outstanding s = 0 := by
        by_contra hne
        exact hnot.1 ⟨hreset, hne⟩
      exact (congrArg UInt32.toNat (h.zero hreset)).trans hzero.symm
    · by_cases hstop : s.calls.call = .stopSent
      · have hzero : s.pipe.in_flight = 0 := by
          by_contra hne
          exact hnot.2 ⟨hstop, hne⟩
        exact (congrArg UInt32.toNat hzero).trans (h.stop hstop).symm
      · exact h.count (Bool.eq_false_iff.mpr hreset) hstop

/-! ### Messages that nothing interrupts -/

theorem op_uninterrupted (prost : Prost) {op : PipelineOp} {todo : List PipelineOp}
    (hidle : s.calls.call = .idle) (htodo : s.todo = op :: todo) :
    ∃ n t, Run (Steps (next prost)) s (List.replicate n .access) t ∧ t.calls.call = .idle ∧
      t.todo = todo ∧ t.pipe = op.apply s.pipe := by
  obtain ⟨⟨p, call, begun, stopped⟩, todo', unacked⟩ := s
  cases hidle
  cases htodo
  cases op with
  | setWireChannel ch => exact ⟨1, _, .stepL rfl .refl, rfl, rfl, rfl⟩
  | mediaAck => exact ⟨1, _, .stepL rfl .refl, rfl, rfl, rfl⟩
  | start session config =>
    exact ⟨7, _, .stepL rfl (.stepL rfl (.stepL rfl (.stepL rfl (.stepL rfl (.stepL rfl
      (.stepL rfl .refl)))))), rfl, rfl, rfl⟩
  | stop =>
    refine ⟨4, _, .stepL rfl (.stepL rfl (.stepL rfl (.stepL rfl .refl))), rfl, rfl, ?_⟩
    by_cases hlive : p.streamers.any Option.isSome = true <;>
      simp [Flow.pipe, State.op, State.sendGeneration, Generations.Call.holds, PipelineOp.apply,
        VideoPipeline.stop, hlive]

theorem ops_uninterrupted (prost : Prost) (ops : List PipelineOp) (hidle : s.calls.call = .idle)
    (htodo : s.todo = ops) :
    ∃ n t, Run (Steps (next prost)) s (List.replicate n .access) t ∧ t.calls.call = .idle ∧
      t.todo = [] ∧ t.pipe = ops.foldl PipelineOp.apply s.pipe := by
  induction ops generalizing s with
  | nil => exact ⟨0, s, .refl, hidle, htodo, rfl⟩
  | cons op ops ih =>
    obtain ⟨n, u, hrun, hidle, htodo, hu⟩ := op_uninterrupted prost hidle htodo
    obtain ⟨n', t, hrun', hidle', htodo', ht⟩ := ih hidle htodo
    refine ⟨n + n', t, ?_, hidle', htodo', ?_⟩
    · rw [List.replicate_add]
      exact hrun.trans hrun'
    · rw [ht, hu, List.foldl_cons]

/-- With nothing in between, the accesses of a message leave what `handle_frame` leaves. -/
theorem message_uninterrupted {F : Type} (fl : Sensor.Floats F) (h : Handlers F) (m : Message)
    (hs : s.idle = true) (hvideo : h.video = s.pipe) :
    ∃ n t, Run (Steps (next prost)) s (.message m :: List.replicate n .access) t ∧ t.idle = true ∧
      t.pipe = (route prost fl h m).2.video := by
  let u : Flow := { s with todo := videoOps prost s.pipe.wire_channel m }
  have hidle : u.calls.call = .idle := (of_decide_eq_true hs).2
  obtain ⟨n, t, hrun, hcall, htodo, ht⟩ := ops_uninterrupted prost _ hidle rfl
  refine ⟨n, t, .stepL ?_ hrun, by simp [Flow.idle, hcall, htodo], ?_⟩
  · simp only [Steps, next, hs, if_true]
    rfl
  · rw [ht, route_video, hvideo]
    rfl

/-- The steps of one task from its generation check to a frame that is ready to go. -/
def prepare (i : Nat) : List FlowEvent :=
  [.task i .checkGeneration, .task i .checkCap, .task i (.frame 0 [])]

/-- A focus notification on `channel`, handled without a break. -/
def focus (channel : UInt8) : List FlowEvent :=
  .message ⟨channel, 0x8008, []⟩ :: List.replicate 8 .access

def twoFrames : List FlowEvent :=
  focus 3 ++ prepare 0 ++ .push 0 :: prepare 0 ++ [.push 0, .transmit, .ack 0 [], .access]

/-- Two frames, the first of them acknowledged; a restart, during which the old task gets its next
frame as far as the queue; a frame of the new task, and a stop. -/
def restarted : List FlowEvent :=
  focus 1 ++ prepare 0 ++ .push 0 :: prepare 0 ++ [.push 0, .transmit, .transmit, .ack 0 []] ++
    .message ⟨1, 0x8008, []⟩ :: List.replicate 4 .access ++ prepare 0 ++ List.replicate 3 .access ++
    [.task 0 .send, .access] ++ prepare 1 ++ [.push 1, .message ⟨1, 0x8002, []⟩] ++
    List.replicate 4 .access

theorem controlled_restarted : ∃ s, Run (Guard (Steps (next emptyBodies)) Orderly)
    (init VIDEO_MAX_UNACKED) restarted s ∧ s.pipe.queue.length + s.unacked.length = 3 ∧
      outstanding s ≤ VIDEO_MAX_UNACKED.toNat ∧
      (Controlled VIDEO_MAX_UNACKED s ↔ ¬ Replacing s) := by
  obtain ⟨s, hexec, hframes⟩ : ∃ s ∈ restarted.foldlM (guarded (next emptyBodies) Orderly)
      (init VIDEO_MAX_UNACKED), s.pipe.queue.length + s.unacked.length = 3 := by decide +kernel
  have hrun := run_guard_iff_foldlM.mpr hexec
  exact ⟨s, hrun, hframes, controlled_run emptyBodies VIDEO_MAX_UNACKED hrun⟩

/-- Two frames on channel 3 and one acknowledgement, which is counted twice: between two messages
the counter is wrong. -/
theorem ack_counted_twice :
    ∃ s, Run (Steps (next emptyBodies)) (init VIDEO_MAX_UNACKED) twoFrames s ∧ s.idle = true ∧
      ¬ Controlled VIDEO_MAX_UNACKED s := by
  obtain ⟨s, hexec, hs⟩ : ∃ s ∈ twoFrames.foldlM (next emptyBodies) (init VIDEO_MAX_UNACKED),
      s.idle = true ∧ ¬ Controlled VIDEO_MAX_UNACKED s := by decide +kernel
  exact ⟨s, run_iff_foldlM.mpr hexec, hs⟩

end Aabox.FlowControl
