import Aabox.Generations
import Aabox.Lib.Fifo
import Aabox.ScreenRecord

/-!
# From the screen to the loop

Every START spawns a streaming task with a source of its own. The tasks share one queue, which the
loop takes from. The loop's calls of `start` and `stop` are made one access at a time, with the
tasks running in between.
-/
namespace Aabox.Picture
open Aabox.Lib Aabox.Nal Aabox.ScreenRecord Aabox.Video Aabox.Generations

inductive TestPatternProfile
  | p720p30 | p1080p30
  deriving DecidableEq, Repr

/-- The wait for the presentation time is left out. -/
structure TestPatternVideoSource where
  access_units : List Bytes
  next_idx : Nat
  frame_interval_us : Nat
  pts_us : Nat
  deriving DecidableEq, Repr

def FRAME_INTERVAL_US : Nat := 1000000 / 30

def TestPatternVideoSource.new (bytes : Bytes) : TestPatternVideoSource :=
  { access_units := groupAccessUnits bytes, next_idx := 0
    frame_interval_us := FRAME_INTERVAL_US, pts_us := 0 }

def TestPatternVideoSource.nextFrame (s : TestPatternVideoSource) :
    NextFrame × TestPatternVideoSource :=
  if s.access_units = [] then (.ended, s)
  else
    let au := s.access_units.getD s.next_idx []
    (.frame ⟨au, s.pts_us, auHasIdr au⟩,
      { s with
        next_idx := (s.next_idx + 1) % s.access_units.length
        pts_us := saturatingAdd s.pts_us s.frame_interval_us })

inductive VideoSource
  | screen (s : ScreenRecordVideoSource)
  | pattern (s : TestPatternVideoSource)
  deriving DecidableEq, Repr

def VideoSource.nextFrame : VideoSource → NextFrame × VideoSource
  | .screen s => ((ScreenRecord.nextFrame s).1, .screen (ScreenRecord.nextFrame s).2)
  | .pattern s => (s.nextFrame.1, .pattern s.nextFrame.2)

def profileFor (config : UInt32) : TestPatternProfile := if config = 0 then .p1080p30 else .p720p30

/-- The source of a new task: the recorder, with the results of its reads, or the test pattern when
no recorder can be spawned. -/
def sourceFor (assets : TestPatternProfile → Bytes) (config : UInt32) :
    Option (List ReadResult) → VideoSource
  | some reads => .screen (spawn (UInt32.ofNat (captureFor config).fps) reads)
  | none => .pattern (.new (assets (profileFor config)))

/-- `returned` lists the frames that the source has given. -/
structure Task where
  config : UInt32
  recorder : Option (List ReadResult)
  source : VideoSource
  returned : List VideoFrame
  deriving DecidableEq, Repr

/-- `pushed` lists what went into the queue, with the slot of the task, and `taken` what the loop
has taken out. -/
structure Stream where
  calls : State
  tasks : List Task
  pushed : List (Nat × OutboundMessage)
  taken : List OutboundMessage
  deriving DecidableEq, Repr

/-- `spawn` is the last access of a start, with the source that it finds, and `op` any other access
of the call in progress. `fetch` is a call of `next_frame` that returns; `drop` is the end of the
loop. -/
inductive PictureEvent
  | start (session : Int) (config : UInt32)
  | setWireChannel (ch : UInt8)
  | stop
  | op
  | spawn (recorder : Option (List ReadResult))
  | mediaAck
  | step (i : Nat) (ev : StreamerEvent)
  | fetch (i : Nat)
  | take
  | drop
  deriving DecidableEq, Repr

def init (max_in_flight : UInt32) : Stream := ⟨Generations.init max_in_flight, [], [], []⟩

def Stream.pipe (s : Stream) : VideoPipeline := s.calls.pipe

def Stream.withPipe (s : Stream) (p : VideoPipeline) : Stream :=
  { s with calls := { s.calls with pipe := p } }

def slot? (p : VideoPipeline) (i : Nat) : Option Streamer := p.streamers[i]?.join

/-- What a step of a task puts into the queue. -/
def handed (i : Nat) (st : Streamer) : StreamerEvent → List (Nat × OutboundMessage)
  | .send =>
    match st.pc with
    | .sending out => [(i, out)]
    | _ => []
  | _ => []

def isFetch : StreamerEvent → Bool
  | .frame _ _ | .exhausted => true
  | _ => false

/-- The streaming task with what its source returns. -/
def fetch (s : Stream) (i : Nat) (st : Streamer) (t : Task) : Option Stream :=
  match t.source.nextFrame with
  | (.waiting, _) => none
  | (.ended, source) =>
    (stepStreamer s.pipe i st .exhausted).map fun pipe =>
      { s.withPipe pipe with tasks := s.tasks.set i { t with source } }
  | (.frame f, source) =>
    (stepStreamer s.pipe i st (.frame (UInt64.ofNat f.pts_us) f.annex_b)).map fun pipe =>
      { s.withPipe pipe with
        tasks := s.tasks.set i { t with source, returned := t.returned ++ [f] } }

def call (s : Stream) (e : Event) : Option Stream :=
  (Generations.next s.calls e).map fun calls => { s with calls }

def next (assets : TestPatternProfile → Bytes) (s : Stream) : PictureEvent → Option Stream
  | .start session config => call s (.start session config)
  | .setWireChannel ch => call s (.wire ch)
  | .stop => call s .stop
  | .op =>
    match s.calls.call with
    | .startSent _ _ => none
    | _ => call s .op
  | .spawn recorder =>
    match s.calls.call with
    | .startSent config _ =>
      (call s .op).map fun s =>
        { s with tasks := s.tasks ++ [⟨config, recorder, sourceFor assets config recorder, []⟩] }
    | _ => none
  | .mediaAck => call s .ack
  | .step i ev =>
    match slot? s.pipe i with
    | some st =>
      if isFetch ev then none
      else (stepStreamer s.pipe i st ev).map fun pipe =>
        { s.withPipe pipe with pushed := s.pushed ++ handed i st ev }
    | none => none
  | .fetch i =>
    match slot? s.pipe i, s.tasks[i]? with
    | some st, some t => fetch s i st t
    | _, _ => none
  | .take =>
    match s.pipe.queue with
    | (_, out) :: _ =>
      if s.pipe.rx_open then (call s .recv).map fun s => { s with taken := s.taken ++ [out] }
      else none
    | [] => none
  | .drop => call s .dropRx

/-- A timestamp and the bytes of the access unit. -/
def payloadOf (pts_us : Nat) (annex_b : Bytes) : Bytes := beBytes 8 pts_us ++ annex_b

def sentBy (i : Nat) (pushed : List (Nat × OutboundMessage)) : List Bytes :=
  (pushed.filter (·.1 = i)).map (·.2.payload)

def hand : StreamerPc → List Bytes
  | .sending out => [out.payload]
  | _ => []

def inHand (slot : Option Streamer) : List Bytes := slot.elim [] fun st => hand st.pc

/-- The access units that a task has sent are those of its picture: the recorder's output from its
first start code on, without a gap, or the test pattern again and again. -/
def Depicts (assets : TestPatternProfile → Bytes) (t : Task) (units : List Bytes) : Prop :=
  match t.recorder with
  | some reads => ∃ used rest, reads = used ++ rest ∧ units <+: available (bytesOf used) ∧
      units.flatten <+: fromFirstCode (bytesOf used)
  | none =>
    let aus := groupAccessUnits (assets (profileFor t.config))
    ∀ k u, units[k]? = some u → aus[k % aus.length]? = some u

/-- What has been sent is a picture, and each unit has its time. -/
def Shown (assets : TestPatternProfile → Bytes) (t : Task) (payloads : List Bytes) : Prop :=
  ∃ units, Depicts assets t units ∧ payloads = units.mapIdx fun k u =>
    payloadOf (min (k * FRAME_INTERVAL_US) (2 ^ 64 - 1)) u

variable {assets : TestPatternProfile → Bytes} {s s' : Stream} {i j : Nat} {st : Streamer}
  {t : Task} {ev : StreamerEvent} {e : PictureEvent} {f : VideoFrame} {returned : List VideoFrame}
  {p p' : VideoPipeline} {a : Event} {max_in_flight : UInt32} {xs : List PictureEvent}

structure PatternInv (bytes : Bytes) (s : TestPatternVideoSource) (returned : List VideoFrame) :
    Prop where
  units : s.access_units = groupAccessUnits bytes
  interval : s.frame_interval_us = FRAME_INTERVAL_US
  next_idx : s.next_idx = returned.length % s.access_units.length
  next_pts : s.pts_us = min (returned.length * FRAME_INTERVAL_US) (2 ^ 64 - 1)
  frames : ∀ k f, returned[k]? = some f →
    s.access_units[k % s.access_units.length]? = some f.annex_b ∧
      f.pts_us = min (k * FRAME_INTERVAL_US) (2 ^ 64 - 1)

/-- The source has given the frames `returned`. -/
def Plays (assets : TestPatternProfile → Bytes) (t : Task) : Prop :=
  match t.recorder, t.source with
  | some reads, .screen src => ∃ rest, ScreenRecord.Inv 30 reads rest src t.returned ∧
      (src.stdout = some rest ∨ src.stdout = none)
  | none, .pattern src => PatternInv (assets (profileFor t.config)) src t.returned
  | _, _ => False

theorem captureFor_fps (config : UInt32) : UInt32.ofNat (captureFor config).fps = 30 := by
  unfold captureFor
  split
  · rfl
  · split <;> rfl

theorem plays_start (config : UInt32) (recorder : Option (List ReadResult)) :
    Plays assets ⟨config, recorder, sourceFor assets config recorder, []⟩ := by
  cases recorder with
  | some reads =>
    simp only [Plays, sourceFor, captureFor_fps]
    exact ⟨reads, inv_spawn 30 reads, .inl rfl⟩
  | none =>
    refine ⟨rfl, rfl, ?_, ?_, by simp⟩
    · simp [TestPatternVideoSource.new]
    · simp [TestPatternVideoSource.new]

theorem pattern_next {bytes : Bytes} {src : TestPatternVideoSource}
    (h : PatternInv bytes src returned) :
    PatternInv bytes src.nextFrame.2 (returned ++ src.nextFrame.1.frames) := by
  unfold TestPatternVideoSource.nextFrame
  split
  · simpa [NextFrame.frames] using h
  · rename_i hne
    have hlt : src.next_idx < src.access_units.length := by
      rw [h.next_idx]
      exact Nat.mod_lt _ (List.length_pos_iff.mpr hne)
    refine ⟨h.units, h.interval, ?_, ?_, ?_⟩
    · simp [NextFrame.frames, h.next_idx]
    · simp only [NextFrame.frames, List.length_append, List.length_singleton, h.next_pts,
        h.interval]
      exact saturatingAdd_min _ _
    · intro k f hf
      dsimp only [NextFrame.frames] at hf ⊢
      rcases Nat.lt_or_ge k returned.length with hlt | hge
      · rw [List.getElem?_append_left hlt] at hf
        exact h.frames k f hf
      · rw [List.getElem?_append_right hge, List.getElem?_singleton] at hf
        split at hf
        · cases hf
          obtain rfl : k = returned.length := by omega
          refine ⟨?_, h.next_pts⟩
          rw [← h.next_idx, List.getD_eq_getElem?_getD, List.getElem?_eq_getElem hlt]
          rfl
        · cases hf

theorem plays_next (h : Plays assets t) :
    Plays assets { t with
      source := t.source.nextFrame.2, returned := t.returned ++ t.source.nextFrame.1.frames } := by
  obtain ⟨config, recorder, source, returned⟩ := t
  cases recorder with
  | some reads =>
    cases source with
    | screen src =>
      obtain ⟨rest, hinv, hpipe⟩ := h
      exact call_inv (c := .nextFrame) (x := (src, returned)) hinv hpipe
    | pattern src => exact h.elim
  | none =>
    cases source with
    | screen src => exact h.elim
    | pattern src => exact pattern_next h

/-- What the source has given has been sent, but for the frame in hand, or one that was dropped as
the task returned. -/
def Sent (i : Nat) (t : Task) (slot : Option Streamer) (pushed : List (Nat × OutboundMessage)) :
    Prop :=
  ∃ lost, (t.returned.map fun f => payloadOf f.pts_us f.annex_b) =
    sentBy i pushed ++ inHand slot ++ lost ∧ (slot.isSome → lost = [])

structure Inv (assets : TestPatternProfile → Bytes) (s : Stream) : Prop where
  slots : s.tasks.length = s.pipe.streamers.length
  fifo : s.pushed.map (·.2) = s.taken ++ s.pipe.queue.map (·.2)
  known : ∀ x ∈ s.pushed, x.1 < s.tasks.length
  plays : ∀ t ∈ s.tasks, Plays assets t
  sent : ∀ i t, s.tasks[i]? = some t → Sent i t (slot? s.pipe i) s.pushed

def gained : StreamerEvent → List Bytes
  | .frame pts_us annex_b => [payloadOf pts_us.toNat annex_b]
  | _ => []

/-- What a step of a task does to its slot and to the queue. -/
structure Moved (p : VideoPipeline) (i : Nat) (st : Streamer) (ev : StreamerEvent)
    (st' : Option Streamer) (p' : VideoPipeline) : Prop where
  streamers : p'.streamers = p.streamers.set i st'
  queue : p'.queue.map (·.2) = p.queue.map (·.2) ++ (handed i st ev).map (·.2)
  hand : ∃ lost, inHand (some st) ++ gained ev =
    (handed i st ev).map (·.2.payload) ++ inHand st' ++ lost ∧ (st'.isSome → lost = [])

theorem step_moved (h : stepStreamer p i st ev = some p') : ∃ st', Moved p i st ev st' p' := by
  cases stepStreamer_cases h with
  | live hpc _ | stale hpc _ | full hpc _ | room hpc _ | wake hpc | changedLive hpc _
  | changedStale hpc _ | exhausted hpc | count hpc =>
    exact ⟨_, rfl, by simp [handed, VideoPipeline.setStreamer], [],
      by simp [inHand, hand, hpc, handed, gained], fun _ => rfl⟩
  | frame hpc =>
    exact ⟨_, rfl, by simp [handed, VideoPipeline.setStreamer], [],
      by simp [inHand, hand, hpc, handed, gained, payloadOf], fun _ => rfl⟩
  | send hpc _ _ =>
    exact ⟨_, rfl, by simp [handed, hpc, VideoPipeline.setStreamer], [],
      by simp [inHand, hand, hpc, handed, gained], fun _ => rfl⟩
  | @sendFailed out hpc _ =>
    exact ⟨none, rfl, by simp [handed, VideoPipeline.setStreamer], [out.payload],
      by simp [inHand, hand, hpc, handed, gained], by simp⟩

theorem handed_index {x : Nat × OutboundMessage} (h : x ∈ handed i st ev) : x.1 = i := by
  unfold handed at h
  split at h
  · split at h
    · rw [List.mem_singleton.mp h]
    · cases h
  · cases h

theorem sentBy_append (i : Nat) (xs ys : List (Nat × OutboundMessage)) :
    sentBy i (xs ++ ys) = sentBy i xs ++ sentBy i ys := by
  simp [sentBy]

theorem sentBy_handed : sentBy i (handed i st ev) = (handed i st ev).map (·.2.payload) := by
  rw [sentBy, List.filter_eq_self.mpr fun x hx => by simpa using handed_index hx]

theorem sentBy_other (hij : j ≠ i) : sentBy j (handed i st ev) = [] := by
  rw [sentBy, List.filter_eq_nil_iff.mpr]
  · rfl
  · intro x hx
    have hi := handed_index hx
    simpa [hi] using Ne.symm hij

theorem slot?_set {st' : Option Streamer} (hp : p'.streamers = p.streamers.set i st')
    (hi : slot? p i = some st) : slot? p' i = st' := by
  have hlt : i < p.streamers.length := by
    by_contra hge
    simp [slot?, List.getElem?_eq_none (Nat.le_of_not_lt hge)] at hi
  simp [slot?, hp, hlt]

theorem slot?_set_other {st' : Option Streamer} (hp : p'.streamers = p.streamers.set i st')
    (hij : i ≠ j) : slot? p' j = slot? p j := by
  simp [slot?, hp, List.getElem?_set_ne hij]

theorem sent_moved {t' : Task} {st' : Option Streamer} {pushed : List (Nat × OutboundMessage)}
    (h : Sent i t (some st) pushed) (hm : Moved p i st ev st' p')
    (hret : (t'.returned.map fun f => payloadOf f.pts_us f.annex_b) =
      (t.returned.map fun f => payloadOf f.pts_us f.annex_b) ++ gained ev) :
    Sent i t' st' (pushed ++ handed i st ev) := by
  obtain ⟨lost, hsent, hlost⟩ := h
  obtain rfl : lost = [] := hlost rfl
  obtain ⟨gone, hhand, hgone⟩ := hm.hand
  refine ⟨gone, ?_, hgone⟩
  rw [List.append_nil] at hsent
  rw [hret, hsent, List.append_assoc, hhand, sentBy_append, sentBy_handed]
  simp only [List.append_assoc]

theorem sent_other {slot : Option Streamer} {pushed : List (Nat × OutboundMessage)}
    (h : Sent j t slot pushed) (hij : j ≠ i) : Sent j t slot (pushed ++ handed i st ev) := by
  obtain ⟨lost, hsent, hlost⟩ := h
  exact ⟨lost, by rw [sentBy_append, sentBy_other hij, List.append_nil, hsent], hlost⟩

/-- A step of a task, with what it takes from its source. -/
theorem inv_moved (h : Inv assets s) (hi : slot? s.pipe i = some st) (ht : s.tasks[i]? = some t)
    {t' : Task} {st' : Option Streamer} (hm : Moved s.pipe i st ev st' p')
    (hplays : Plays assets t') (hret : (t'.returned.map fun f => payloadOf f.pts_us f.annex_b) =
      (t.returned.map fun f => payloadOf f.pts_us f.annex_b) ++ gained ev) :
    Inv assets { s.withPipe p' with
      tasks := s.tasks.set i t', pushed := s.pushed ++ handed i st ev } where
  slots := by simpa [Stream.pipe, Stream.withPipe, hm.streamers] using h.slots
  fifo := by
    simp only [Stream.pipe, Stream.withPipe, hm.queue, List.map_append, h.fifo, List.append_assoc]
  known := by
    intro x hx
    rw [List.length_set]
    rcases List.mem_append.mp hx with hx | hx
    · exact h.known x hx
    · rw [handed_index hx]
      exact (List.getElem?_eq_some_iff.mp ht).1
  plays := by
    intro u hu
    rcases List.mem_or_eq_of_mem_set hu with hu | rfl
    · exact h.plays u hu
    · exact hplays
  sent := by
    intro j u hu
    have hlt := (List.getElem?_eq_some_iff.mp ht).1
    simp only [Stream.pipe, Stream.withPipe] at hu ⊢
    by_cases hij : i = j
    · subst hij
      rw [List.getElem?_set_self hlt] at hu
      obtain rfl := Option.some.inj hu
      rw [slot?_set hm.streamers hi]
      exact sent_moved (hi ▸ h.sent i t ht) hm hret
    · rw [List.getElem?_set_ne hij] at hu
      rw [slot?_set_other hm.streamers hij]
      exact sent_other (h.sent j u hu) (Ne.symm hij)

theorem sentBy_nil (h : ∀ x ∈ s.pushed, x.1 < s.tasks.length) (hi : s.tasks.length ≤ i) :
    sentBy i s.pushed = [] := by
  rw [sentBy, List.filter_eq_nil_iff.mpr]
  · rfl
  · intro x hx
    have hlt := h x hx
    simp only [decide_eq_true_eq]
    omega

theorem slot?_append (slot : Option Streamer) (hi : i < p.streamers.length)
    (hp : p'.streamers = p.streamers ++ [slot]) : slot? p' i = slot? p i := by
  simp [slot?, hp, List.getElem?_append_left hi]

theorem slot?_new {slot : Option Streamer} (hp : p'.streamers = p.streamers ++ [slot]) :
    slot? p' p.streamers.length = slot := by
  simp [slot?, hp]

/-- A new task is at the top of its loop, with nothing in hand. -/
theorem inv_spawn (h : Inv assets s) (config : UInt32) (recorder : Option (List ReadResult))
    (hp : p'.streamers = s.pipe.streamers ++ [some st]) (htop : st.pc = .top)
    (hq : p'.queue = s.pipe.queue) (c : State) (hc : c.pipe = p') : Inv assets { s with
      calls := c
      tasks := s.tasks ++ [⟨config, recorder, sourceFor assets config recorder, []⟩] } where
  slots := by simp [Stream.pipe, hc, hp, h.slots]
  fifo := by
    simp only [Stream.pipe, hc, hq]
    exact h.fifo
  known := by
    intro x hx
    exact Nat.lt_of_lt_of_le (h.known x hx) (by simp)
  plays := by
    intro u hu
    rcases List.mem_append.mp hu with hu | hu
    · exact h.plays u hu
    · rw [List.mem_singleton.mp hu]
      exact plays_start config recorder
  sent := by
    intro j u hu
    simp only [Stream.pipe, hc] at hu ⊢
    rcases Nat.lt_or_ge j s.tasks.length with hlt | hge
    · rw [List.getElem?_append_left hlt] at hu
      rw [slot?_append _ (h.slots ▸ hlt) hp]
      exact h.sent j u hu
    · have hj := (List.getElem?_eq_some_iff.mp hu).1
      obtain rfl : j = s.tasks.length := by
        rw [List.length_append, List.length_singleton] at hj
        omega
      rw [List.getElem?_concat_length] at hu
      obtain rfl := Option.some.inj hu
      rw [h.slots, slot?_new hp, ← h.slots]
      exact ⟨[], by simp [sentBy_nil h.known (Nat.le_refl _), inHand, hand, htop], fun _ => rfl⟩

/-- Neither the slots nor the queue change. -/
theorem inv_pipe (h : Inv assets s) (c : State) (hp : c.pipe.streamers = s.pipe.streamers)
    (hq : c.pipe.queue = s.pipe.queue) : Inv assets { s with calls := c } where
  slots := by rw [Stream.pipe, hp, h.slots]
  fifo := by rw [Stream.pipe, hq, h.fifo]
  known := h.known
  plays := h.plays
  sent := by
    intro j u hu
    have hslot : slot? c.pipe j = slot? s.pipe j := by rw [slot?, slot?, hp]
    rw [Stream.pipe, hslot]
    exact h.sent j u hu

theorem inv_take {g : UInt64} {out : OutboundMessage} {queue : List (UInt64 × OutboundMessage)}
    (h : Inv assets s) (hq : s.pipe.queue = (g, out) :: queue) :
    Inv assets { s.withPipe { s.pipe with queue } with taken := s.taken ++ [out] } where
  slots := h.slots
  fifo := by
    change s.pushed.map (·.2) = s.taken ++ [out] ++ queue.map (·.2)
    rw [h.fifo, hq]
    simp
  known := h.known
  plays := h.plays
  sent := h.sent

theorem gained_other (hev : isFetch ev = false) : gained ev = [] := by
  cases ev with
  | frame _ _ | exhausted => cases hev
  | _ => rfl

theorem list_set_self {α : Type*} {xs : List α} {i : Nat} {x : α} (h : xs[i]? = some x) :
    xs.set i x = xs := by
  obtain ⟨hi, rfl⟩ := List.getElem?_eq_some_iff.mp h
  exact List.set_getElem_self hi

theorem inv_own (h : Inv assets s) (hi : slot? s.pipe i = some st) (hev : isFetch ev = false)
    (hstep : stepStreamer s.pipe i st ev = some p') :
    Inv assets { s.withPipe p' with pushed := s.pushed ++ handed i st ev } := by
  obtain ⟨st', hm⟩ := step_moved hstep
  have hlt : i < s.tasks.length := by
    rw [h.slots]
    by_contra hge
    simp [slot?, List.getElem?_eq_none (Nat.le_of_not_lt hge)] at hi
  have ht := List.getElem?_eq_getElem hlt
  have hinv := inv_moved h hi ht hm (h.plays _ (List.getElem_mem hlt))
    (by rw [gained_other hev, List.append_nil])
  rwa [list_set_self ht] at hinv

/-- A timestamp of the source fits into its field. -/
theorem pts_lt (h : Plays assets t) (hf : t.returned = returned ++ [f]) : f.pts_us < 2 ^ 64 := by
  obtain ⟨config, recorder, source, _⟩ := t
  obtain rfl := hf
  have hlast : (returned ++ [f])[returned.length]? = some f := List.getElem?_concat_length
  cases recorder with
  | some reads =>
    cases source with
    | screen src =>
      obtain ⟨rest, hinv, -⟩ := h
      rw [hinv.pts _ f hlast]
      omega
    | pattern src => exact h.elim
  | none =>
    cases source with
    | screen src => exact h.elim
    | pattern src =>
      rw [(h.frames _ f hlast).2]
      omega

theorem inv_fetch (h : Inv assets s) (hi : slot? s.pipe i = some st) (ht : s.tasks[i]? = some t)
    (hfetch : fetch s i st t = some s') : Inv assets s' := by
  have hplays := plays_next (h.plays t (List.mem_of_getElem? ht))
  unfold fetch at hfetch
  split at hfetch
  · cases hfetch
  · rename_i source hnext
    obtain ⟨p', hstep, rfl⟩ := Option.map_eq_some_iff.mp hfetch
    obtain ⟨st', hm⟩ := step_moved hstep
    simp only [hnext, NextFrame.frames, List.append_nil] at hplays
    have hinv := inv_moved h hi ht hm hplays (by simp [gained])
    rw [show handed i st .exhausted = [] from rfl, List.append_nil] at hinv
    exact hinv
  · rename_i f source hnext
    obtain ⟨p', hstep, rfl⟩ := Option.map_eq_some_iff.mp hfetch
    obtain ⟨st', hm⟩ := step_moved hstep
    simp only [hnext, NextFrame.frames] at hplays
    have hpts : (UInt64.ofNat f.pts_us).toNat = f.pts_us := by
      rw [UInt64.toNat_ofNat']
      exact Nat.mod_eq_of_lt (pts_lt hplays rfl)
    have hinv := inv_moved h hi ht hm hplays (by simp [gained, hpts])
    rw [show handed i st (.frame _ f.annex_b) = [] from rfl, List.append_nil] at hinv
    exact hinv

theorem call_eq (h : call s a = some s') :
    ∃ c, Step s.calls a c ∧ s' = { s with calls := c } := by
  obtain ⟨c, hc, rfl⟩ := Option.map_eq_some_iff.mp h
  exact ⟨c, step_of_next hc, rfl⟩

/-- A call's accesses other than the spawn of its task. -/
theorem op_same (c : State) (h : ∀ config new_gen, c.call ≠ .startSent config new_gen) :
    c.op.pipe.streamers = c.pipe.streamers ∧ c.op.pipe.queue = c.pipe.queue := by
  have hsend : ∀ g, (c.sendGeneration g).streamers = c.pipe.streamers ∧
      (c.sendGeneration g).queue = c.pipe.queue := by
    intro g
    unfold State.sendGeneration
    split <;> exact ⟨rfl, rfl⟩
  obtain ⟨p, call, begun, stopped⟩ := c
  cases call with
  | startSent config new_gen => exact absurd rfl (h config new_gen)
  | startLoaded config new_gen | stopLoaded new_gen => exact hsend new_gen
  | _ => exact ⟨rfl, rfl⟩

theorem inv_next (h : Inv assets s) (hnext : next assets s e = some s') : Inv assets s' := by
  cases e with
  | start _ _ | stop | setWireChannel _ | mediaAck | drop =>
    obtain ⟨c, hstep, rfl⟩ := call_eq hnext
    cases hstep
    exact inv_pipe h _ rfl rfl
  | op =>
    simp only [next] at hnext
    split at hnext
    · cases hnext
    · rename_i hcall
      cases hnext
      obtain ⟨hstreamers, hqueue⟩ := op_same s.calls hcall
      exact inv_pipe h _ hstreamers hqueue
  | spawn recorder =>
    simp only [next] at hnext
    split at hnext
    · rename_i config new_gen hcall
      cases hnext
      have hspawned : s.calls.op.pipe.streamers =
          s.pipe.streamers ++ [some ⟨new_gen, .top, captureFor config⟩] := by
        rw [State.op, hcall]
        rfl
      refine inv_spawn h config recorder hspawned rfl ?_ _ rfl
      · rw [State.op, hcall]
        rfl
    · cases hnext
  | step i ev =>
    simp only [next] at hnext
    split at hnext
    · rename_i st hi
      split at hnext
      · cases hnext
      · rename_i hev
        obtain ⟨p', hstep, rfl⟩ := Option.map_eq_some_iff.mp hnext
        exact inv_own h hi (Bool.eq_false_iff.mpr hev) hstep
    · cases hnext
  | fetch i =>
    simp only [next] at hnext
    split at hnext
    · rename_i st t hi ht
      exact inv_fetch h hi ht hnext
    · cases hnext
  | take =>
    simp only [next] at hnext
    split at hnext
    · rename_i g out queue hq
      split at hnext
      · have hq' : s.calls.pipe.queue = (g, out) :: queue := hq
        simp only [call, Generations.next, hq', Option.map_some, Option.some.injEq] at hnext
        subst hnext
        exact inv_take h hq
      · cases hnext
    · cases hnext

theorem inv_init (max_in_flight : UInt32) : Inv assets (init max_in_flight) where
  slots := rfl
  fifo := rfl
  known := by simp [init]
  plays := by simp [init]
  sent := by simp [init]

theorem fetch_queue (hfetch : fetch s i st t = some s') :
    s'.pushed = s.pushed ∧ s'.taken = s.taken := by
  unfold fetch at hfetch
  split at hfetch
  · cases hfetch
  · obtain ⟨p', -, rfl⟩ := Option.map_eq_some_iff.mp hfetch
    exact ⟨rfl, rfl⟩
  · obtain ⟨p', -, rfl⟩ := Option.map_eq_some_iff.mp hfetch
    exact ⟨rfl, rfl⟩

theorem next_grows (hnext : next assets s e = some s') :
    s.pushed <+: s'.pushed ∧ s.taken <+: s'.taken := by
  cases e with
  | start _ _ | stop | setWireChannel _ | mediaAck | drop =>
    obtain ⟨c, -, rfl⟩ := call_eq hnext
    exact ⟨List.prefix_refl _, List.prefix_refl _⟩
  | op =>
    simp only [next] at hnext
    split at hnext
    · cases hnext
    · obtain ⟨c, -, rfl⟩ := call_eq hnext
      exact ⟨List.prefix_refl _, List.prefix_refl _⟩
  | spawn recorder =>
    simp only [next] at hnext
    split at hnext <;> cases hnext
    exact ⟨List.prefix_refl _, List.prefix_refl _⟩
  | step i ev =>
    simp only [next] at hnext
    split at hnext
    · split at hnext
      · cases hnext
      · obtain ⟨p', -, rfl⟩ := Option.map_eq_some_iff.mp hnext
        exact ⟨List.prefix_append _ _, List.prefix_refl _⟩
    · cases hnext
  | fetch i =>
    simp only [next] at hnext
    split at hnext
    · obtain ⟨hpushed, htaken⟩ := fetch_queue hnext
      rw [hpushed, htaken]
      exact ⟨List.prefix_refl _, List.prefix_refl _⟩
    · cases hnext
  | take =>
    simp only [next] at hnext
    split at hnext
    · split at hnext
      · obtain ⟨u, hu, rfl⟩ := Option.map_eq_some_iff.mp hnext
        obtain ⟨c, -, rfl⟩ := call_eq hu
        exact ⟨List.prefix_refl _, List.prefix_append _ _⟩
      · cases hnext
    · cases hnext

variable (assets) in
/-- The shared queue, between all the tasks and the loop. -/
theorem queue_refines : Refines (Steps (next assets)) Fifo.Step fun s q =>
    Inv assets s ∧ q.pushed = s.pushed.map (·.2) ∧ q.popped = s.taken := by
  refine Fifo.refines (fun _ _ _ => inv_next) ?_ ?_ ?_
  · intro s e s' _ hnext
    exact List.IsPrefix.map _ (next_grows hnext).1
  · intro s e s' _ hnext
    exact (next_grows hnext).2
  · intro s hs
    exact ⟨_, hs.fifo.symm⟩

theorem getElem?_of_take {n k : Nat} (h : (returned.take n)[k]? = some f) :
    returned[k]? = some f := by
  rw [List.getElem?_take] at h
  split at h
  · exact h
  · cases h

theorem depicts_of_plays (h : Plays assets t) (n : Nat) :
    Depicts assets t ((t.returned.take n).map VideoFrame.annex_b) := by
  obtain ⟨config, recorder, source, returned⟩ := t
  cases recorder with
  | some reads =>
    cases source with
    | screen src =>
      obtain ⟨rest, hinv, hpipe⟩ := h
      have hext := extracts_of_inv hinv hpipe
      obtain ⟨used, rest', hreads, hdel, -⟩ := hext.delivered
      have hunits : (returned.take n).map VideoFrame.annex_b <+:
          returned.map VideoFrame.annex_b ++ src.queued :=
        ((List.take_prefix n returned).map _).trans (List.prefix_append _ _)
      refine ⟨used, rest', hreads, ?_, ?_⟩
      · rw [← hdel, ← hext.units]
        exact hunits
      · rw [← hdel]
        by_cases hcodes : fromFirstCode src.delivered = []
        · rw [(hext.waiting hcodes).1]
          simp
        · rw [← hext.lossless hcodes]
          exact hunits.flatten.trans (List.prefix_append _ _)
    | pattern src => exact h.elim
  | none =>
    cases source with
    | screen src => exact h.elim
    | pattern src =>
      intro k u hu
      obtain ⟨f, hf, rfl⟩ := Option.map_eq_some_iff.mp (List.getElem?_map .. ▸ hu)
      rw [← h.units]
      exact (h.frames k f (getElem?_of_take hf)).1

theorem times_of_plays (h : Plays assets t) :
    ∀ k f, t.returned[k]? = some f → f.pts_us = min (k * FRAME_INTERVAL_US) (2 ^ 64 - 1) := by
  obtain ⟨config, recorder, source, returned⟩ := t
  intro k f hf
  cases recorder with
  | some reads =>
    cases source with
    | screen src =>
      obtain ⟨rest, hinv, -⟩ := h
      have hpts := hinv.pts k f hf
      rw [hinv.interval] at hpts
      exact hpts
    | pattern src => exact h.elim
  | none =>
    cases source with
    | screen src => exact h.elim
    | pattern src => exact (h.frames k f hf).2

theorem shown_of_sent {pushed : List (Nat × OutboundMessage)} {slot : Option Streamer}
    (h : Plays assets t) (hsent : Sent i t slot pushed) : Shown assets t (sentBy i pushed) := by
  obtain ⟨lost, hsent, -⟩ := hsent
  have htake : sentBy i pushed =
      (t.returned.take (sentBy i pushed).length).map fun f => payloadOf f.pts_us f.annex_b := by
    rw [List.map_take, hsent, List.append_assoc, List.take_left]
  generalize (sentBy i pushed).length = n at htake
  refine ⟨_, depicts_of_plays h n, ?_⟩
  rw [htake]
  apply List.ext_getElem?
  intro k
  rw [List.getElem?_mapIdx, List.getElem?_map, List.getElem?_map]
  cases hf : (t.returned.take n)[k]? with
  | none => rfl
  | some f =>
    simp [times_of_plays h k f (getElem?_of_take hf)]

/-- Whatever the order in which the tasks, the acknowledgements, the generations and the loop step,
the messages come out of the queue as they went in, and those of each task are its picture. -/
theorem picture_in_order (h : Run (Steps (next assets)) (init max_in_flight) xs s) :
    (∃ q, Reachable Fifo.Step Fifo.empty q ∧ q.pushed = s.pushed.map (·.2) ∧
      q.popped = s.taken) ∧
    ∀ i t, s.tasks[i]? = some t → Shown assets t (sentBy i s.pushed) := by
  constructor
  · have hstart : Inv assets (init max_in_flight) ∧
        (Fifo.empty : Fifo OutboundMessage).pushed = [] ∧
        (Fifo.empty : Fifo OutboundMessage).popped = [] := ⟨inv_init max_in_flight, rfl, rfl⟩
    obtain ⟨q, hq, -, hpushed, hpopped⟩ := (queue_refines assets).reachable hstart ⟨xs, h⟩
    exact ⟨q, hq, hpushed, hpopped⟩
  · intro i t ht
    have hinv : Inv assets s := h.invariant (fun _ _ _ => inv_next) (inv_init max_in_flight)
    exact shown_of_sent (hinv.plays t (List.mem_of_getElem? ht)) (hinv.sent i t ht)

/-- A task on the test pattern and, after a second START, one on a recorder: the first has a unit
in hand when it is replaced, and sends it during the second call. -/
theorem two_tasks_shown :
    ∃ s : Stream, s.pushed.map Prod.fst = [0, 1] ∧ s.taken.length = 1 ∧
      ∀ i t, s.tasks[i]? = some t →
        Shown (fun _ => [0, 0, 1, 0x65, 0x80, 1]) t (sentBy i s.pushed) := by
  let recorder : List ReadResult := [.ok [0, 0, 1, 0x65, 0x80, 9, 0, 0, 1, 0x41, 0x80, 0, 0, 1]]
  let xs : List PictureEvent := .start 1 0 :: List.replicate 5 .op ++ [.spawn none,
    .step 0 .checkGeneration, .step 0 .checkCap, .fetch 0, .start 2 0] ++ List.replicate 5 .op ++
    [.step 0 .send, .spawn (some recorder), .step 1 .checkGeneration, .step 1 .checkCap, .fetch 1,
      .take, .step 1 .send]
  have hrun : (xs.foldlM (next fun _ => [0, 0, 1, 0x65, 0x80, 1]) (init 10)).any
      (fun s => s.pushed.map Prod.fst = [0, 1] ∧ s.taken.length = 1) = true := by decide +kernel
  obtain ⟨s, hrun, hend⟩ := (Option.any_eq_true _ _).mp hrun
  obtain ⟨hpushed, htaken⟩ := of_decide_eq_true hend
  exact ⟨s, hpushed, htaken, (picture_in_order (run_iff_foldlM.mpr hrun)).2⟩

end Aabox.Picture
