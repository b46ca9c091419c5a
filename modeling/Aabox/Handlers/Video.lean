import Aabox.Handlers.Audio

/-!
# The video channel

The pipeline shared by the channel handler and the streaming tasks. `streamers` has a slot for every
task spawned, `none` once it has returned; the tasks that have not hold the watch's receivers. A
queued frame is kept with the generation of the task that sent it.
-/
namespace Aabox.Video
open Aabox.Lib Aabox.Messages Aabox.Audio

def VIDEO_MAX_UNACKED : UInt32 := 10

/-- What START's configuration index asks the screen recorder for. -/
structure Capture where
  w : Nat
  h : Nat
  fps : Nat
  bitrate : Nat
  deriving DecidableEq, Repr

def captureFor (config : UInt32) : Capture :=
  if config = 0 then ⟨1920, 1080, 30, 6000000⟩
  else if config = 1 then ⟨1280, 720, 30, 3000000⟩
  else ⟨854, 480, 30, 1500000⟩

/-- Where a streaming task stands: before the generation check, before the cap check, asleep at the
cap, awaiting a frame, awaiting the queue, and before the increment. -/
inductive StreamerPc
  | top | capCheck | capped | fetching
  | sending (out : OutboundMessage)
  | counting
  deriving DecidableEq, Repr

structure Streamer where
  my_gen : UInt64
  pc : StreamerPc
  source : Capture
  deriving DecidableEq, Repr

structure VideoPipeline where
  generation : UInt64
  session_id : Int
  in_flight : UInt32
  max_in_flight : UInt32
  wire_channel : UInt8
  queue : List (UInt64 × OutboundMessage)
  rx_open : Bool
  streamers : List (Option Streamer)
  deriving DecidableEq, Repr

def QUEUE_CAPACITY : Nat := 64

def VideoPipeline.new (max_in_flight : UInt32) : VideoPipeline :=
  { generation := 0, session_id := 0, in_flight := 0, max_in_flight
    wire_channel := ChannelId.none.toU8, queue := [], rx_open := true, streamers := [] }

def VideoPipeline.setWireChannel (p : VideoPipeline) (ch : UInt8) : VideoPipeline :=
  { p with wire_channel := ch }

/-- The new task's own receiver is subscribed first, so the new generation is always stored. -/
def VideoPipeline.start (p : VideoPipeline) (session : Int) (config : UInt32) : VideoPipeline :=
  let new_gen := p.generation + 1
  { p with
    session_id := session
    in_flight := 0
    generation := new_gen
    streamers := p.streamers ++ [some ⟨new_gen, .top, captureFor config⟩] }

/-- `send` on a watch without receivers fails and leaves its value alone. -/
def VideoPipeline.stop (p : VideoPipeline) : VideoPipeline :=
  { p with
    generation := if p.streamers.any Option.isSome then p.generation + 1 else p.generation
    in_flight := 0 }

def VideoPipeline.onMediaAck (p : VideoPipeline) : VideoPipeline :=
  { p with in_flight := if p.in_flight > 0 then p.in_flight - 1 else 0 }

theorem onMediaAck_eq (p : VideoPipeline) :
    ∃ n : UInt32, p.onMediaAck = { p with in_flight := n } ∧ n.toNat = p.in_flight.toNat - 1 := by
  by_cases hpos : p.in_flight > 0
  · refine ⟨p.in_flight - 1, by simp [VideoPipeline.onMediaAck, hpos], ?_⟩
    have hlt := UInt32.lt_iff_toNat_lt.mp hpos
    rw [UInt32.toNat_sub_of_le]
    · rfl
    · rw [UInt32.le_iff_toNat_le]
      exact hlt
  · refine ⟨0, by simp [VideoPipeline.onMediaAck, hpos], ?_⟩
    rw [gt_iff_lt, UInt32.lt_iff_toNat_lt] at hpos
    simp only [UInt32.toNat_zero] at hpos ⊢
    omega

def VideoPipeline.setStreamer (p : VideoPipeline) (i : Nat) (st : Option Streamer) : VideoPipeline :=
  { p with streamers := p.streamers.set i st }

/-- The steps of a streaming task, each one access to the shared state. `wake` and `changed` are the
two ways out of the wait at the cap. -/
inductive StreamerEvent
  | checkGeneration | checkCap | wake | changed
  | frame (pts_us : UInt64) (annex_b : Bytes)
  | exhausted | send | sendFailed | count
  deriving DecidableEq, Repr

def stepStreamer (p : VideoPipeline) (i : Nat) (st : Streamer) :
    StreamerEvent → Option VideoPipeline
  | .checkGeneration =>
    if st.pc = .top then
      if p.generation = st.my_gen then some (p.setStreamer i (some { st with pc := .capCheck }))
      else some (p.setStreamer i none)
    else none
  | .checkCap =>
    if st.pc = .capCheck then
      if p.in_flight ≥ p.max_in_flight then
        some (p.setStreamer i (some { st with pc := .capped }))
      else some (p.setStreamer i (some { st with pc := .fetching }))
    else none
  | .wake =>
    if st.pc = .capped then some (p.setStreamer i (some { st with pc := .capCheck })) else none
  | .changed =>
    if st.pc = .capped then
      if p.generation = st.my_gen then some (p.setStreamer i (some { st with pc := .capCheck }))
      else some (p.setStreamer i none)
    else none
  | .frame pts_us annex_b =>
    if st.pc = .fetching then
      let payload := beBytes 8 pts_us.toNat ++ annex_b
      let out : OutboundMessage :=
        ⟨p.wire_channel, MSG_AV_MEDIA_WITH_TIMESTAMP_INDICATION, payload⟩
      some (p.setStreamer i (some { st with pc := .sending out }))
    else none
  | .exhausted => if st.pc = .fetching then some (p.setStreamer i none) else none
  | .send =>
    match st.pc with
    | .sending out =>
      if p.rx_open ∧ p.queue.length < QUEUE_CAPACITY then
        let p := { p with queue := p.queue ++ [(st.my_gen, out)] }
        some (p.setStreamer i (some { st with pc := .counting }))
      else none
    | _ => none
  | .sendFailed =>
    match st.pc with
    | .sending _ => if p.rx_open then none else some (p.setStreamer i none)
    | _ => none
  | .count =>
    if st.pc = .counting then
      let p := { p with in_flight := p.in_flight + 1 }
      some (p.setStreamer i (some { st with pc := .top }))
    else none

/-- When each event can happen, and the pipeline that it leaves. -/
inductive StreamerStep (p : VideoPipeline) (i : Nat) (st : Streamer) :
    StreamerEvent → VideoPipeline → Prop
  | live : st.pc = .top → p.generation = st.my_gen →
    StreamerStep p i st .checkGeneration (p.setStreamer i (some { st with pc := .capCheck }))
  | stale : st.pc = .top → p.generation ≠ st.my_gen →
    StreamerStep p i st .checkGeneration (p.setStreamer i none)
  | full : st.pc = .capCheck → p.max_in_flight ≤ p.in_flight →
    StreamerStep p i st .checkCap (p.setStreamer i (some { st with pc := .capped }))
  | room : st.pc = .capCheck → p.in_flight < p.max_in_flight →
    StreamerStep p i st .checkCap (p.setStreamer i (some { st with pc := .fetching }))
  | wake : st.pc = .capped →
    StreamerStep p i st .wake (p.setStreamer i (some { st with pc := .capCheck }))
  | changedLive : st.pc = .capped → p.generation = st.my_gen →
    StreamerStep p i st .changed (p.setStreamer i (some { st with pc := .capCheck }))
  | changedStale : st.pc = .capped → p.generation ≠ st.my_gen →
    StreamerStep p i st .changed (p.setStreamer i none)
  | frame {pts_us : UInt64} {annex_b : Bytes} : st.pc = .fetching →
    StreamerStep p i st (.frame pts_us annex_b) (p.setStreamer i (some { st with
      pc := .sending ⟨p.wire_channel, MSG_AV_MEDIA_WITH_TIMESTAMP_INDICATION,
        beBytes 8 pts_us.toNat ++ annex_b⟩ }))
  | exhausted : st.pc = .fetching → StreamerStep p i st .exhausted (p.setStreamer i none)
  | send {out : OutboundMessage} : st.pc = .sending out → p.rx_open →
    p.queue.length < QUEUE_CAPACITY →
    StreamerStep p i st .send ({ p with queue := p.queue ++ [(st.my_gen, out)] }.setStreamer i
      (some { st with pc := .counting }))
  | sendFailed {out : OutboundMessage} : st.pc = .sending out → p.rx_open = false →
    StreamerStep p i st .sendFailed (p.setStreamer i none)
  | count : st.pc = .counting →
    StreamerStep p i st .count ({ p with in_flight := p.in_flight + 1 }.setStreamer i
      (some { st with pc := .top }))

theorem stepStreamer_cases {p p' : VideoPipeline} {i : Nat} {st : Streamer} {ev : StreamerEvent}
    (h : stepStreamer p i st ev = some p') : StreamerStep p i st ev p' := by
  cases ev with
  | checkGeneration =>
    simp only [stepStreamer] at h
    split at h
    · rename_i hpc
      split at h <;> cases h
      · rename_i hgen
        exact .live hpc hgen
      · rename_i hgen
        exact .stale hpc hgen
    · cases h
  | checkCap =>
    simp only [stepStreamer] at h
    split at h
    · rename_i hpc
      split at h <;> cases h
      · rename_i hcap
        exact .full hpc hcap
      · rename_i hcap
        exact .room hpc (UInt32.not_le.mp hcap)
    · cases h
  | wake =>
    simp only [stepStreamer] at h
    split at h <;> cases h
    rename_i hpc
    exact .wake hpc
  | changed =>
    simp only [stepStreamer] at h
    split at h
    · rename_i hpc
      split at h <;> cases h
      · rename_i hgen
        exact .changedLive hpc hgen
      · rename_i hgen
        exact .changedStale hpc hgen
    · cases h
  | frame pts_us annex_b =>
    simp only [stepStreamer] at h
    split at h <;> cases h
    rename_i hpc
    exact .frame hpc
  | exhausted =>
    simp only [stepStreamer] at h
    split at h <;> cases h
    rename_i hpc
    exact .exhausted hpc
  | send =>
    simp only [stepStreamer] at h
    split at h
    · rename_i out hpc
      split at h <;> cases h
      rename_i hroom
      exact .send hpc hroom.1 hroom.2
    · cases h
  | sendFailed =>
    simp only [stepStreamer] at h
    split at h
    · rename_i out hpc
      split at h <;> cases h
      rename_i hrx
      exact .sendFailed hpc (Bool.eq_false_iff.mpr hrx)
    · cases h
  | count =>
    simp only [stepStreamer] at h
    split at h <;> cases h
    rename_i hpc
    exact .count hpc

/-- A step of a task touches no slot but its own, and neither cap nor generation. -/
theorem stepStreamer_frame {p p' : VideoPipeline} {i : Nat} {st : Streamer} {ev : StreamerEvent}
    (h : stepStreamer p i st ev = some p') :
    p'.max_in_flight = p.max_in_flight ∧ p'.rx_open = p.rx_open ∧ p'.generation = p.generation ∧
      ∃ st', p'.streamers = p.streamers.set i st' := by
  cases stepStreamer_cases h <;> exact ⟨rfl, rfl, rfl, _, rfl⟩

/-- `channels::video::handle` on the live pipeline. -/
def handle (prost : Prost) (channel : UInt8) (msg_id : UInt16) (payload : Bytes)
    (pipeline : VideoPipeline) : Except HandlerError (List OutboundMessage) × VideoPipeline :=
  if msg_id = MSG_SETUP_REQUEST then
    match prost.avChannelSetupRequest payload with
    | none => (.error .avChannelSetupRequest, pipeline)
    | some req =>
      (.ok [⟨channel, MSG_SETUP_RESPONSE, prost.avChannelSetupResponse
        ⟨prost.av_channel_setup_ok, VIDEO_MAX_UNACKED, [req.config_index]⟩⟩], pipeline)
  else if msg_id = MSG_START_INDICATION then
    match prost.avChannelStartIndication payload with
    | none => (.error .avChannelStartIndication, pipeline)
    | some ind => (.ok [], pipeline.start ind.session ind.config)
  else if msg_id = MSG_STOP_INDICATION then (.ok [], pipeline.stop)
  else if msg_id = MSG_AV_MEDIA_ACK_INDICATION then
    match prost.avMediaAckIndication payload with
    | some _ => (.ok [], pipeline.onMediaAck)
    | none => (.ok [], pipeline)
  else (.ok [], pipeline)

/-- The accesses that the receive path makes to the live pipeline. -/
inductive PipelineOp
  | setWireChannel (ch : UInt8)
  | start (session : Int) (config : UInt32)
  | stop
  | mediaAck
  deriving DecidableEq, Repr

def PipelineOp.apply (p : VideoPipeline) : PipelineOp → VideoPipeline
  | .setWireChannel ch => p.setWireChannel ch
  | .start session config => p.start session config
  | .stop => p.stop
  | .mediaAck => p.onMediaAck

def handleOps (prost : Prost) (msg_id : UInt16) (payload : Bytes) : List PipelineOp :=
  if msg_id = MSG_START_INDICATION then
    (prost.avChannelStartIndication payload).toList.map fun ind => .start ind.session ind.config
  else if msg_id = MSG_STOP_INDICATION then [.stop]
  else if msg_id = MSG_AV_MEDIA_ACK_INDICATION then
    (prost.avMediaAckIndication payload).toList.map fun _ => .mediaAck
  else []

variable {prost : Prost} {channel : UInt8} {msg_id : UInt16} {payload : Bytes} {p : VideoPipeline}

theorem handle_pipeline :
    (handle prost channel msg_id payload p).2 =
      (handleOps prost msg_id payload).foldl PipelineOp.apply p := by
  unfold handle handleOps
  split
  · rename_i hid
    have hne : msg_id ≠ MSG_START_INDICATION ∧ msg_id ≠ MSG_STOP_INDICATION ∧
        msg_id ≠ MSG_AV_MEDIA_ACK_INDICATION := by
      subst hid
      decide
    rw [if_neg hne.1, if_neg hne.2.1, if_neg hne.2.2]
    cases prost.avChannelSetupRequest payload <;> rfl
  · split
    · cases prost.avChannelStartIndication payload <;> rfl
    · split
      · rfl
      · split
        · cases prost.avMediaAckIndication payload <;> rfl
        · rfl

/-- The receive path only adds tasks, which begin at the top of their loop. -/
theorem apply_frame (op : PipelineOp) (p : VideoPipeline) :
    (op.apply p).max_in_flight = p.max_in_flight ∧ (op.apply p).rx_open = p.rx_open ∧
      ∃ new, (op.apply p).streamers = p.streamers ++ new ∧
        ∀ slot ∈ new, ∀ a, slot = some a → a.pc = .top := by
  cases op with
  | start session config =>
    refine ⟨rfl, rfl, _, rfl, ?_⟩
    intro slot hslot a ha
    rw [List.mem_singleton.mp hslot] at ha
    cases ha
    rfl
  | _ => exact ⟨rfl, rfl, [], (List.append_nil _).symm, by simp⟩

theorem receive_frame (p : VideoPipeline) (ops : List PipelineOp) :
    (ops.foldl PipelineOp.apply p).max_in_flight = p.max_in_flight ∧
      (ops.foldl PipelineOp.apply p).rx_open = p.rx_open ∧
      ∃ new, (ops.foldl PipelineOp.apply p).streamers = p.streamers ++ new ∧
        ∀ slot ∈ new, ∀ a, slot = some a → a.pc = .top := by
  induction ops generalizing p with
  | nil => exact ⟨rfl, rfl, [], (List.append_nil _).symm, by simp⟩
  | cons op ops ih =>
    obtain ⟨hmax, hrx, new, hnew, htop⟩ := apply_frame op p
    obtain ⟨hmax', hrx', new', hnew', htop'⟩ := ih (op.apply p)
    refine ⟨hmax'.trans hmax, hrx'.trans hrx, new ++ new', ?_, ?_⟩
    · rw [List.foldl_cons, hnew', hnew, List.append_assoc]
    · exact List.forall_mem_append.mpr ⟨htop, htop'⟩

end Aabox.Video
