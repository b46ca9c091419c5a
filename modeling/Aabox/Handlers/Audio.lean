import Aabox.Channels
import Aabox.Messages

/-!
# The audio channels

The manager's per-channel state, and the stateless fallback that the pure dispatcher uses. A spawned
encoder is known by its number; `told` lists the encoders that were sent the stop value.
-/
namespace Aabox.Audio
open Aabox.Lib Aabox.Messages

def MSG_AV_MEDIA_WITH_TIMESTAMP_INDICATION : UInt16 := 0x0000
def MSG_AV_MEDIA_INDICATION : UInt16 := 0x0001
def MSG_SETUP_REQUEST : UInt16 := 0x8000
def MSG_START_INDICATION : UInt16 := 0x8001
def MSG_STOP_INDICATION : UInt16 := 0x8002
def MSG_SETUP_RESPONSE : UInt16 := 0x8003
def MSG_AV_MEDIA_ACK_INDICATION : UInt16 := 0x8004
def MSG_AV_INPUT_OPEN_REQUEST : UInt16 := 0x8005
def MSG_AV_INPUT_OPEN_RESPONSE : UInt16 := 0x8006

inductive AudioDirection
  | output | input
  deriving DecidableEq, Repr

structure AudioFormat where
  sample_rate : Nat
  channels : Nat
  bit_depth : Nat
  deriving DecidableEq, Repr

structure AudioFrame where
  timestamp_us : Nat
  pcm : Bytes
  deriving DecidableEq, Repr

def defaultFormat : ChannelId → Option AudioFormat
  | .mediaAudio => some ⟨48000, 2, 16⟩
  | .speechAudio => some ⟨16000, 2, 16⟩
  | .systemAudio => some ⟨48000, 2, 16⟩
  | _ => none

def directionOf : ChannelId → Option AudioDirection
  | .mediaAudio => some .output
  | .speechAudio | .systemAudio => some .input
  | _ => none

/-- The inbound decoder: an 8-byte big-endian timestamp, or none, and the samples. -/
def decode (payload : Bytes) (with_timestamp : Bool) : Except HandlerError AudioFrame :=
  if with_timestamp then
    if payload.length < 8 then .error (.audioInboundShort payload.length)
    else .ok ⟨beValue (payload.take 8), payload.drop 8⟩
  else .ok ⟨0, payload⟩

/-- The outbound frame of an encoder that was started for `channel`. -/
def encodeOutboundFrame (channel : ChannelId) (frame : AudioFrame) : OutboundMessage :=
  ⟨channel.toU8, MSG_AV_MEDIA_WITH_TIMESTAMP_INDICATION, beBytes 8 frame.timestamp_us ++ frame.pcm⟩

structure AudioChannelState where
  direction : AudioDirection
  format : AudioFormat
  sink : Option Nat
  stop_tx : Option Nat
  session : Int
  decoder : Option AudioFormat
  started : Bool
  deriving DecidableEq, Repr

/-- `pushed` lists the frames given to sinks, with the sink's number; a failed push is logged only.
-/
structure AudioChannelManager where
  channels : UInt8 → Option AudioChannelState
  sinks : Nat
  encoders : Nat
  told : List Nat
  pushed : List (Nat × AudioFrame)

def AudioChannelManager.new : AudioChannelManager :=
  { channels := fun _ => none, sinks := 0, encoders := 0, told := [], pushed := [] }

def AudioChannelManager.set (m : AudioChannelManager) (channel : UInt8) (st : AudioChannelState) :
    AudioChannelManager :=
  { m with channels := fun c => if c = channel then some st else m.channels c }

/-- Per-channel state is created on a channel's first message; other channels have none. -/
def ensureState (m : AudioChannelManager) (channel : UInt8) :
    Option (ChannelId × AudioChannelState × AudioChannelManager) :=
  match ChannelId.tryFrom channel with
  | none => none
  | some cid =>
    match directionOf cid, defaultFormat cid with
    | some direction, some format =>
      match m.channels channel with
      | some st => some (cid, st, m)
      | none =>
        let st : AudioChannelState :=
          { direction, format, sink := none, stop_tx := none, session := 0, decoder := none
            started := false }
        some (cid, st, m.set channel st)
    | _, _ => none

abbrev Reply := Except HandlerError (List OutboundMessage) × AudioChannelManager

def onSetupRequest (prost : Prost) (m : AudioChannelManager) (cid : ChannelId) (payload : Bytes) :
    Reply :=
  match prost.avChannelSetupRequest payload with
  | none => (.error .avChannelSetupRequest, m)
  | some _ =>
    (.ok [⟨cid.toU8, MSG_SETUP_RESPONSE,
      prost.avChannelSetupResponse ⟨prost.av_channel_setup_ok, 10, [0]⟩⟩], m)

/-- On the output channel START replaces a running encoder by a fresh one. -/
def onStartIndication (prost : Prost) (m : AudioChannelManager) (cid : ChannelId)
    (st : AudioChannelState) (payload : Bytes) : Reply :=
  match prost.avChannelStartIndication payload with
  | none => (.error .avChannelStartIndication, m)
  | some req =>
    let st := { st with session := req.session }
    match st.direction with
    | .output =>
      let told := m.told ++ st.stop_tx.toList
      let st := { st with stop_tx := some m.encoders, started := true }
      (.ok [], { m.set cid.toU8 st with encoders := m.encoders + 1, told })
    | .input =>
      let decoder := some (st.decoder.getD st.format)
      (.ok [], m.set cid.toU8 { st with started := true, decoder })

def onStopIndication (m : AudioChannelManager) (cid : ChannelId) (st : AudioChannelState) : Reply :=
  let told := m.told ++ st.stop_tx.toList
  (.ok [], { m.set cid.toU8 { st with started := false, stop_tx := none } with told })

def onInputOpen (prost : Prost) (m : AudioChannelManager) (cid : ChannelId)
    (st : AudioChannelState) (payload : Bytes) : Reply :=
  match prost.avInputOpenRequest payload with
  | none => (.error .avInputOpenRequest, m)
  | some req =>
    let reply : List OutboundMessage :=
      [⟨cid.toU8, MSG_AV_INPUT_OPEN_RESPONSE, prost.avInputOpenResponse ⟨0, 0⟩⟩]
    match st.sink with
    | none =>
      let st := { st with sink := some m.sinks, decoder := some st.format, started := req.open }
      (.ok reply, { m.set cid.toU8 st with sinks := m.sinks + 1 })
    | some _ =>
      let decoder := some (st.decoder.getD st.format)
      (.ok reply, m.set cid.toU8 { st with started := req.open, decoder })

def onDataFrame (prost : Prost) (m : AudioChannelManager) (cid : ChannelId)
    (st : AudioChannelState) (payload : Bytes) (with_timestamp : Bool) : Reply :=
  if st.started then
    match st.sink with
    | none => (.ok [], m)
    | some sink =>
      match decode payload with_timestamp with
      | .error e => (.error e, m)
      | .ok frame =>
        (.ok [⟨cid.toU8, MSG_AV_MEDIA_ACK_INDICATION, prost.encodeAvMediaAck ⟨st.session, 1⟩⟩],
          { m with pushed := m.pushed ++ [(sink, frame)] })
  else (.ok [], m)

def AudioChannelManager.handle (prost : Prost) (m : AudioChannelManager) (channel : UInt8)
    (msg_id : UInt16) (payload : Bytes) : Reply :=
  match ensureState m channel with
  | none => (.ok [], m)
  | some (cid, st, m) =>
    if msg_id = MSG_SETUP_REQUEST then onSetupRequest prost m cid payload
    else if msg_id = MSG_START_INDICATION then onStartIndication prost m cid st payload
    else if msg_id = MSG_STOP_INDICATION then onStopIndication m cid st
    else if msg_id = MSG_AV_MEDIA_ACK_INDICATION then (.ok [], m)
    else if msg_id = MSG_AV_INPUT_OPEN_REQUEST then onInputOpen prost m cid st payload
    else if msg_id = MSG_AV_MEDIA_WITH_TIMESTAMP_INDICATION then
      onDataFrame prost m cid st payload true
    else if msg_id = MSG_AV_MEDIA_INDICATION then onDataFrame prost m cid st payload false
    else (.ok [], m)

/-- The stateless fallback of the pure dispatcher. -/
def handle (prost : Prost) (channel : UInt8) (msg_id : UInt16) (payload : Bytes) :
    Except HandlerError (List OutboundMessage) :=
  if msg_id = MSG_SETUP_REQUEST then
    match prost.avChannelSetupRequest payload with
    | none => .error .avChannelSetupRequest
    | some _ =>
      .ok [⟨channel, MSG_SETUP_RESPONSE,
        prost.avChannelSetupResponse ⟨prost.av_channel_setup_ok, 10, [0]⟩⟩]
  else if msg_id = MSG_AV_INPUT_OPEN_REQUEST then
    .ok [⟨channel, MSG_AV_INPUT_OPEN_RESPONSE, prost.avInputOpenResponse ⟨0, 0⟩⟩]
  else .ok []

/-- The state of a channel has the direction of its id. -/
def AudioChannelManager.Directed (m : AudioChannelManager) : Prop :=
  ∀ (cid : ChannelId) st, m.channels cid.toU8 = some st → directionOf cid = some st.direction

/-- The handling of a message keeps the directions, and starts `n` encoders. -/
def Keeps (n : Nat) (m m' : AudioChannelManager) : Prop :=
  m'.Directed ∧ m'.encoders = m.encoders + n

variable {prost : Prost} {m m' : AudioChannelManager} {cid : ChannelId} {st st' : AudioChannelState}
  {channel : UInt8} {msg_id : UInt16} {payload : Bytes}

theorem directed_new : AudioChannelManager.new.Directed := by
  intro cid st h
  cases h

theorem directed_set (h : m.Directed) (hst : directionOf cid = some st.direction) :
    (m.set cid.toU8 st).Directed := by
  intro cid' st' hst'
  simp only [AudioChannelManager.set] at hst'
  split at hst'
  · rename_i heq
    cases hst'
    have hsame := congrArg ChannelId.tryFrom heq
    rw [ChannelId.tryFrom_toU8, ChannelId.tryFrom_toU8] at hsame
    rw [Option.some.inj hsame, hst]
  · exact h cid' st' hst'

theorem keeps_set (h : m.Directed) (hst : directionOf cid = some st.direction) :
    Keeps 0 m (m.set cid.toU8 st) := ⟨directed_set h hst, rfl⟩

/-- The state that is there, or a new one for the channel's id. -/
theorem ensureState_cases (hs : ensureState m channel = some (cid, st, m')) :
    cid.toU8 = channel ∧ (directionOf cid).isSome ∧
      (m.channels channel = some st ∧ m' = m ∨
        m.channels channel = none ∧ m' = m.set channel st ∧
          directionOf cid = some st.direction ∧ st.sink = none ∧ st.stop_tx = none ∧
          st.session = 0 ∧ st.decoder = none ∧ st.started = false) := by
  unfold ensureState at hs
  split at hs
  · cases hs
  · rename_i cid' hcid
    obtain rfl := ChannelId.toU8_of_tryFrom hcid
    split at hs
    · rename_i direction format hdirection hformat
      split at hs
      · rename_i st' hst'
        cases hs
        exact ⟨rfl, by simp [hdirection], .inl ⟨hst', rfl⟩⟩
      · rename_i hnone
        cases hs
        exact ⟨rfl, by simp [hdirection],
          .inr ⟨hnone, rfl, hdirection, rfl, rfl, rfl, rfl, rfl⟩⟩
    · cases hs

theorem ensureState_some (h : m.Directed) (hs : ensureState m channel = some (cid, st, m')) :
    ChannelId.tryFrom channel = some cid ∧ directionOf cid = some st.direction ∧ Keeps 0 m m' := by
  rcases ensureState_cases hs with ⟨rfl, -, ⟨hst, rfl⟩ | ⟨-, rfl, hdir, -⟩⟩
  · exact ⟨ChannelId.tryFrom_toU8 cid, h cid st hst, h, rfl⟩
  · exact ⟨ChannelId.tryFrom_toU8 cid, hdir, keeps_set h hdir⟩

/-- The manager has a state for each of the three audio channels. -/
theorem ensureState_audio (m : AudioChannelManager) (hcid : ChannelId.tryFrom channel = some cid)
    (hdir : (directionOf cid).isSome) : ∃ st m', ensureState m channel = some (cid, st, m') := by
  have hformat : (defaultFormat cid).isSome := by
    cases cid <;> first | rfl | cases hdir
  obtain ⟨direction, hdirection⟩ := Option.isSome_iff_exists.mp hdir
  obtain ⟨format, hformat⟩ := Option.isSome_iff_exists.mp hformat
  unfold ensureState
  rw [hcid]
  dsimp only
  rw [hdirection, hformat]
  cases m.channels channel with
  | none => exact ⟨_, _, rfl⟩
  | some st => exact ⟨_, _, rfl⟩

theorem ensureState_media (h : ChannelId.tryFrom channel = some .mediaAudio) :
    (ensureState m channel).isSome := by
  obtain ⟨st, m', hs⟩ := ensureState_audio m h rfl
  rw [hs]
  rfl

theorem onStartIndication_keeps (h : m.Directed) (hst : directionOf cid = some st.direction) :
    Keeps (if cid = .mediaAudio ∧ (prost.avChannelStartIndication payload).isSome then 1 else 0) m
      (onStartIndication prost m cid st payload).2 := by
  unfold onStartIndication
  cases hbody : prost.avChannelStartIndication payload with
  | none => simp [Keeps, h]
  | some req =>
    cases hdir : st.direction with
    | output =>
      have hcid : cid = .mediaAudio := by
        rw [hdir] at hst
        cases cid <;> first | rfl | cases hst
      rw [if_pos ⟨hcid, rfl⟩]
      exact ⟨directed_set h (by rw [hst, hdir]), rfl⟩
    | input =>
      have hcid : cid ≠ .mediaAudio := by
        rintro rfl
        rw [hdir] at hst
        cases hst
      rw [if_neg fun hall => hcid hall.1]
      exact keeps_set h (by rw [hst, hdir])

theorem onInputOpen_keeps (h : m.Directed) (hst : directionOf cid = some st.direction) :
    Keeps 0 m (onInputOpen prost m cid st payload).2 := by
  unfold onInputOpen
  split
  · exact ⟨h, rfl⟩
  · dsimp only
    split
    · exact ⟨directed_set h hst, rfl⟩
    · exact keeps_set h hst

theorem onDataFrame_keeps (h : m.Directed) (with_timestamp : Bool) :
    Keeps 0 m (onDataFrame prost m cid st payload with_timestamp).2 := by
  unfold onDataFrame
  split_ifs
  · split
    · exact ⟨h, rfl⟩
    · split <;> exact ⟨h, rfl⟩
  · exact ⟨h, rfl⟩

/-- A video focus notification is none of the manager's messages. -/
theorem handle_focus (m : AudioChannelManager) (channel : UInt8) (payload : Bytes) :
    (m.handle prost channel 0x8008 payload).1 = .ok [] := by
  unfold AudioChannelManager.handle
  cases ensureState m channel with
  | none => rfl
  | some x => rfl

/-- Only a START on the canonical media channel starts an encoder. -/
theorem handle_keeps (h : m.Directed) :
    Keeps (if msg_id = MSG_START_INDICATION ∧ ChannelId.tryFrom channel = some .mediaAudio ∧
        (prost.avChannelStartIndication payload).isSome then 1 else 0) m
      (m.handle prost channel msg_id payload).2 := by
  unfold AudioChannelManager.handle
  cases hs : ensureState m channel with
  | none =>
    have hmedia : ChannelId.tryFrom channel ≠ some .mediaAudio := by
      intro hmedia
      have hsome : (ensureState m channel).isSome := ensureState_media hmedia
      rw [hs] at hsome
      cases hsome
    simp [hmedia, Keeps, h]
  | some x =>
    obtain ⟨cid, st, m'⟩ := x
    obtain ⟨hcid, hst, hm', hsame⟩ := ensureState_some h hs
    have hkeeps : ∀ {n : Nat} {m'' : AudioChannelManager}, Keeps n m' m'' → Keeps n m m'' :=
      fun hn => ⟨hn.1, by rw [hn.2, hsame, Nat.add_zero]⟩
    refine hkeeps ?_
    by_cases hstart : msg_id = MSG_START_INDICATION
    · have hsetup : MSG_START_INDICATION ≠ MSG_SETUP_REQUEST := by decide
      simpa [hstart, hsetup, hcid] using onStartIndication_keeps hm' hst
    · rw [if_neg fun hall => hstart hall.1]
      dsimp only
      rw [if_neg hstart]
      split_ifs
      · unfold onSetupRequest
        split <;> exact ⟨hm', rfl⟩
      · exact ⟨directed_set hm' hst, rfl⟩
      · exact ⟨hm', rfl⟩
      · exact onInputOpen_keeps hm' hst
      · exact onDataFrame_keeps hm' true
      · exact onDataFrame_keeps hm' false
      · exact ⟨hm', rfl⟩

end Aabox.Audio
