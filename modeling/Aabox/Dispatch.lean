import Aabox.Handlers.Sensor
import Aabox.Handlers.Video

/-! The pure dispatcher: the answer to an inbound message by channel byte and message id. -/
namespace Aabox.Dispatch
open Aabox.Lib Aabox.Messages

namespace Input

def MSG_INPUT_EVENT_INDICATION : UInt16 := 0x8001
def MSG_BINDING_REQUEST : UInt16 := 0x8002
def MSG_BINDING_RESPONSE : UInt16 := 0x8003

def handle (prost : Prost) (msg_id : UInt16) (payload : Bytes) :
    Except HandlerError (List OutboundMessage) :=
  if msg_id = MSG_BINDING_REQUEST then
    match prost.bindingRequest payload with
    | none => .error .bindingRequest
    | some () =>
      .ok [⟨ChannelId.input.toU8, MSG_BINDING_RESPONSE, prost.bindingResponse prost.status_ok⟩]
  else .ok []

end Input

inductive ChannelKind
  | sensor | video | audioSpeech | audioSystem | audioMedia | audioAlarm | audioUnknown
  | input | avInput | bluetooth | navigation | vendorExt | unknown
  deriving DecidableEq, Repr

def classifyChannel (prost : Prost) (ch : ChannelDescriptor) : ChannelKind :=
  if ch.sensor_channel then .sensor
  else
    match ch.av_channel with
    | some av =>
      if av.video_configs ≠ 0 then .video
      else if av.stream_type = prost.av_stream_type_video then .video
      else if av.audio_type = 1 then .audioSpeech
      else if av.audio_type = 2 then .audioSystem
      else if av.audio_type = 3 then .audioMedia
      else if av.audio_type = 4 then .audioAlarm
      else .audioUnknown
    | none =>
      if ch.input_channel then .input
      else if ch.av_input_channel then .avInput
      else if ch.bluetooth_channel then .bluetooth
      else if ch.navigation_channel then .navigation
      else if ch.vendor_extension_channel then .vendorExt
      else .unknown

def shouldOpen : ChannelKind → Bool
  | .vendorExt | .unknown => false
  | _ => true

/-- The message that follows a channel's open request; its channel byte is `channel_id as u8`. -/
def setupMessageFor (channel_id : UInt32) (kind : ChannelKind) : Option OutboundMessage :=
  let channel := channel_id.toUInt8
  match kind with
  | .audioMedia | .audioSpeech | .audioSystem | .audioAlarm | .audioUnknown =>
    some ⟨channel, 0x8000, [0x08, 0x01]⟩
  | .avInput => some ⟨channel, 0x8005, [0x08, 0x00]⟩
  | .video => some ⟨channel, 0x8000, [0x08, 0x03]⟩
  | .sensor => some ⟨channel, 0x8001, [0x08, 0x0d, 0x10, 0x00]⟩
  | .input =>
    let codes : Bytes :=
      [0x03, 0x04, 0x05, 0x06, 0x13, 0x14, 0x15, 0x16, 0x17, 0x54, 0x55, 0x57, 0x58]
    some ⟨channel, 0x8002, 0x0a :: UInt8.ofNat codes.length :: codes⟩
  | .navigation | .bluetooth | .vendorExt | .unknown => none

/-- `prost::encoding::encode_varint` for a value of up to `n` groups of seven bits. -/
def encodeVarint : Nat → Nat → Bytes
  | 0, _ => []
  | n + 1, v =>
    if v < 0x80 then [UInt8.ofNat v]
    else UInt8.ofNat (v % 0x80 + 0x80) :: encodeVarint n (v / 0x80)

/-- The open request for one descriptor, and its setup message. -/
def openMessages (prost : Prost) (ch : ChannelDescriptor) : List OutboundMessage :=
  let kind := classifyChannel prost ch
  if shouldOpen kind then
    ⟨ch.channel_id.toUInt8, ControlMessageId.channelOpenRequest.toU16,
      [0x08, 0x00, 0x10] ++ encodeVarint 10 ch.channel_id.toNat⟩ ::
      (setupMessageFor ch.channel_id kind).toList
  else []

def dispatchControl (prost : Prost) (msg_id : UInt16) (body : Bytes) :
    Except HandlerError (List OutboundMessage) :=
  let control := ChannelId.control.toU8
  match ControlMessageId.tryFrom msg_id with
  | some .serviceDiscoveryResponse =>
    match prost.serviceDiscoveryResponse body with
    | some resp =>
      .ok (⟨control, 0x0017, [0x08, 0x64]⟩ :: ⟨control, 0x0018, [0x08, 0x00]⟩ ::
        resp.channels.flatMap (openMessages prost))
    | none => .ok []
  | some .channelOpenResponse =>
    match prost.channelOpenResponse body with
    | some () => .ok []
    | none => .error .channelOpenResponse
  | some .serviceDiscoveryRequest => .ok []
  | some .pingRequest =>
    match prost.pingRequest body with
    | some req =>
      .ok [⟨control, ControlMessageId.pingResponse.toU16, prost.pingResponse req.timestamp⟩]
    | none => .error .pingRequest
  | some .audioFocusRequest =>
    match prost.audioFocusRequest body with
    | some () =>
      .ok [⟨control, ControlMessageId.audioFocusResponse.toU16,
        prost.audioFocusResponse prost.audio_focus_gain⟩]
    | none => .error .audioFocusRequest
  | some .navigationFocusRequest =>
    .ok [⟨control, ControlMessageId.navigationFocusResponse.toU16,
      prost.navigationFocusResponse 1⟩]
  | some .channelOpenRequest =>
    match prost.channelOpenRequest body with
    | some () =>
      .ok [⟨control, ControlMessageId.channelOpenResponse.toU16,
        prost.encodeChannelOpenResponse prost.status_ok⟩]
    | none => .error .channelOpenRequest
  | some .voiceSessionRequest => .ok []
  | some .shutdownRequest =>
    .ok [⟨control, ControlMessageId.shutdownResponse.toU16, prost.shutdownResponse⟩]
  | some _ => .ok []
  | none => .ok []

variable {F : Type}

/-- The cross-channel intercepts in their order, then the channel's own handler. A video message
meets a fresh pipeline, of which only the replies are kept. -/
def dispatch (prost : Prost) (fl : Sensor.Floats F) (sensor_handler : Sensor.SensorHandler F)
    (channel_id : UInt8) (msg_id : UInt16) (body : Bytes) :
    Except HandlerError (List OutboundMessage) × Sensor.SensorHandler F :=
  if msg_id = ControlMessageId.channelOpenResponse.toU16 then (.ok [], sensor_handler)
  else if msg_id = 0x00ff then (.ok [], sensor_handler)
  else if msg_id = 0x8003 then (.ok [], sensor_handler)
  else if msg_id = 0x8008 then
    (.ok [⟨channel_id, 0x8001, [0x08, 0x01, 0x10, 0x00]⟩], sensor_handler)
  else if msg_id = ControlMessageId.audioFocusResponse.toU16 ∧
      channel_id = ChannelId.control.toU8 then (.ok [], sensor_handler)
  else if msg_id = 0x8002 ∧ channel_id = ChannelId.sensor.toU8 then (.ok [], sensor_handler)
  else if msg_id = 0x8006 ∧ channel_id = ChannelId.avInput.toU8 then (.ok [], sensor_handler)
  else
    match (ChannelId.tryFrom channel_id).getD .none with
    | .control => (dispatchControl prost msg_id body, sensor_handler)
    | .input => (Input.handle prost msg_id body, sensor_handler)
    | .sensor => Sensor.handle prost fl sensor_handler msg_id body
    | .video =>
      ((Video.handle prost channel_id msg_id body (.new Video.VIDEO_MAX_UNACKED)).1, sensor_handler)
    | .mediaAudio | .speechAudio | .systemAudio | .avInput =>
      (Audio.handle prost channel_id msg_id body, sensor_handler)
    | .navigation => (.ok (Nav.handle msg_id body), sensor_handler)
    | .bluetooth | .none => (.ok [], sensor_handler)

/-- A setup message goes to its descriptor's channel. -/
theorem setupMessageFor_channel {id : UInt32} {kind : ChannelKind} {m : OutboundMessage}
    (h : setupMessageFor id kind = some m) : m.channel = id.toUInt8 := by
  unfold setupMessageFor at h
  split at h <;> cases h <;> rfl

variable {prost : Prost} {fl : Sensor.Floats F} {h : Sensor.SensorHandler F} {channel_id : UInt8}
  {body : Bytes}

/-- The setup-response intercept comes before the channel is looked at. -/
theorem dispatch_setupResponse :
    dispatch prost fl h channel_id 0x8003 body = (.ok [], h) := by
  have hopen : ¬ (0x8003 : UInt16) = ControlMessageId.channelOpenResponse.toU16 := by decide
  have hunexpected : ¬ (0x8003 : UInt16) = 0x00ff := by decide
  rw [dispatch, if_neg hopen, if_neg hunexpected, if_pos rfl]

end Aabox.Dispatch
