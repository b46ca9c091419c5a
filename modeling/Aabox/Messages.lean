import Aabox.Lib.Bytes

/-!
# Protobuf messages

The generated types and their codecs are parameters: each message has the fields the daemon reads.
-/
namespace Aabox.Messages
open Aabox.Lib

structure PingRequest where
  timestamp : Int

structure GpsLocation where
  timestamp : Int
  latitude : Int
  longitude : Int
  accuracy : Int
  altitude : Int
  speed : Int
  bearing : Int
  deriving DecidableEq, Repr

structure SensorEventIndication where
  gps_location : List GpsLocation

/-- `video_configs` counts the descriptor's video configurations. -/
structure AvChannel where
  stream_type : Int
  audio_type : Int
  video_configs : Nat
  deriving DecidableEq, Repr

/-- Sub-messages of which only the presence is read are booleans. -/
structure ChannelDescriptor where
  channel_id : UInt32
  sensor_channel : Bool
  av_channel : Option AvChannel
  input_channel : Bool
  av_input_channel : Bool
  bluetooth_channel : Bool
  navigation_channel : Bool
  vendor_extension_channel : Bool
  deriving DecidableEq, Repr

structure ServiceDiscoveryResponse where
  channels : List ChannelDescriptor

structure AvChannelSetupRequest where
  config_index : UInt32

structure AvChannelStartIndication where
  session : Int
  config : UInt32

structure AvMediaAckIndication where
  session : Int
  value : UInt32

structure AvInputOpenRequest where
  «open» : Bool

structure AvChannelSetupResponse where
  media_status : Int
  max_unacked : UInt32
  configs : List UInt32

structure AvInputOpenResponse where
  session : Int
  value : UInt32

/-- The codecs of the generated messages; those whose fields are only logged decode to `Unit`. -/
structure Prost where
  status_ok : Int
  audio_focus_gain : Int
  av_channel_setup_ok : Int
  av_stream_type_video : Int
  pingRequest : Bytes → Option PingRequest
  audioFocusRequest : Bytes → Option Unit
  channelOpenRequest : Bytes → Option Unit
  channelOpenResponse : Bytes → Option Unit
  serviceDiscoveryResponse : Bytes → Option ServiceDiscoveryResponse
  sensorStartRequest : Bytes → Option Unit
  sensorEventIndication : Bytes → Option SensorEventIndication
  bindingRequest : Bytes → Option Unit
  avChannelSetupRequest : Bytes → Option AvChannelSetupRequest
  avChannelStartIndication : Bytes → Option AvChannelStartIndication
  avMediaAckIndication : Bytes → Option AvMediaAckIndication
  avInputOpenRequest : Bytes → Option AvInputOpenRequest
  pingResponse : (timestamp : Int) → Bytes
  audioFocusResponse : (audio_focus_state : Int) → Bytes
  navigationFocusResponse : (type : Int) → Bytes
  encodeChannelOpenResponse : (status : Int) → Bytes
  shutdownResponse : Bytes
  sensorStartResponse : (status : Int) → Bytes
  bindingResponse : (status : Int) → Bytes
  avChannelSetupResponse : AvChannelSetupResponse → Bytes
  avInputOpenResponse : AvInputOpenResponse → Bytes
  encodeAvMediaAck : AvMediaAckIndication → Bytes

/-- The codecs on empty bodies, which are the encodings of the default messages. -/
def emptyBodies : Prost where
  status_ok := 0
  audio_focus_gain := 1
  av_channel_setup_ok := 0
  av_stream_type_video := 0
  pingRequest _ := some ⟨0⟩
  audioFocusRequest _ := some ()
  channelOpenRequest _ := some ()
  channelOpenResponse _ := some ()
  serviceDiscoveryResponse _ := some ⟨[]⟩
  sensorStartRequest _ := some ()
  sensorEventIndication _ := some ⟨[]⟩
  bindingRequest _ := some ()
  avChannelSetupRequest _ := some ⟨0⟩
  avChannelStartIndication _ := some ⟨0, 0⟩
  avMediaAckIndication _ := some ⟨0, 0⟩
  avInputOpenRequest _ := some ⟨false⟩
  pingResponse _ := []
  audioFocusResponse _ := []
  navigationFocusResponse _ := []
  encodeChannelOpenResponse _ := []
  shutdownResponse := []
  sensorStartResponse _ := []
  bindingResponse _ := []
  avChannelSetupResponse _ := []
  avInputOpenResponse _ := []
  encodeAvMediaAck _ := []

inductive HandlerError
  | pingRequest | audioFocusRequest | channelOpenRequest | channelOpenResponse
  | sensorStartRequest | sensorEventIndication | bindingRequest
  | avChannelSetupRequest | avChannelStartIndication | avInputOpenRequest
  | audioInboundShort (len : Nat)
  deriving DecidableEq, Repr

def HandlerError.message : HandlerError → String
  | .pingRequest => "decode PingRequest"
  | .audioFocusRequest => "decode AudioFocusRequest"
  | .channelOpenRequest => "decode ChannelOpenRequest"
  | .channelOpenResponse => "decode ChannelOpenResponse"
  | .sensorStartRequest => "decode SensorStartRequest"
  | .sensorEventIndication => "decode SensorEventIndication"
  | .bindingRequest => "decode BindingRequest"
  | .avChannelSetupRequest => "decode AVChannelSetupRequest"
  | .avChannelStartIndication => "decode AVChannelStartIndication"
  | .avInputOpenRequest => "decode AVInputOpenRequest"
  | .audioInboundShort len => s!"audio inbound: payload too short for timestamp ({len} bytes)"

end Aabox.Messages
