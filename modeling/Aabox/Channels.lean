import Aabox.Lib.Bytes

/-! Channel and control-message ids, outbound messages, and the navigation encoder. -/
namespace Aabox
open Aabox.Lib

inductive ChannelId
  | control | input | sensor | video | mediaAudio | speechAudio | systemAudio | avInput
  | bluetooth | navigation | none
  deriving DecidableEq, Repr

def ChannelId.toU8 : ChannelId → UInt8
  | .control => 0
  | .input => 1
  | .sensor => 2
  | .video => 3
  | .mediaAudio => 4
  | .speechAudio => 5
  | .systemAudio => 6
  | .avInput => 7
  | .bluetooth => 8
  | .navigation => 9
  | .none => 255

def ChannelId.tryFrom (value : UInt8) : Option ChannelId :=
  if value = 0 then some .control
  else if value = 1 then some .input
  else if value = 2 then some .sensor
  else if value = 3 then some .video
  else if value = 4 then some .mediaAudio
  else if value = 5 then some .speechAudio
  else if value = 6 then some .systemAudio
  else if value = 7 then some .avInput
  else if value = 8 then some .bluetooth
  else if value = 9 then some .navigation
  else if value = 255 then some .none
  else Option.none

inductive ControlMessageId
  | none | versionRequest | versionResponse | sslHandshake | authComplete
  | serviceDiscoveryRequest | serviceDiscoveryResponse | channelOpenRequest | channelOpenResponse
  | pingRequest | pingResponse | navigationFocusRequest | navigationFocusResponse
  | shutdownRequest | shutdownResponse | voiceSessionRequest | audioFocusRequest
  | audioFocusResponse
  deriving DecidableEq, Repr

def ControlMessageId.toU16 : ControlMessageId → UInt16
  | .none => 0x0000
  | .versionRequest => 0x0001
  | .versionResponse => 0x0002
  | .sslHandshake => 0x0003
  | .authComplete => 0x0004
  | .serviceDiscoveryRequest => 0x0005
  | .serviceDiscoveryResponse => 0x0006
  | .channelOpenRequest => 0x0007
  | .channelOpenResponse => 0x0008
  | .pingRequest => 0x000B
  | .pingResponse => 0x000C
  | .navigationFocusRequest => 0x000D
  | .navigationFocusResponse => 0x000E
  | .shutdownRequest => 0x000F
  | .shutdownResponse => 0x0010
  | .voiceSessionRequest => 0x0011
  | .audioFocusRequest => 0x0012
  | .audioFocusResponse => 0x0013

def ControlMessageId.tryFrom (v : UInt16) : Option ControlMessageId :=
  if v = 0x0000 then some .none
  else if v = 0x0001 then some .versionRequest
  else if v = 0x0002 then some .versionResponse
  else if v = 0x0003 then some .sslHandshake
  else if v = 0x0004 then some .authComplete
  else if v = 0x0005 then some .serviceDiscoveryRequest
  else if v = 0x0006 then some .serviceDiscoveryResponse
  else if v = 0x0007 then some .channelOpenRequest
  else if v = 0x0008 then some .channelOpenResponse
  else if v = 0x000B then some .pingRequest
  else if v = 0x000C then some .pingResponse
  else if v = 0x000D then some .navigationFocusRequest
  else if v = 0x000E then some .navigationFocusResponse
  else if v = 0x000F then some .shutdownRequest
  else if v = 0x0010 then some .shutdownResponse
  else if v = 0x0011 then some .voiceSessionRequest
  else if v = 0x0012 then some .audioFocusRequest
  else if v = 0x0013 then some .audioFocusResponse
  else Option.none

/-- The `:04x` format of a message id: four lower-case hexadecimal digits. -/
def hex4 (v : UInt16) : String :=
  String.ofList ([3, 2, 1, 0].map fun i => Nat.digitChar (v.toNat / 16 ^ i % 16))

structure OutboundMessage where
  channel : UInt8
  message_id : UInt16
  payload : Bytes
  deriving DecidableEq, Repr

theorem ChannelId.tryFrom_toU8 (c : ChannelId) : ChannelId.tryFrom c.toU8 = some c := by
  cases c <;> decide

theorem ChannelId.toU8_of_tryFrom {v : UInt8} {c : ChannelId} (h : ChannelId.tryFrom v = some c) :
    c.toU8 = v := by
  unfold ChannelId.tryFrom at h
  -- one step per comparison of the chain
  iterate 11
    rcases ite_eq_iff.mp h with ⟨rfl, ⟨⟩⟩ | ⟨-, h⟩
    · rfl
  cases h

theorem ControlMessageId.tryFrom_toU16 (m : ControlMessageId) :
    ControlMessageId.tryFrom m.toU16 = some m := by
  cases m <;> decide

namespace Nav

def MSG_NAVIGATION_STATUS : UInt16 := 0x8001
def MSG_NAVIGATION_TURN_EVENT : UInt16 := 0x8002
def MSG_NAVIGATION_DISTANCE_EVENT : UInt16 := 0x8003

/-- `status_text` is the instruction's UTF-8 bytes. -/
structure NavInstruction where
  status_text : Bytes
  turn_id : UInt32
  distance_m : UInt32
  deriving DecidableEq, Repr

def encodeInstruction (instr : NavInstruction) : List OutboundMessage :=
  let ch := ChannelId.navigation.toU8
  [⟨ch, MSG_NAVIGATION_STATUS,
      1 :: beBytes 2 instr.status_text.length ++ instr.status_text⟩,
    ⟨ch, MSG_NAVIGATION_TURN_EVENT, beBytes 4 instr.turn_id.toNat⟩,
    ⟨ch, MSG_NAVIGATION_DISTANCE_EVENT, beBytes 4 instr.distance_m.toNat⟩]

/-- Inbound navigation traffic is logged and answered with nothing. -/
def handle (_msg_id : UInt16) (_payload : Bytes) : List OutboundMessage := []

end Nav
end Aabox
