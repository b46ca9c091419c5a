import Aabox.Dispatch
import Aabox.SendEncrypted

/-!
# Handling one inbound frame

Decrypt, take the message id off the front, poke the video pipeline, route, and send the replies.
-/
namespace Aabox.HandleFrame
open Aabox.Lib Aabox.Framing Aabox.Encrypted Aabox.SendEncrypted Aabox.Messages Aabox.Video

structure Message where
  channel : UInt8
  msg_id : UInt16
  body : Bytes
  deriving DecidableEq, Repr

inductive FrameError
  | decrypt (e : CryptError)
  | tooShort (channel : UInt8) (len : Nat)
  | handler (e : HandlerError)
  | send (e : SendError)
  deriving DecidableEq, Repr

def FrameError.message : FrameError → String
  | .decrypt _ => "decrypt frame"
  | .tooShort channel len => s!"channel {channel} frame: plaintext too short ({len})"
  | .handler e => e.message
  | .send e => e.message

/-- What the handlers of one session keep. -/
structure Handlers (F : Type) where
  sensor : Sensor.SensorHandler F
  audio : Audio.AudioChannelManager
  video : VideoPipeline

/-- `acted` lists the messages that have been routed. -/
structure Session (C F : Type) where
  conn : C
  writer : Writer
  handlers : Handlers F
  acted : List Message

variable {C F : Type}

def readMessage (channel : UInt8) (plain : Bytes) : Except FrameError Message :=
  match plain with
  | b₁ :: b₀ :: body => .ok ⟨channel, UInt16.ofNat (beValue [b₁, b₀]), body⟩
  | _ => .error (.tooShort channel plain.length)

def openFrame (side : Side C) (fuel : Nat) (conn : C) (frame : Frame) :
    Option (Except FrameError Message × C) :=
  if frame.encrypted then
    match decryptPayload side fuel conn frame.payload with
    | none => none
    | some (.error e, conn) => some (.error (.decrypt e), conn)
    | some (.ok plain, conn) => some (readMessage frame.channel_id plain, conn)
  else some (readMessage frame.channel_id frame.payload, conn)

/-- What is done to the live pipeline before the message is routed, whatever its channel. -/
def intercept (video : VideoPipeline) (channel : UInt8) (msg_id : UInt16) : VideoPipeline :=
  let video := if msg_id = 0x8008 then (video.setWireChannel channel).start 1 0 else video
  let video := if msg_id = 0x8004 then video.onMediaAck else video
  if msg_id = 0x8002 ∧ channel = video.wire_channel then video.stop else video

def isCrossChannelControl (msg_id : UInt16) : Bool :=
  msg_id = ControlMessageId.channelOpenResponse.toU16 || msg_id = 0x00ff

def route (prost : Prost) (fl : Sensor.Floats F) (h : Handlers F) (m : Message) :
    Except HandlerError (List OutboundMessage) × Handlers F :=
  let h := { h with video := intercept h.video m.channel m.msg_id }
  let pure :=
    let (outs, sensor) := Dispatch.dispatch prost fl h.sensor m.channel m.msg_id m.body
    (outs, { h with sensor })
  if isCrossChannelControl m.msg_id then pure
  else
    match ChannelId.tryFrom m.channel with
    | some .mediaAudio | some .speechAudio | some .systemAudio | some .avInput =>
      let (outs, audio) := h.audio.handle prost m.channel m.msg_id m.body
      (outs, { h with audio })
    | some .video =>
      let (outs, video) := Video.handle prost m.channel m.msg_id m.body h.video
      (outs, { h with video })
    | _ => pure

def sendAll (side : Side C) (fuel : Nat) (s : Session C F) :
    List OutboundMessage → Option (Except FrameError Unit × Session C F)
  | [] => some (.ok (), s)
  | out :: outs =>
    match sendEncrypted side fuel s.conn s.writer out with
    | none => none
    | some (.error e, conn, writer) => some (.error (.send e), { s with conn, writer })
    | some (.ok (), conn, writer) => sendAll side fuel { s with conn, writer } outs

def handleFrame (side : Side C) (prost : Prost) (fl : Sensor.Floats F) (fuel : Nat)
    (s : Session C F) (frame : Frame) : Option (Except FrameError Unit × Session C F) :=
  match openFrame side fuel s.conn frame with
  | none => none
  | some (.error e, conn) => some (.error e, { s with conn })
  | some (.ok m, conn) =>
    let (res, handlers) := route prost fl s.handlers m
    let s := { s with conn, handlers, acted := s.acted ++ [m] }
    match res with
    | .error e => some (.error (.handler e), s)
    | .ok outs => sendAll side fuel s outs

/-- Frames handled one after the other; the loop goes on after an error. -/
def handleFrames (side : Side C) (prost : Prost) (fl : Sensor.Floats F) (fuel : Nat)
    (s : Session C F) : List Frame → Option (Session C F)
  | [] => some s
  | frame :: frames =>
    match handleFrame side prost fl fuel s frame with
    | none => none
    | some (_, s) => handleFrames side prost fl fuel s frames

variable {side : Side C} {prost : Prost} {fl : Sensor.Floats F} {fuel : Nat} {s : Session C F}
  {h : Handlers F} {m : Message} {frame : Frame}

/-- The accesses to the live pipeline that one message causes. -/
def interceptOps (wire_channel channel : UInt8) (msg_id : UInt16) : List PipelineOp :=
  if msg_id = 0x8008 then [.setWireChannel channel, .start 1 0]
  else if msg_id = 0x8004 then [.mediaAck]
  else if msg_id = 0x8002 ∧ channel = wire_channel then [.stop]
  else []

def videoOps (prost : Prost) (wire_channel : UInt8) (m : Message) : List PipelineOp :=
  interceptOps wire_channel m.channel m.msg_id ++
    (if isCrossChannelControl m.msg_id then []
     else if ChannelId.tryFrom m.channel = some .video then handleOps prost m.msg_id m.body
     else [])

theorem intercept_eq (video : VideoPipeline) (channel : UInt8) (msg_id : UInt16) :
    intercept video channel msg_id =
      (interceptOps video.wire_channel channel msg_id).foldl PipelineOp.apply video := by
  unfold intercept interceptOps
  by_cases hstart : msg_id = 0x8008
  · subst hstart
    rfl
  · by_cases hack : msg_id = 0x8004
    · subst hack
      rfl
    · by_cases hstop : msg_id = 0x8002 ∧ channel = video.wire_channel
      · simp [hstop, PipelineOp.apply]
      · simp [hstart, hack, hstop]

/-- Routing a message does to the pipeline exactly the accesses listed for it. -/
theorem route_video :
    (route prost fl h m).2.video =
      (videoOps prost h.video.wire_channel m).foldl PipelineOp.apply h.video := by
  rw [videoOps, List.foldl_append, ← intercept_eq]
  unfold route
  by_cases hcross : isCrossChannelControl m.msg_id = true
  · simp [hcross]
  · simp only [hcross]
    cases hchan : ChannelId.tryFrom m.channel with
    | none => simp
    | some cid => cases cid <;> simp [handle_pipeline]

theorem handleFrame_ok {conn : C} {outs : List OutboundMessage} {handlers : Handlers F}
    (hopen : openFrame side fuel s.conn frame = some (.ok m, conn))
    (hroute : route prost fl s.handlers m = (.ok outs, handlers)) :
    handleFrame side prost fl fuel s frame =
      sendAll side fuel { s with conn, handlers, acted := s.acted ++ [m] } outs := by
  rw [handleFrame, hopen]
  simp only [hroute]

end Aabox.HandleFrame
