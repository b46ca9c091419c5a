import Aabox.HandleFrame
import Mathlib.Data.List.Nodup

/-!
# The head unit's channel map

The kinds that a ServiceDiscoveryResponse assigns to its channels, and the handlers that messages on
them meet. The handlers are chosen by the canonical channel ids.
-/
namespace Aabox.ChannelMap
open Aabox.Lib Aabox.Messages Aabox.Audio Aabox.Video Aabox.HandleFrame Aabox.Dispatch

inductive Family
  | sensor | input | video | audioSink | microphone | navigation
  deriving DecidableEq, Repr

def familyOf : ChannelKind → Option Family
  | .sensor => some .sensor
  | .video => some .video
  | .audioSpeech | .audioSystem | .audioMedia | .audioAlarm | .audioUnknown => some .audioSink
  | .input => some .input
  | .avInput => some .microphone
  | .navigation => some .navigation
  | .bluetooth | .vendorExt | .unknown => none

def canonicalFamily : ChannelId → Option Family
  | .input => some .input
  | .sensor => some .sensor
  | .video => some .video
  | .mediaAudio | .speechAudio | .systemAudio => some .audioSink
  | .avInput => some .microphone
  | .navigation => some .navigation
  | .control | .bluetooth | .none => none

/-- A response whose channel ids are distinct and fit a channel byte. -/
structure ServiceMap where
  channels : List ChannelDescriptor
  range : ∀ ch ∈ channels, 1 ≤ ch.channel_id.toNat ∧ ch.channel_id.toNat ≤ 254
  distinct : (channels.map ChannelDescriptor.channel_id).Nodup

/-- The response advertises `channel` with a kind of family `f`. -/
def ServiceMap.Assigns (map : ServiceMap) (prost : Prost) (channel : UInt8) (f : Family) : Prop :=
  ∃ ch ∈ map.channels, ch.channel_id.toUInt8 = channel ∧
    familyOf (classifyChannel prost ch) = some f

instance (map : ServiceMap) (prost : Prost) (channel : UInt8) (f : Family) :
    Decidable (map.Assigns prost channel f) :=
  inferInstanceAs (Decidable (∃ ch ∈ map.channels, _ ∧ _))

/-- Where `handle_frame` and `dispatch` send a message: to a log line, to the answer of a focus
notification or of a sensor start, or to a handler. -/
inductive Target
  | logged | focus | sensorStarted
  | control | input | sensor | video | audio | microphone | navigation | unhandled
  deriving DecidableEq, Repr

def target (m : Message) : Target :=
  if isCrossChannelControl m.msg_id then .logged
  else
    match ChannelId.tryFrom m.channel with
    | some .mediaAudio | some .speechAudio | some .systemAudio => .audio
    | some .avInput => .microphone
    | some .video => .video
    | cid =>
      if m.msg_id = 0x8003 then .logged
      else if m.msg_id = 0x8008 then .focus
      else if m.msg_id = ControlMessageId.audioFocusResponse.toU16 ∧ cid = some .control then .logged
      else if m.msg_id = 0x8002 ∧ cid = some .sensor then .sensorStarted
      else
        match cid with
        | some .control => .control
        | some .input => .input
        | some .sensor => .sensor
        | some .navigation => .navigation
        | _ => .unhandled

variable {F : Type}

/-- What each target does. The manager keeps no state for the microphone and ignores its messages.
-/
def Target.run (prost : Prost) (fl : Sensor.Floats F) (h : Handlers F) (m : Message) :
    Target → Except HandlerError (List OutboundMessage) × Handlers F
  | .logged | .sensorStarted | .unhandled => (.ok [], h)
  | .focus => (.ok [⟨m.channel, 0x8001, [0x08, 0x01, 0x10, 0x00]⟩], h)
  | .control => (dispatchControl prost m.msg_id m.body, h)
  | .input => (Input.handle prost m.msg_id m.body, h)
  | .sensor =>
    let res := Sensor.handle prost fl h.sensor m.msg_id m.body
    (res.1, { h with sensor := res.2 })
  | .video =>
    let res := Video.handle prost m.channel m.msg_id m.body h.video
    (res.1, { h with video := res.2 })
  | .audio | .microphone =>
    let res := h.audio.handle prost m.channel m.msg_id m.body
    (res.1, { h with audio := res.2 })
  | .navigation => (.ok (Nav.handle m.msg_id m.body), h)

def Target.family : Target → Option Family
  | .logged | .control | .unhandled => none
  | .focus | .video => some .video
  | .sensorStarted | .sensor => some .sensor
  | .input => some .input
  | .audio => some .audioSink
  | .microphone => some .microphone
  | .navigation => some .navigation

/-- A message of a channel's service: the two control ids that come on any channel are none. -/
def IsService (m : Message) : Prop := isCrossChannelControl m.msg_id = false

/-- The canonical ids that `handle_frame` sends past the dispatcher. -/
def isAv : ChannelId → Bool
  | .video | .mediaAudio | .speechAudio | .systemAudio | .avInput => true
  | _ => false

/-- The canonical meaning of the channel byte is `f`, and the dispatcher does not intercept the
message; or it is a focus notification that the dispatcher answers. -/
def Agrees (f : Family) (m : Message) : Prop :=
  (∃ cid, ChannelId.tryFrom m.channel = some cid ∧ canonicalFamily cid = some f ∧
    (isAv cid = true ∨ m.msg_id ≠ 0x8003 ∧ m.msg_id ≠ 0x8008)) ∨
  f = .video ∧ m.msg_id = 0x8008 ∧ ∀ cid, ChannelId.tryFrom m.channel = some cid → isAv cid = false

variable {prost : Prost} {fl : Sensor.Floats F} {h : Handlers F} {m : Message} {map : ServiceMap}
  {channel : UInt8} {f g : Family}

/-- The ids fit the channel byte, so no two descriptors share one. -/
theorem assigns_unique (hf : map.Assigns prost channel f) (hg : map.Assigns prost channel g) :
    f = g := by
  obtain ⟨ch, hch, hid, hf⟩ := hf
  obtain ⟨ch', hch', hid', hg⟩ := hg
  have hsame : ch.channel_id = ch'.channel_id := by
    have hlt := (map.range ch hch).2
    have hlt' := (map.range ch' hch').2
    have hbyte := congrArg UInt8.toNat (hid.trans hid'.symm)
    simp only [UInt32.toNat_toUInt8] at hbyte
    apply UInt32.toNat_inj.mp
    omega
  obtain rfl := List.inj_on_of_nodup_map map.distinct hch hch' hsame
  exact Option.some.inj (hf.symm.trans hg)

theorem dispatch_cross (sensor : Sensor.SensorHandler F) (body : Bytes)
    (hcross : isCrossChannelControl m.msg_id = true) :
    dispatch prost fl sensor m.channel m.msg_id body = (.ok [], sensor) := by
  unfold dispatch
  rcases Bool.or_eq_true_iff.mp hcross with hid | hid
  · rw [if_pos (of_decide_eq_true hid)]
  · rw [if_pos (of_decide_eq_true hid), ite_self]

/-- A comparison with a canonical channel byte is one of the ids. -/
theorem channel_eq_iff (cid : ChannelId) :
    m.channel = cid.toU8 ↔ ChannelId.tryFrom m.channel = some cid := by
  constructor
  · intro h
    rw [h, ChannelId.tryFrom_toU8]
  · intro h
    exact (ChannelId.toU8_of_tryFrom h).symm

variable (prost fl) in
/-- What is left for the dispatcher when the manager and the video handler have taken theirs. -/
theorem dispatch_target (h : Handlers F) (hcross : isCrossChannelControl m.msg_id = false)
    (hav : ∀ cid, ChannelId.tryFrom m.channel = some cid → isAv cid = false) :
    ((dispatch prost fl h.sensor m.channel m.msg_id m.body).1,
      { h with sensor := (dispatch prost fl h.sensor m.channel m.msg_id m.body).2 }) =
      (target m).run prost fl h m := by
  obtain ⟨hopen, hunexpected⟩ := Bool.or_eq_false_iff.mp hcross
  have hopen := of_decide_eq_false hopen
  have hunexpected := of_decide_eq_false hunexpected
  unfold dispatch target
  simp only [if_neg hopen, if_neg hunexpected, hcross, channel_eq_iff]
  cases hchan : ChannelId.tryFrom m.channel with
  | none => by_cases hsetup : m.msg_id = 0x8003 <;> by_cases hfocus : m.msg_id = 0x8008 <;>
      simp [hsetup, hfocus, Target.run]
  | some cid =>
    have hcid := hav cid hchan
    by_cases hsetup : m.msg_id = 0x8003
    · cases cid <;> simp [isAv] at hcid <;> simp [hsetup, Target.run]
    · by_cases hfocus : m.msg_id = 0x8008
      · cases cid <;> simp [isAv] at hcid <;> simp [hfocus, Target.run]
      · simp only [if_neg hsetup, if_neg hfocus]
        cases cid with
        | video | mediaAudio | speechAudio | systemAudio | avInput => cases hcid
        | control =>
          by_cases hack : m.msg_id = ControlMessageId.audioFocusResponse.toU16
          · simp only [hack, and_self, if_true, Bool.false_eq_true, if_false, Target.run]
          · simp [hack, Target.run]
        | sensor => by_cases hstarted : m.msg_id = 0x8002 <;> simp [hstarted, Target.run]
        | input | bluetooth | navigation | none => simp [Target.run]

/-- Routing a message is: the accesses to the pipeline, then what its target does. -/
theorem route_target :
    route prost fl h m =
      (target m).run prost fl { h with video := intercept h.video m.channel m.msg_id } m := by
  by_cases hcross : isCrossChannelControl m.msg_id = true
  · simp only [route, target, hcross, if_true, dispatch_cross _ _ hcross, Target.run]
  · have hcross := Bool.eq_false_iff.mpr hcross
    have hdispatch := dispatch_target prost fl
      { h with video := intercept h.video m.channel m.msg_id } hcross
    cases hchan : ChannelId.tryFrom m.channel with
    | none =>
      rw [← hdispatch (by simp [hchan])]
      simp [route, hcross, hchan]
    | some cid =>
      by_cases hav : isAv cid = true
      · cases cid <;> simp [isAv] at hav <;> simp [route, target, hcross, hchan, Target.run]
      · rw [← hdispatch (by simp [hchan, hav])]
        cases cid <;> simp [isAv] at hav <;> simp [route, hcross, hchan]

theorem target_family_iff (hm : IsService m) : (target m).family = some f ↔ Agrees f m := by
  have hcross : isCrossChannelControl m.msg_id = false := hm
  unfold target Agrees
  simp only [hcross]
  cases hchan : ChannelId.tryFrom m.channel with
  | none =>
    by_cases hsetup : m.msg_id = 0x8003
    · simp [hsetup, Target.family]
    · by_cases hfocus : m.msg_id = 0x8008
      · simpa [hfocus, Target.family] using eq_comm
      · simp [hsetup, hfocus, Target.family]
  | some cid =>
    by_cases hsetup : m.msg_id = 0x8003
    · cases cid <;> simp [hsetup, Target.family, isAv, canonicalFamily]
    · by_cases hfocus : m.msg_id = 0x8008
      · cases cid <;> cases f <;> simp [hfocus, Target.family, isAv, canonicalFamily]
      · simp only [hsetup, hfocus, if_false, ne_eq, not_false_eq_true]
        cases cid with
        | control =>
          by_cases hack : m.msg_id = ControlMessageId.audioFocusResponse.toU16 <;>
            simp [hack, Target.family, canonicalFamily]
        | sensor =>
          by_cases hstarted : m.msg_id = 0x8002 <;>
            simp [hstarted, Target.family, canonicalFamily]
        | _ => simp [Target.family, canonicalFamily]

/-- The opening messages go to the channel they open. -/
theorem openMessages_channel {ch : ChannelDescriptor} {out : OutboundMessage}
    (hout : out ∈ openMessages prost ch) : out.channel = ch.channel_id.toUInt8 := by
  simp only [openMessages] at hout
  split at hout
  · rcases List.mem_cons.mp hout with rfl | hout
    · rfl
    · exact setupMessageFor_channel (Option.mem_toList.mp hout)
  · cases hout

end Aabox.ChannelMap
