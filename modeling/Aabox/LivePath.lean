import Aabox.ChannelMap
import Aabox.InboundFragments

/-!
# The live path and the pure dispatcher

What `handle_frame` replies to a message, beside what `dispatch` returns for it.
-/
namespace Aabox.LivePath
open Aabox.Lib Aabox.Messages Aabox.Audio Aabox.Framing Aabox.HandleFrame Aabox.ChannelMap
open Aabox.Encrypted (Side)
open Aabox.SendEncrypted (plainOf)
open Aabox.Dispatch (dispatch dispatchControl)

variable {C F : Type} {prost : Prost} {fl : Sensor.Floats F} {h : Handlers F} {m : Message}
  {cid : ChannelId} {mgr : AudioChannelManager} {st : AudioChannelState} {payload : Bytes}

/-! ### Bodies that decode -/

/-- The message that an id denotes on an audio or microphone channel decodes. -/
structure DecodesAudio (prost : Prost) (m : Message) : Prop where
  setup : m.msg_id = MSG_SETUP_REQUEST → (prost.avChannelSetupRequest m.body).isSome
  start : m.msg_id = MSG_START_INDICATION → (prost.avChannelStartIndication m.body).isSome
  ack : m.msg_id = MSG_AV_MEDIA_ACK_INDICATION → (prost.avMediaAckIndication m.body).isSome
  input : m.msg_id = MSG_AV_INPUT_OPEN_REQUEST → (prost.avInputOpenRequest m.body).isSome
  timestamp : m.msg_id = MSG_AV_MEDIA_WITH_TIMESTAMP_INDICATION → 8 ≤ m.body.length

structure DecodesVideo (prost : Prost) (m : Message) : Prop where
  setup : m.msg_id = MSG_SETUP_REQUEST → (prost.avChannelSetupRequest m.body).isSome
  start : m.msg_id = MSG_START_INDICATION → (prost.avChannelStartIndication m.body).isSome
  ack : m.msg_id = MSG_AV_MEDIA_ACK_INDICATION → (prost.avMediaAckIndication m.body).isSome

structure DecodesSensor (prost : Prost) (m : Message) : Prop where
  start : m.msg_id = Sensor.MSG_SENSOR_START_REQUEST → (prost.sensorStartRequest m.body).isSome
  event : m.msg_id = Sensor.MSG_SENSOR_EVENT_INDICATION →
    (prost.sensorEventIndication m.body).isSome

def DecodesInput (prost : Prost) (m : Message) : Prop :=
  m.msg_id = Dispatch.Input.MSG_BINDING_REQUEST → (prost.bindingRequest m.body).isSome

def DecodesControl (prost : Prost) (m : Message) : Prop :=
  match ControlMessageId.tryFrom m.msg_id with
  | some .serviceDiscoveryResponse => (prost.serviceDiscoveryResponse m.body).isSome
  | some .channelOpenResponse => (prost.channelOpenResponse m.body).isSome
  | some .pingRequest => (prost.pingRequest m.body).isSome
  | some .audioFocusRequest => (prost.audioFocusRequest m.body).isSome
  | some .channelOpenRequest => (prost.channelOpenRequest m.body).isSome
  | _ => True

/-- The body is what the id denotes on the channel; a ChannelOpenResponse comes on any. Ids that
denote nothing, and messages that are only logged, take any body. -/
def Decodes (prost : Prost) (m : Message) : Prop :=
  if m.msg_id = ControlMessageId.channelOpenResponse.toU16 then
    (prost.channelOpenResponse m.body).isSome = true
  else
    match ChannelId.tryFrom m.channel with
    | some .control => DecodesControl prost m
    | some .input => DecodesInput prost m
    | some .sensor => DecodesSensor prost m
    | some .video => DecodesVideo prost m
    | some .mediaAudio | some .speechAudio | some .systemAudio | some .avInput =>
      DecodesAudio prost m
    | _ => True

/-! ### Agreement -/

/-- A message with audio samples, on a channel of the manager's. -/
def isDataFrame (m : Message) : Bool :=
  (m.msg_id = MSG_AV_MEDIA_WITH_TIMESTAMP_INDICATION || m.msg_id = MSG_AV_MEDIA_INDICATION) &&
    ((ChannelId.tryFrom m.channel).bind directionOf).isSome

/-- The replies but for the acknowledgements of audio frames. -/
def withoutAcks (m : Message) (outs : List OutboundMessage) : List OutboundMessage :=
  if isDataFrame m then outs.filter fun out => out.message_id ≠ MSG_AV_MEDIA_ACK_INDICATION
  else outs

/-- An unencrypted frame that carries the message. -/
def carrying (m : Message) (control : Bool) : Frame :=
  { channel_id := m.channel, frame_type := .bulk, control, encrypted := false
    total_length := none, payload := plainOf m.msg_id m.body }

/-- Both paths answer, and `handle_frame` sends what `dispatch` returns. -/
def Agree (side : Side C) (prost : Prost) (fl : Sensor.Floats F) (fuel : Nat) (s : Session C F)
    (m : Message) (control : Bool) : Prop :=
  ∃ outs live handlers,
    (dispatch prost fl s.handlers.sensor m.channel m.msg_id m.body).1 = .ok outs ∧
    route prost fl s.handlers m = (.ok live, handlers) ∧
    handleFrame side prost fl fuel s (carrying m control) =
      sendAll side fuel { s with handlers, acted := s.acted ++ [m] } live ∧
    withoutAcks m live = outs

/-- A focus notification on a canonical video, audio or microphone channel, or a request on the
microphone channel. -/
def Drifts (m : Message) : Prop :=
  ∃ cid, ChannelId.tryFrom m.channel = some cid ∧
    (isAv cid = true ∧ m.msg_id = 0x8008 ∨
      cid = .avInput ∧ (m.msg_id = MSG_SETUP_REQUEST ∨ m.msg_id = MSG_AV_INPUT_OPEN_REQUEST))

/-! ### The stateful manager and the stateless handler -/

theorem onDataFrame_acks (with_timestamp : Bool)
    (hdec : with_timestamp = true → 8 ≤ payload.length) :
    ∃ outs, (onDataFrame prost mgr cid st payload with_timestamp).1 = .ok outs ∧
      ∀ out ∈ outs, out.message_id = MSG_AV_MEDIA_ACK_INDICATION := by
  unfold onDataFrame
  split
  · split
    · exact ⟨[], rfl, by simp⟩
    · have hframe : ∃ frame, decode payload with_timestamp = .ok frame := by
        unfold decode
        split
        · rename_i hts
          have := hdec hts
          rw [if_neg (by omega)]
          exact ⟨_, rfl⟩
        · exact ⟨_, rfl⟩
      obtain ⟨frame, hframe⟩ := hframe
      rw [hframe]
      exact ⟨_, rfl, by simp⟩
  · exact ⟨[], rfl, by simp⟩

theorem onStartIndication_quiet (hdec : (prost.avChannelStartIndication payload).isSome) :
    (onStartIndication prost mgr cid st payload).1 = .ok [] := by
  obtain ⟨req, hreq⟩ := Option.isSome_iff_exists.mp hdec
  unfold onStartIndication
  rw [hreq]
  dsimp only
  split
  · rfl
  · rfl

theorem onInputOpen_reply (hdec : (prost.avInputOpenRequest payload).isSome) :
    (onInputOpen prost mgr cid st payload).1 =
      .ok [⟨cid.toU8, MSG_AV_INPUT_OPEN_RESPONSE, prost.avInputOpenResponse ⟨0, 0⟩⟩] := by
  obtain ⟨req, hreq⟩ := Option.isSome_iff_exists.mp hdec
  unfold onInputOpen
  rw [hreq]
  dsimp only
  split
  · rfl
  · rfl

theorem withoutAcks_other {outs : List OutboundMessage} (hts : m.msg_id ≠ 0x0000)
    (hplain : m.msg_id ≠ 0x0001) : withoutAcks m outs = outs := by
  have hdata : isDataFrame m = false := by
    simp [isDataFrame, MSG_AV_MEDIA_WITH_TIMESTAMP_INDICATION, MSG_AV_MEDIA_INDICATION, hts, hplain]
  rw [withoutAcks, hdata]
  rfl

theorem withoutAcks_data {outs : List OutboundMessage}
    (hid : m.msg_id = MSG_AV_MEDIA_WITH_TIMESTAMP_INDICATION ∨ m.msg_id = MSG_AV_MEDIA_INDICATION)
    (hcid : ChannelId.tryFrom m.channel = some cid) (hdir : (directionOf cid).isSome)
    (hacks : ∀ out ∈ outs, out.message_id = MSG_AV_MEDIA_ACK_INDICATION) :
    withoutAcks m outs = [] := by
  have hdata : isDataFrame m = true := by
    simp only [isDataFrame, hcid, Option.bind_some, hdir, Bool.and_true, Bool.or_eq_true,
      decide_eq_true_eq]
    exact hid
  rw [withoutAcks, if_pos hdata, List.filter_eq_nil_iff]
  intro out hout
  simp [hacks out hout]

theorem withoutAcks_nil : withoutAcks m [] = [] := by
  unfold withoutAcks
  split
  · rfl
  · rfl

theorem stateless_other (hsetup : m.msg_id ≠ MSG_SETUP_REQUEST)
    (hinput : m.msg_id ≠ MSG_AV_INPUT_OPEN_REQUEST) :
    Audio.handle prost m.channel m.msg_id m.body = .ok [] := by
  rw [Audio.handle, if_neg hsetup, if_neg hinput]

theorem stateless_setup (hsetup : m.msg_id = MSG_SETUP_REQUEST)
    (hdec : (prost.avChannelSetupRequest m.body).isSome) :
    Audio.handle prost m.channel m.msg_id m.body = .ok [⟨m.channel, MSG_SETUP_RESPONSE,
      prost.avChannelSetupResponse ⟨prost.av_channel_setup_ok, 10, [0]⟩⟩] := by
  obtain ⟨req, hreq⟩ := Option.isSome_iff_exists.mp hdec
  rw [Audio.handle, if_pos hsetup, hreq]

theorem stateless_input (hinput : m.msg_id = MSG_AV_INPUT_OPEN_REQUEST) :
    Audio.handle prost m.channel m.msg_id m.body = .ok [⟨m.channel, MSG_AV_INPUT_OPEN_RESPONSE,
      prost.avInputOpenResponse ⟨0, 0⟩⟩] := by
  have hsetup : MSG_AV_INPUT_OPEN_REQUEST ≠ MSG_SETUP_REQUEST := by decide
  rw [Audio.handle, hinput, if_neg hsetup, if_pos rfl]

/-- But for acknowledgements the manager replies as the stateless handler does. -/
theorem manager_agrees (mgr : AudioChannelManager) (hcid : ChannelId.tryFrom m.channel = some cid)
    (hdir : (directionOf cid).isSome) (hdec : DecodesAudio prost m) :
    ∃ outs live, Audio.handle prost m.channel m.msg_id m.body = .ok outs ∧
      (mgr.handle prost m.channel m.msg_id m.body).1 = .ok live ∧ withoutAcks m live = outs := by
  obtain ⟨st, mgr', hstate⟩ := ensureState_audio mgr hcid hdir
  have hchannel := ChannelId.toU8_of_tryFrom hcid
  unfold AudioChannelManager.handle
  rw [hstate]
  dsimp only
  by_cases hsetup : m.msg_id = MSG_SETUP_REQUEST
  · obtain ⟨req, hreq⟩ := Option.isSome_iff_exists.mp (hdec.setup hsetup)
    rw [stateless_setup hsetup (hdec.setup hsetup), if_pos hsetup, onSetupRequest, hreq, hchannel]
    exact ⟨_, _, rfl, rfl, withoutAcks_other (by rw [hsetup]; decide) (by rw [hsetup]; decide)⟩
  by_cases hinput : m.msg_id = MSG_AV_INPUT_OPEN_REQUEST
  · have hne : MSG_AV_INPUT_OPEN_REQUEST ≠ MSG_SETUP_REQUEST ∧
        MSG_AV_INPUT_OPEN_REQUEST ≠ MSG_START_INDICATION ∧
        MSG_AV_INPUT_OPEN_REQUEST ≠ MSG_STOP_INDICATION ∧
        MSG_AV_INPUT_OPEN_REQUEST ≠ MSG_AV_MEDIA_ACK_INDICATION := by decide
    obtain ⟨hne₁, hne₂, hne₃, hne₄⟩ := hne
    refine ⟨_, _, stateless_input hinput, ?_,
      withoutAcks_other (by rw [hinput]; decide) (by rw [hinput]; decide)⟩
    rw [hinput, if_neg hne₁, if_neg hne₂, if_neg hne₃, if_neg hne₄, if_pos rfl,
      onInputOpen_reply (hdec.input hinput), hchannel]
  -- the stateless handler answers nothing else
  refine ⟨[], ?_⟩
  rw [stateless_other hsetup hinput, if_neg hsetup]
  split_ifs with hstart hstop hack hts hplain
  · exact ⟨[], rfl, onStartIndication_quiet (hdec.start hstart), withoutAcks_nil⟩
  · exact ⟨[], rfl, rfl, withoutAcks_nil⟩
  · exact ⟨[], rfl, rfl, withoutAcks_nil⟩
  · obtain ⟨live, hlive, hacks⟩ := onDataFrame_acks true fun _ => hdec.timestamp hts
    exact ⟨live, rfl, hlive, withoutAcks_data (.inl hts) hcid hdir hacks⟩
  · obtain ⟨live, hlive, hacks⟩ := onDataFrame_acks false (fun h => by cases h)
    exact ⟨live, rfl, hlive, withoutAcks_data (.inr hplain) hcid hdir hacks⟩
  · exact ⟨[], rfl, rfl, withoutAcks_nil⟩

/-- The replies on the video channel do not depend on the pipeline. -/
theorem video_replies (channel : UInt8) (msg_id : UInt16) (body : Bytes)
    (p q : Video.VideoPipeline) :
    (Video.handle prost channel msg_id body p).1 = (Video.handle prost channel msg_id body q).1 := by
  unfold Video.handle
  split_ifs
  · cases prost.avChannelSetupRequest body <;> rfl
  · cases prost.avChannelStartIndication body <;> rfl
  · rfl
  · cases prost.avMediaAckIndication body <;> rfl
  · rfl

theorem video_ok (hdec : DecodesVideo prost m) (p : Video.VideoPipeline) :
    ∃ outs, (Video.handle prost m.channel m.msg_id m.body p).1 = .ok outs := by
  unfold Video.handle
  split_ifs with hsetup hstart
  · obtain ⟨req, hreq⟩ := Option.isSome_iff_exists.mp (hdec.setup hsetup)
    rw [hreq]
    exact ⟨_, rfl⟩
  · obtain ⟨ind, hind⟩ := Option.isSome_iff_exists.mp (hdec.start hstart)
    rw [hind]
    exact ⟨_, rfl⟩
  · exact ⟨_, rfl⟩
  · cases prost.avMediaAckIndication m.body <;> exact ⟨_, rfl⟩
  · exact ⟨_, rfl⟩

/-! ### The dispatcher -/

variable (prost fl) in
/-- The canonical video, audio and microphone channels reach their pure handlers. -/
theorem dispatch_av (sensor : Sensor.SensorHandler F) (hcid : ChannelId.tryFrom m.channel = some cid)
    (hav : isAv cid = true) (hcross : isCrossChannelControl m.msg_id = false)
    (hfocus : m.msg_id ≠ 0x8008) :
    (dispatch prost fl sensor m.channel m.msg_id m.body).1 =
      if cid = .video then
        (Video.handle prost m.channel m.msg_id m.body (.new Video.VIDEO_MAX_UNACKED)).1
      else Audio.handle prost m.channel m.msg_id m.body := by
  obtain ⟨hopen, hunexpected⟩ := Bool.or_eq_false_iff.mp hcross
  have hopen := of_decide_eq_false hopen
  have hunexpected := of_decide_eq_false hunexpected
  unfold dispatch
  simp only [if_neg hopen, if_neg hunexpected, if_neg hfocus, channel_eq_iff, hcid]
  by_cases hsetup : m.msg_id = 0x8003
  · rw [hsetup]
    cases cid <;> simp [isAv] at hav <;> rfl
  · rw [if_neg hsetup]
    by_cases hmic : m.msg_id = 0x8006
    · rw [hmic]
      cases cid <;> simp [isAv] at hav <;> rfl
    · cases cid <;> simp [isAv] at hav <;> simp [hmic]

theorem dispatch_focus (sensor : Sensor.SensorHandler F) (hfocus : m.msg_id = 0x8008) :
    (dispatch prost fl sensor m.channel m.msg_id m.body).1 =
      .ok [⟨m.channel, 0x8001, [0x08, 0x01, 0x10, 0x00]⟩] := by
  rw [hfocus]
  rfl

theorem control_ok (hdec : DecodesControl prost m) :
    ∃ outs, dispatchControl prost m.msg_id m.body = .ok outs := by
  unfold DecodesControl at hdec
  unfold dispatchControl
  cases hid : ControlMessageId.tryFrom m.msg_id with
  | none => exact ⟨_, rfl⟩
  | some id =>
    rw [hid] at hdec
    cases id with
    | channelOpenResponse =>
      obtain ⟨resp, hresp⟩ := Option.isSome_iff_exists.mp hdec
      simp [hresp]
    | serviceDiscoveryResponse =>
      obtain ⟨resp, hresp⟩ := Option.isSome_iff_exists.mp hdec
      simp [hresp]
    | pingRequest =>
      obtain ⟨req, hreq⟩ := Option.isSome_iff_exists.mp hdec
      simp [hreq]
    | audioFocusRequest =>
      obtain ⟨req, hreq⟩ := Option.isSome_iff_exists.mp hdec
      simp [hreq]
    | channelOpenRequest =>
      obtain ⟨req, hreq⟩ := Option.isSome_iff_exists.mp hdec
      simp [hreq]
    | _ => exact ⟨_, rfl⟩

theorem input_ok (hdec : DecodesInput prost m) :
    ∃ outs, Dispatch.Input.handle prost m.msg_id m.body = .ok outs := by
  unfold Dispatch.Input.handle
  split
  · rename_i hid
    obtain ⟨req, hreq⟩ := Option.isSome_iff_exists.mp (hdec hid)
    rw [hreq]
    exact ⟨_, rfl⟩
  · exact ⟨_, rfl⟩

theorem sensor_ok (hdec : DecodesSensor prost m) (sensor : Sensor.SensorHandler F) :
    ∃ outs, (Sensor.handle prost fl sensor m.msg_id m.body).1 = .ok outs := by
  unfold Sensor.handle
  split_ifs with hstart hevent
  · obtain ⟨req, hreq⟩ := Option.isSome_iff_exists.mp (hdec.start hstart)
    rw [hreq]
    exact ⟨_, rfl⟩
  · obtain ⟨ev, hev⟩ := Option.isSome_iff_exists.mp (hdec.event hevent)
    rw [hev]
    exact ⟨_, rfl⟩
  · exact ⟨_, rfl⟩

variable (fl) in
/-- On the other channels a body that decodes is answered. -/
theorem dispatch_ok (sensor : Sensor.SensorHandler F) (hdec : Decodes prost m)
    (hav : ∀ cid, ChannelId.tryFrom m.channel = some cid → isAv cid = false) :
    ∃ outs, (dispatch prost fl sensor m.channel m.msg_id m.body).1 = .ok outs := by
  unfold Decodes at hdec
  unfold dispatch
  split_ifs with hopen
  · exact ⟨_, rfl⟩
  · exact ⟨_, rfl⟩
  · exact ⟨_, rfl⟩
  · exact ⟨_, rfl⟩
  · exact ⟨_, rfl⟩
  · exact ⟨_, rfl⟩
  · exact ⟨_, rfl⟩
  · rw [if_neg hopen] at hdec
    cases hcid : ChannelId.tryFrom m.channel with
    | none => exact ⟨_, rfl⟩
    | some cid =>
      have hcid' := hav cid hcid
      rw [hcid] at hdec
      cases cid with
      | control => exact control_ok hdec
      | input => exact input_ok hdec
      | sensor => exact sensor_ok hdec sensor
      | video | mediaAudio | speechAudio | systemAudio | avInput => cases hcid'
      | bluetooth | navigation | none => exact ⟨_, rfl⟩

/-! ### Both paths -/

/-- The two paths' replies, where both answer. -/
def Matches (prost : Prost) (fl : Sensor.Floats F) (h : Handlers F) (m : Message) : Prop :=
  ∃ outs live, (dispatch prost fl h.sensor m.channel m.msg_id m.body).1 = .ok outs ∧
    (route prost fl h m).1 = .ok live ∧ withoutAcks m live = outs

theorem matches_iff {outs live : List OutboundMessage}
    (hpure : (dispatch prost fl h.sensor m.channel m.msg_id m.body).1 = .ok outs)
    (hlive : (route prost fl h m).1 = .ok live) :
    Matches prost fl h m ↔ withoutAcks m live = outs := by
  constructor
  · rintro ⟨outs', live', hpure', hlive', heq⟩
    obtain rfl := Except.ok.inj (hpure.symm.trans hpure')
    obtain rfl := Except.ok.inj (hlive.symm.trans hlive')
    exact heq
  · intro heq
    exact ⟨outs, live, hpure, hlive, heq⟩

theorem withoutAcks_quiet {outs : List OutboundMessage}
    (hdir : ∀ cid, ChannelId.tryFrom m.channel = some cid → directionOf cid = none) :
    withoutAcks m outs = outs := by
  have hdata : isDataFrame m = false := by
    unfold isDataFrame
    cases hcid : ChannelId.tryFrom m.channel with
    | none => simp
    | some cid => simp [hdir cid hcid]
  rw [withoutAcks, hdata]
  rfl

/-- The two control ids that come on any channel go to the dispatcher. -/
theorem matches_cross (hcross : isCrossChannelControl m.msg_id = true) : Matches prost fl h m := by
  refine ⟨[], [], ?_, ?_, withoutAcks_nil⟩
  · rw [dispatch_cross h.sensor m.body hcross]
  · unfold route
    simp only [hcross, if_true, dispatch_cross _ _ hcross]

/-- So does what comes on any other channel. -/
theorem matches_other (hdec : Decodes prost m)
    (hav : ∀ cid, ChannelId.tryFrom m.channel = some cid → isAv cid = false) :
    Matches prost fl h m := by
  obtain ⟨outs, houts⟩ := dispatch_ok fl h.sensor hdec hav
  have hlive : (route prost fl h m).1 = (dispatch prost fl h.sensor m.channel m.msg_id m.body).1 := by
    unfold route
    dsimp only
    split
    · rfl
    · cases hcid : ChannelId.tryFrom m.channel with
      | none => rfl
      | some cid =>
        have hcid' := hav cid hcid
        cases cid <;> simp [isAv] at hcid' <;> rfl
  refine ⟨outs, outs, houts, hlive.trans houts, withoutAcks_quiet ?_⟩
  intro cid hcid
  have hcid' := hav cid hcid
  cases cid <;> simp [isAv] at hcid' <;> rfl

/-- A focus notification on a channel with a handler of its own is not answered. -/
theorem matches_focus (hcid : ChannelId.tryFrom m.channel = some cid) (hav : isAv cid = true)
    (hfocus : m.msg_id = 0x8008) : ¬ Matches prost fl h m := by
  have hlive : (route prost fl h m).1 = .ok [] := by
    have hcross : isCrossChannelControl 0x8008 = false := by decide
    unfold route
    simp only [hfocus, hcross, hcid]
    cases cid <;> simp [isAv] at hav <;> first | exact handle_focus _ _ _ | rfl
  rw [matches_iff (dispatch_focus h.sensor hfocus) hlive, withoutAcks_nil]
  exact List.cons_ne_nil _ _ ∘ Eq.symm

theorem matches_video (hcid : ChannelId.tryFrom m.channel = some .video)
    (hdec : DecodesVideo prost m) (hcross : isCrossChannelControl m.msg_id = false)
    (hfocus : m.msg_id ≠ 0x8008) : Matches prost fl h m := by
  obtain ⟨outs, houts⟩ := video_ok hdec (.new Video.VIDEO_MAX_UNACKED)
  have hpure : (dispatch prost fl h.sensor m.channel m.msg_id m.body).1 = .ok outs := by
    rw [dispatch_av prost fl h.sensor hcid rfl hcross hfocus, if_pos rfl, houts]
  have hlive : (route prost fl h m).1 = .ok outs := by
    unfold route
    simp only [hcross, hcid]
    rw [← houts]
    exact video_replies _ _ _ _ _
  refine ⟨outs, outs, hpure, hlive, withoutAcks_quiet ?_⟩
  intro cid hcid'
  obtain rfl := Option.some.inj (hcid.symm.trans hcid')
  rfl

theorem matches_audio (hcid : ChannelId.tryFrom m.channel = some cid)
    (hdir : (directionOf cid).isSome) (hdec : DecodesAudio prost m)
    (hcross : isCrossChannelControl m.msg_id = false) (hfocus : m.msg_id ≠ 0x8008) :
    Matches prost fl h m := by
  obtain ⟨outs, live, houts, hlive, heq⟩ := manager_agrees h.audio hcid hdir hdec
  have hav : isAv cid = true ∧ cid ≠ .video := by
    cases cid <;> simp [directionOf] at hdir <;> simp [isAv]
  refine ⟨outs, live, ?_, ?_, heq⟩
  · rw [dispatch_av prost fl h.sensor hcid hav.1 hcross hfocus, if_neg hav.2, houts]
  · unfold route
    simp only [hcross, hcid]
    cases cid <;> simp [directionOf] at hdir <;> exact hlive

/-- The manager keeps no state for the microphone and answers nothing there. -/
theorem matches_microphone (hcid : ChannelId.tryFrom m.channel = some .avInput)
    (hdec : DecodesAudio prost m) (hcross : isCrossChannelControl m.msg_id = false)
    (hfocus : m.msg_id ≠ 0x8008) :
    Matches prost fl h m ↔
      ¬ (m.msg_id = MSG_SETUP_REQUEST ∨ m.msg_id = MSG_AV_INPUT_OPEN_REQUEST) := by
  have hlive : (route prost fl h m).1 = .ok [] := by
    have hstate : ensureState h.audio m.channel = none := by
      simp [ensureState, hcid, directionOf]
    unfold route
    simp only [hcross, hcid]
    rw [AudioChannelManager.handle, hstate]
    rfl
  have hpure := dispatch_av prost fl h.sensor hcid rfl hcross hfocus
  rw [if_neg (by decide)] at hpure
  by_cases hsetup : m.msg_id = MSG_SETUP_REQUEST
  · rw [stateless_setup hsetup (hdec.setup hsetup)] at hpure
    rw [matches_iff hpure hlive, withoutAcks_nil]
    simp [hsetup]
  by_cases hinput : m.msg_id = MSG_AV_INPUT_OPEN_REQUEST
  · rw [stateless_input hinput] at hpure
    rw [matches_iff hpure hlive, withoutAcks_nil]
    simp [hinput]
  rw [stateless_other hsetup hinput] at hpure
  rw [matches_iff hpure hlive, withoutAcks_nil]
  simp [hsetup, hinput]

/-- On a given channel the drift is a matter of the id. -/
theorem drifts_iff (hcid : ChannelId.tryFrom m.channel = some cid) :
    Drifts m ↔ isAv cid = true ∧ m.msg_id = 0x8008 ∨
      cid = .avInput ∧ (m.msg_id = MSG_SETUP_REQUEST ∨ m.msg_id = MSG_AV_INPUT_OPEN_REQUEST) := by
  constructor
  · rintro ⟨cid', hcid', h⟩
    obtain rfl := Option.some.inj (hcid.symm.trans hcid')
    exact h
  · intro h
    exact ⟨cid, hcid, h⟩

theorem not_drifts_cross (hcross : isCrossChannelControl m.msg_id = true) : ¬ Drifts m := by
  rintro ⟨cid, _, ⟨_, hid⟩ | ⟨_, hid | hid⟩⟩
  · rw [hid] at hcross
    exact absurd hcross (by decide)
  · rw [hid] at hcross
    exact absurd hcross (by decide)
  · rw [hid] at hcross
    exact absurd hcross (by decide)

theorem not_drifts_other
    (hav : ∀ cid, ChannelId.tryFrom m.channel = some cid → isAv cid = false) : ¬ Drifts m := by
  rintro ⟨cid, hcid, ⟨hav', _⟩ | ⟨rfl, _⟩⟩
  · rw [hav cid hcid] at hav'
    cases hav'
  · cases hav _ hcid

variable (fl h) in
theorem matches_iff_not_drifts (hdec : Decodes prost m) :
    Matches prost fl h m ↔ ¬ Drifts m := by
  by_cases hcross : isCrossChannelControl m.msg_id = true
  · exact iff_of_true (matches_cross hcross) (not_drifts_cross hcross)
  by_cases hav : ∀ cid, ChannelId.tryFrom m.channel = some cid → isAv cid = false
  · exact iff_of_true (matches_other hdec hav) (not_drifts_other hav)
  push Not at hav
  obtain ⟨cid, hcid, hav⟩ := hav
  have hav : isAv cid = true := by simpa using hav
  rw [drifts_iff hcid]
  by_cases hfocus : m.msg_id = 0x8008
  · exact iff_of_false (matches_focus hcid hav hfocus) (not_not_intro (.inl ⟨hav, hfocus⟩))
  have hcross : isCrossChannelControl m.msg_id = false := by simpa using hcross
  have hopen := of_decide_eq_false (Bool.or_eq_false_iff.mp hcross).1
  rw [Decodes, if_neg hopen, hcid] at hdec
  cases cid with
  | video =>
    have hdrift : ¬ (isAv .video = true ∧ m.msg_id = 0x8008 ∨ ChannelId.video = .avInput ∧
        (m.msg_id = MSG_SETUP_REQUEST ∨ m.msg_id = MSG_AV_INPUT_OPEN_REQUEST)) := by simp [hfocus]
    exact iff_of_true (matches_video hcid hdec hcross hfocus) hdrift
  | avInput =>
    rw [matches_microphone hcid hdec hcross hfocus]
    simp [hfocus]
  | mediaAudio | speechAudio | systemAudio =>
    refine iff_of_true (matches_audio hcid rfl hdec hcross hfocus) ?_
    simp [hfocus]
  | control | input | sensor | bluetooth | navigation | none => cases hav

theorem openFrame_carrying (side : Side C) (fuel : Nat) (conn : C) (m : Message) (control : Bool) :
    openFrame side fuel conn (carrying m control) = some (.ok m, conn) := by
  have hplain : (carrying m control).encrypted = false := rfl
  rw [openFrame, hplain, if_neg Bool.false_ne_true]
  exact congrArg (fun r => some (r, conn)) (InboundFragments.readMessage_plainOf ..)

/-- On bodies that decode the live path agrees with the dispatcher, unless the message is one of
those on which the tables have drifted apart. -/
theorem agree_iff (side : Side C) (prost : Prost) (fl : Sensor.Floats F) (fuel : Nat)
    (s : Session C F) (m : Message) (control : Bool) (hdec : Decodes prost m) :
    Agree side prost fl fuel s m control ↔ ¬ Drifts m := by
  rw [← matches_iff_not_drifts fl s.handlers hdec]
  constructor
  · rintro ⟨outs, live, handlers, hpure, hroute, _, heq⟩
    exact ⟨outs, live, hpure, congrArg Prod.fst hroute, heq⟩
  · rintro ⟨outs, live, hpure, hlive, heq⟩
    have hroute : route prost fl s.handlers m = (.ok live, (route prost fl s.handlers m).2) :=
      Prod.ext hlive rfl
    exact ⟨outs, live, _, hpure, hroute, handleFrame_ok (openFrame_carrying ..) hroute, heq⟩

/-- A SETUP_REQUEST for the media channel. -/
theorem agree_mediaSetup : Agree SendEncrypted.clearSide emptyBodies FixRouting.wholeUnits 1
    FixRouting.freshSession ⟨4, MSG_SETUP_REQUEST, []⟩ false := by
  have hdec : Decodes emptyBodies ⟨4, MSG_SETUP_REQUEST, []⟩ := by
    refine ⟨?_, ?_, ?_, ?_, ?_⟩
    · exact fun _ => rfl
    · exact fun _ => rfl
    · exact fun _ => rfl
    · exact fun _ => rfl
    · intro h
      exact absurd h (by decide)
  refine (agree_iff _ _ _ _ _ _ _ hdec).mpr ?_
  rintro ⟨cid, hcid, ⟨_, hid⟩ | ⟨rfl, _⟩⟩
  · exact absurd hid (by decide)
  · exact absurd hcid (by decide)

/-- A focus notification on the canonical video channel gets a START from `dispatch` and nothing
from `handle_frame`. -/
theorem focus_unanswered : Decodes emptyBodies ⟨3, 0x8008, []⟩ ∧
    (dispatch emptyBodies FixRouting.wholeUnits FixRouting.freshSession.handlers.sensor 3 0x8008
      []).1 = .ok [⟨3, 0x8001, [0x08, 0x01, 0x10, 0x00]⟩] ∧
    (route emptyBodies FixRouting.wholeUnits FixRouting.freshSession.handlers
      ⟨3, 0x8008, []⟩).1 = .ok [] ∧
    ¬ Agree SendEncrypted.clearSide emptyBodies FixRouting.wholeUnits 1 FixRouting.freshSession
      ⟨3, 0x8008, []⟩ false := by
  have hdec : Decodes emptyBodies ⟨3, 0x8008, []⟩ := ⟨fun _ => rfl, fun _ => rfl, fun _ => rfl⟩
  refine ⟨hdec, rfl, rfl, ?_⟩
  rintro ⟨outs, live, handlers, hpure, hroute, _, heq⟩
  have hav : isAv .video = true := rfl
  exact matches_focus (m := ⟨3, 0x8008, []⟩) rfl hav rfl
    ⟨outs, live, hpure, congrArg Prod.fst hroute, heq⟩

end Aabox.LivePath
