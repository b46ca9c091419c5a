import Aabox.Conversation

/-!
# The pings

The replies to pings in the conversation: of all the handlers only the control channel's makes a
ping response, and it makes one for each ping request.
-/
namespace Aabox.Pings
open Aabox.Lib Aabox.Framing Aabox.Encrypted Aabox.SendEncrypted Aabox.Messages Aabox.HandleFrame
  Aabox.InboundFragments Aabox.Startup Aabox.Delivery Aabox.HeadUnit Aabox.Conversation

def pong (prost : Prost) (timestamp : Int) : OutboundMessage :=
  ⟨ChannelId.control.toU8, ControlMessageId.pingResponse.toU16, prost.pingResponse timestamp⟩

/-- The timestamp of a ping request on the control channel. -/
def pingOf (prost : Prost) (m : Message) : Option Int :=
  if m.channel = ChannelId.control.toU8 ∧ m.msg_id = ControlMessageId.pingRequest.toU16 then
    (prost.pingRequest m.body).map (·.timestamp)
  else none

def isPong (message_id : UInt16) : Bool := message_id = ControlMessageId.pingResponse.toU16

/-- No ping response is among the messages of a reply. -/
def Quiet (res : Except HandlerError (List OutboundMessage)) : Prop :=
  ∀ out ∈ res.toOption.getD [], isPong out.message_id = false

variable {T R P F : Type} {tx : Side T} {rx : Side R} {hx : Side P} {layer : RecordLayer tx rx}
  {back : RecordLayer rx hx} {p : StartupProst} {prost : Prost} {fl : Sensor.Floats F}
  {fuel fuel' : Nat} {s : Link T R F} {session : Session R F} {h h₀ : Handlers F} {r₀ : P}
  {log : List (Origin × OutboundMessage)} {m : Message} {channel : UInt8} {msg_id : UInt16}
  {body : Bytes} {e : HandlerError}

theorem quiet_error : Quiet (.error e) := by
  intro out hout
  cases hout

theorem quiet_nil : Quiet (.ok []) := by
  intro out hout
  cases hout

theorem quiet_one (h : isPong msg_id = false) : Quiet (.ok [⟨channel, msg_id, body⟩]) := by
  intro out hout
  rw [List.mem_singleton.mp hout]
  exact h

theorem audioData_quiet {m : Audio.AudioChannelManager} {cid : ChannelId}
    {st : Audio.AudioChannelState} (with_timestamp : Bool) :
    Quiet (Audio.onDataFrame prost m cid st body with_timestamp).1 := by
  unfold Audio.onDataFrame
  split
  · split
    · exact quiet_nil
    · split
      · exact quiet_error
      · exact quiet_one (by decide)
  · exact quiet_nil

theorem audio_quiet (m : Audio.AudioChannelManager) :
    Quiet (m.handle prost channel msg_id body).1 := by
  unfold Audio.AudioChannelManager.handle
  cases Audio.ensureState m channel with
  | none => exact quiet_nil
  | some x =>
    dsimp only
    split_ifs
    · unfold Audio.onSetupRequest
      split
      · exact quiet_error
      · exact quiet_one (by decide)
    · unfold Audio.onStartIndication
      split
      · exact quiet_error
      · dsimp only
        split <;> exact quiet_nil
    · exact quiet_nil
    · exact quiet_nil
    · unfold Audio.onInputOpen
      split
      · exact quiet_error
      · dsimp only
        split <;> exact quiet_one (by decide)
    · exact audioData_quiet true
    · exact audioData_quiet false
    · exact quiet_nil

theorem audioFallback_quiet : Quiet (Audio.handle prost channel msg_id body) := by
  unfold Audio.handle
  split_ifs
  · split
    · exact quiet_error
    · exact quiet_one (by decide)
  · exact quiet_one (by decide)
  · exact quiet_nil

theorem video_quiet (pipeline : Video.VideoPipeline) :
    Quiet (Video.handle prost channel msg_id body pipeline).1 := by
  unfold Video.handle
  split_ifs
  · split
    · exact quiet_error
    · exact quiet_one (by decide)
  · split
    · exact quiet_error
    · exact quiet_nil
  · exact quiet_nil
  · split <;> exact quiet_nil
  · exact quiet_nil

theorem input_quiet : Quiet (Dispatch.Input.handle prost msg_id body) := by
  unfold Dispatch.Input.handle
  split_ifs
  · split
    · exact quiet_error
    · exact quiet_one (by decide)
  · exact quiet_nil

theorem sensor_quiet (h : Sensor.SensorHandler F) :
    Quiet (Sensor.handle prost fl h msg_id body).1 := by
  unfold Sensor.handle
  split_ifs
  · split
    · exact quiet_error
    · exact quiet_one (by decide)
  · split
    · exact quiet_error
    · exact quiet_nil
  · exact quiet_nil

theorem openMessages_quiet (ch : ChannelDescriptor) {out : OutboundMessage}
    (h : out ∈ Dispatch.openMessages prost ch) : isPong out.message_id = false := by
  unfold Dispatch.openMessages at h
  dsimp only at h
  split at h
  · rcases List.mem_cons.mp h with rfl | h
    · rfl
    · have hsetup := Option.mem_toList.mp h
      unfold Dispatch.setupMessageFor at hsetup
      split at hsetup <;> cases hsetup <;> rfl
  · cases h

/-- The ping responses among the messages of a reply. -/
def pongsOf (outs : List OutboundMessage) : List OutboundMessage :=
  outs.filter fun out => isPong out.message_id

theorem Quiet.pongsOf {res : Except HandlerError (List OutboundMessage)} (h : Quiet res) :
    pongsOf (res.toOption.getD []) = [] := by
  refine List.filter_eq_nil_iff.mpr ?_
  intro out hout
  simp [h out hout]

theorem pingOf_other (h : msg_id ≠ ControlMessageId.pingRequest.toU16) :
    pingOf prost ⟨channel, msg_id, body⟩ = none := if_neg fun hall => h hall.2

theorem pingOf_elsewhere (h : channel ≠ ChannelId.control.toU8) :
    pingOf prost ⟨channel, msg_id, body⟩ = none := if_neg fun hall => h hall.1

theorem pingRequest_id (h : ControlMessageId.tryFrom msg_id = some .pingRequest) :
    msg_id = ControlMessageId.pingRequest.toU16 := by
  unfold ControlMessageId.tryFrom at h
  iterate 9
    rcases ite_eq_iff.mp h with ⟨-, ⟨⟩⟩ | ⟨-, h⟩
  rcases ite_eq_iff.mp h with ⟨rfl, -⟩ | ⟨-, h⟩
  · rfl
  iterate 8
    rcases ite_eq_iff.mp h with ⟨-, ⟨⟩⟩ | ⟨-, h⟩
  cases h

theorem control_quiet (h : msg_id ≠ ControlMessageId.pingRequest.toU16) :
    Quiet (Dispatch.dispatchControl prost msg_id body) := by
  unfold Dispatch.dispatchControl
  rcases hid : ControlMessageId.tryFrom msg_id with _ | id
  · exact quiet_nil
  · cases id with
    | pingRequest => exact absurd (pingRequest_id hid) h
    | serviceDiscoveryResponse =>
      dsimp only
      split
      · rename_i resp _
        intro out hout
        rcases List.mem_cons.mp hout with rfl | hout
        · rfl
        rcases List.mem_cons.mp hout with rfl | hout
        · rfl
        obtain ⟨ch, -, hmem⟩ := List.mem_flatMap.mp hout
        exact openMessages_quiet ch hmem
      · exact quiet_nil
    | channelOpenResponse =>
      dsimp only
      split
      · exact quiet_nil
      · exact quiet_error
    | audioFocusRequest | channelOpenRequest =>
      dsimp only
      split
      · exact quiet_one (by decide)
      · exact quiet_error
    | navigationFocusRequest | shutdownRequest => exact quiet_one (by decide)
    | _ => exact quiet_nil

theorem control_pongs : pongsOf ((Dispatch.dispatchControl prost msg_id body).toOption.getD []) =
    ((pingOf prost ⟨ChannelId.control.toU8, msg_id, body⟩).map (pong prost)).toList := by
  by_cases hping : msg_id = ControlMessageId.pingRequest.toU16
  · subst hping
    have hid : ControlMessageId.tryFrom ControlMessageId.pingRequest.toU16 = some .pingRequest := by
      decide
    have hpong : isPong ControlMessageId.pingResponse.toU16 = true := by decide
    unfold Dispatch.dispatchControl pingOf
    rw [hid]
    cases prost.pingRequest body <;> simp [pongsOf, Except.toOption, hpong, pong]
  · rw [(control_quiet hping).pongsOf, pingOf_other hping]
    rfl

theorem dispatch_pongs (h : Sensor.SensorHandler F) :
    pongsOf ((Dispatch.dispatch prost fl h channel msg_id body).1.toOption.getD []) =
      ((pingOf prost ⟨channel, msg_id, body⟩).map (pong prost)).toList := by
  -- An id that is looked at before the channel is none of a ping's.
  have hquiet : ∀ {res}, Quiet res → pingOf prost ⟨channel, msg_id, body⟩ = none →
      pongsOf (res.toOption.getD []) =
        ((pingOf prost ⟨channel, msg_id, body⟩).map (pong prost)).toList := by
    intro res hres hnone
    rw [hres.pongsOf, hnone]
    rfl
  have hother : ∀ id : UInt16, id ≠ ControlMessageId.pingRequest.toU16 → msg_id = id →
      pingOf prost ⟨channel, msg_id, body⟩ = none :=
    fun id hid heq => pingOf_other (heq ▸ hid)
  unfold Dispatch.dispatch
  split_ifs with h₁ h₂ h₃ h₄ h₅ h₆ h₇
  · exact hquiet quiet_nil (hother _ (by decide) h₁)
  · exact hquiet quiet_nil (hother _ (by decide) h₂)
  · exact hquiet quiet_nil (hother _ (by decide) h₃)
  · exact hquiet (quiet_one (by decide)) (hother _ (by decide) h₄)
  · exact hquiet quiet_nil (hother _ (by decide) h₅.1)
  · exact hquiet quiet_nil (hother _ (by decide) h₆.1)
  · exact hquiet quiet_nil (hother _ (by decide) h₇.1)
  · rcases hchan : ChannelId.tryFrom channel with _ | cid
    · have hne : channel ≠ ChannelId.control.toU8 := by
        rintro rfl
        rw [ChannelId.tryFrom_toU8] at hchan
        cases hchan
      exact hquiet quiet_nil (pingOf_elsewhere hne)
    · obtain rfl := ChannelId.toU8_of_tryFrom hchan
      cases cid with
      | control => exact control_pongs
      | input => exact hquiet input_quiet (pingOf_elsewhere (by decide))
      | sensor => exact hquiet (sensor_quiet h) (pingOf_elsewhere (by decide))
      | video => exact hquiet (video_quiet _) (pingOf_elsewhere (by decide))
      | mediaAudio | speechAudio | systemAudio | avInput =>
        exact hquiet audioFallback_quiet (pingOf_elsewhere (by decide))
      | navigation | bluetooth | none => exact hquiet quiet_nil (pingOf_elsewhere (by decide))

/-- Each ping request is replied to by its response, and nothing else is. -/
theorem route_pongs (h : Handlers F) : pongsOf ((route prost fl h m).1.toOption.getD []) =
    ((pingOf prost m).map (pong prost)).toList := by
  have hquiet : ∀ {res}, Quiet res → m.channel ≠ ChannelId.control.toU8 →
      pongsOf (res.toOption.getD []) = ((pingOf prost m).map (pong prost)).toList := by
    intro res hres hne
    have hnone : pingOf prost m = none := pingOf_elsewhere hne
    rw [hres.pongsOf, hnone]
    rfl
  unfold route
  dsimp only
  split
  · exact dispatch_pongs _
  · rcases hchan : ChannelId.tryFrom m.channel with _ | cid
    · exact dispatch_pongs _
    · have hid : cid.toU8 = m.channel := ChannelId.toU8_of_tryFrom hchan
      cases cid with
      | mediaAudio | speechAudio | systemAudio | avInput =>
        exact hquiet (audio_quiet _) (hid ▸ by decide)
      | video => exact hquiet (video_quiet _) (hid ▸ by decide)
      | control | input | sensor | bluetooth | navigation | none => exact dispatch_pongs _

theorem answers_pongs (ms : List Message) : pongsOf (answers prost fl h ms).1 =
    (ms.filterMap (pingOf prost)).map (pong prost) := by
  induction ms generalizing h with
  | nil => rfl
  | cons m ms ih =>
    have hsplit : ∀ xs ys, pongsOf (xs ++ ys) = pongsOf xs ++ pongsOf ys :=
      fun _ _ => List.filter_append ..
    simp only [answers, hsplit, route_pongs, ih]
    cases hping : pingOf prost m <;> simp [hping]

/-- A ping response in the log is a reply. -/
theorem pongs_of_log (hown : ∀ out ∈ ofOrigin .own log, isPong out.message_id = false) :
    pongsOf (log.map (·.2)) = pongsOf (ofOrigin .reply log) := by
  unfold pongsOf ofOrigin
  rw [List.filter_map, List.filter_map, List.filter_filter]
  refine congrArg (List.map Prod.snd) (List.filter_congr ?_)
  rintro ⟨o, out⟩ hmem
  cases o with
  | reply => simp
  | own =>
    have hout : out ∈ ofOrigin .own log :=
      List.mem_map.mpr ⟨(.own, out), List.mem_filter.mpr ⟨hmem, by simp⟩, rfl⟩
    simp [hown out hout]

/-- The head unit reads one response for each ping that has been acted on, in order and with the
ping's timestamp, and in the end one for each ping it has sent. -/
structure PingsAnswered {T R F : Type} (p : StartupProst) (s : Link T R F) (got : List Message) :
    Prop where
  acted : got.filter (fun m => isPong m.msg_id) =
    (s.session.acted.filterMap (pingOf p.toProst)).map fun t => wholeMessage (pong p.toProst t)
  all : s.loop.coming = [] → s.loop.atHand = [] → got.filter (fun m => isPong m.msg_id) =
    ((s.said.map wholeMessage).filterMap (pingOf p.toProst)).map
      fun t => wholeMessage (pong p.toProst t)

theorem pings_conversed {chunks : List Bytes} (h : Conversed hx p fl fuel' h₀ r₀ s chunks log)
    (hown : ∀ out ∈ s.loop.sent, isPong out.message_id = false) :
    PingsAnswered p s ((log.map (·.2)).map wholeMessage) := by
  have hread : ((log.map (·.2)).map wholeMessage).filter (fun m => isPong m.msg_id) =
      (pongsOf (log.map (·.2))).map wholeMessage := by
    rw [List.filter_map]
    rfl
  have hacted : ((log.map (·.2)).map wholeMessage).filter (fun m => isPong m.msg_id) =
      (s.session.acted.filterMap (pingOf p.toProst)).map
        fun t => wholeMessage (pong p.toProst t) := by
    rw [hread, pongs_of_log (h.own ▸ hown), h.replies, answers_pongs, List.map_map]
    rfl
  refine ⟨hacted, ?_⟩
  intro hcoming hhand
  rw [hacted, h.all hcoming hhand]

/-- Whatever goes out between the pings, and whatever the handlers make of the other messages. -/
theorem pings_answered (layer : RecordLayer tx rx) (back : RecordLayer rx hx) (hdup : layer.Duplex)
    (hrecv : Receiving back) {peer : T} {spoken : Writer} {xs : List Delivery.Event}
    (hopening : Opening layer back peer r₀ session) (hfuel : 65536 ≤ fuel')
    (hrun : Run (Guard (Steps (Delivery.next tx rx p.toProst fl fuel)) (Smooth rx p fl fuel))
      (Delivery.start peer spoken session) xs s) (hcalm : Unalerted layer back s)
    {chunks : List Bytes}
    (hchunks : s.session.writer.wire = session.writer.wire ++ chunks.flatten)
    (hown : ∀ out ∈ s.loop.sent, isPong out.message_id = false) :
    ∃ got, headUnit hx fuel' r₀ chunks = some got ∧ PingsAnswered p s got := by
  have hconv := conversing_run hdup hrecv hfuel (conversing_start hopening) hrun hcalm
  obtain ⟨log, hlog⟩ := hconv.conversed hchunks
  exact ⟨_, hlog.reads, pings_conversed hlog hown⟩

theorem two_pings_answered : ∃ (s : Link ClearConn ClearConn Int) (got : List Message),
    PingsAnswered stampBodies s got ∧
      s.session.acted.filterMap (pingOf stampBodies.toProst) = [1, 2] := by
  have hrun : (twoPings.foldlM (guarded (Delivery.next clearSide clearSide stampBodies.toProst
      FixRouting.wholeUnits 16) (Smooth clearSide stampBodies FixRouting.wholeUnits 16))
        (Delivery.start ⟨[], [], []⟩ ⟨[], []⟩ FixRouting.freshSession)).any (fun s =>
          (∀ out ∈ s.loop.sent, isPong out.message_id = false) ∧
            s.session.acted.filterMap (pingOf stampBodies.toProst) = [1, 2]) = true := by
    decide +kernel
  obtain ⟨s, hrun, hend⟩ := (Option.any_eq_true _ _).mp hrun
  obtain ⟨hown, hpings⟩ := of_decide_eq_true hend
  have hwire : s.session.writer.wire =
      FixRouting.freshSession.writer.wire ++ [s.session.writer.wire].flatten := by
    simp [FixRouting.freshSession]
  obtain ⟨got, -, hgot⟩ := pings_answered clearLayer clearLayer clear_duplex clear_receiving
    clear_opening (Nat.le_refl 65536) (run_guard_iff_foldlM.mpr hrun) ⟨id, id⟩ hwire hown
  exact ⟨s, got, hgot, hpings⟩

end Aabox.Pings
