import Aabox.ChannelMap
import Aabox.VideoRuns

/-!
# Runs under a channel map

The session after the response has been handled: the video stream with its handlers, the encoders
that were started, and the instructions that wait. `originated` has what the daemon sends of its
own accord, with the family it is meant for.
-/
namespace Aabox.ChannelMap
open Aabox.Lib Aabox.Messages Aabox.Audio Aabox.Video Aabox.HandleFrame Aabox.Dispatch Aabox.Nav
open Aabox.VideoStart (Stream StreamEvent slot? startsVideo)

structure Daemon (F : Type) where
  stream : Stream F
  encoders : List ChannelId
  nav_rx : List NavInstruction
  originated : List (Family × OutboundMessage)

/-- An encoder that was told to stop may still have sent a frame before it saw that. -/
inductive Event
  | stream (e : StreamEvent)
  | nav
  | audio (i : Nat) (frame : AudioFrame)

variable {F : Type}

def opening (prost : Prost) (map : ServiceMap) : List (Family × OutboundMessage) :=
  map.channels.flatMap fun ch => (familyOf (classifyChannel prost ch)).toList.flatMap fun f =>
    (openMessages prost ch).map (f, ·)

def start (prost : Prost) (map : ServiceMap) (sensor : Sensor.SensorHandler F)
    (instrs : List NavInstruction) : Daemon F :=
  { stream := VideoStart.init sensor .new, encoders := [], nav_rx := instrs
    originated := opening prost map }

/-- An encoder is given the id of the channel whose message started it. -/
def spawned (s t : Stream F) : StreamEvent → List ChannelId
  | .message m _ =>
    if s.handlers.audio.encoders < t.handlers.audio.encoders then
      (ChannelId.tryFrom m.channel).toList
    else []
  | _ => []

/-- The frames of the streaming tasks, and the START that answers a focus notification. -/
def originates (s t : Stream F) : StreamEvent → List (Family × OutboundMessage)
  | .task i (.frame _ _) =>
    match (slot? t.video i).map Streamer.pc with
    | some (.sending out) => [(.video, out)]
    | _ => []
  | .reply =>
    if s.current.any fun m => m.msg_id = 0x8008 then s.outs.head?.toList.map (.video, ·) else []
  | _ => []

def next (prost : Prost) (fl : Sensor.Floats F) (d : Daemon F) : Event → Option (Daemon F)
  | .stream e => (VideoStart.next prost fl d.stream e).map fun stream =>
    { d with
      stream
      encoders := d.encoders ++ spawned d.stream stream e
      originated := d.originated ++ originates d.stream stream e }
  | .nav =>
    match d.nav_rx with
    | instr :: nav_rx =>
      some { d with
        nav_rx, originated := d.originated ++ (encodeInstruction instr).map (.navigation, ·) }
    | [] => none
  | .audio i frame => d.encoders[i]?.map fun cid =>
    { d with originated := d.originated ++ [(.audioSink, encodeOutboundFrame cid frame)] }

def streamEvents (es : List Event) : List StreamEvent :=
  es.filterMap fun
    | .stream e => some e
    | _ => none

/-- The messages of a run, with the number of replies sent for each. -/
def inputs (es : List Event) : List (Message × Nat) := VideoStart.inputs (streamEvents es)

/-- Service messages are handled by the family that their channel was assigned, and what the daemon
originates goes to channels that were assigned its family. -/
structure Follows (prost : Prost) (map : ServiceMap) (es : List Event) (d : Daemon F) : Prop where
  routed : ∀ x ∈ inputs es, IsService x.1 → ∀ f, map.Assigns prost x.1.channel f →
    (target x.1).family = some f
  addressed : ∀ x ∈ d.originated, map.Assigns prost x.2.channel x.1

/-- A START_INDICATION on the canonical media channel, which is all that starts an encoder. -/
def startsAudio (prost : Prost) (m : Message) : Bool :=
  m.msg_id = MSG_START_INDICATION ∧ ChannelId.tryFrom m.channel = some .mediaAudio ∧
    (prost.avChannelStartIndication m.body).isSome

/-- The map has the canonical numbering wherever the messages and the instructions depend on it. -/
structure Fits (prost : Prost) (map : ServiceMap) (instrs : List NavInstruction)
    (ms : List (Message × Nat)) : Prop where
  service : ∀ x ∈ ms, IsService x.1 → ∀ f, map.Assigns prost x.1.channel f → Agrees f x.1
  focus : ∀ x ∈ ms, x.1.msg_id = 0x8008 → map.Assigns prost x.1.channel .video
  video : ∀ pre x post, ms = pre ++ x :: post → startsVideo prost x.1 → x.1.msg_id ≠ 0x8008 →
    ∃ y ∈ pre, y.1.msg_id = 0x8008
  audio : ∀ x ∈ ms, startsAudio prost x.1 →
    map.Assigns prost ChannelId.mediaAudio.toU8 .audioSink
  navigation : instrs ≠ [] → map.Assigns prost ChannelId.navigation.toU8 .navigation

variable {prost : Prost} {fl : Sensor.Floats F} {map : ServiceMap} {instrs : List NavInstruction}
  {P : UInt8 → Prop} {s t : Stream F} {d d' : Daemon F} {m : Message} {e : StreamEvent}
  {seen ms : List (Message × Nat)}

/-- What is left of the accesses that the current message makes; `P` is for the video channels. -/
inductive Pending (P : UInt8 → Prop) (wire : UInt8) : List PipelineOp → Prop
  | focus {c : UInt8} : P c → Pending P wire [.setWireChannel c, .start 1 0]
  | start {session : Int} {config : UInt32} : P wire → Pending P wire [.start session config]
  | other {ops : List PipelineOp} : (∀ op ∈ ops, op = .stop ∨ op = .mediaAck) → Pending P wire ops

/-- The wire channel is a video channel from the first focus notification and for every task. -/
structure Wired (P : UInt8 → Prop) (seen : List (Message × Nat)) (s : Stream F) : Prop where
  pending : Pending P s.video.wire_channel s.todo
  wire : s.video.streamers ≠ [] → P s.video.wire_channel
  seen : (∃ y ∈ seen, y.1.msg_id = 0x8008) →
    P s.video.wire_channel ∨ ∃ c, P c ∧ s.todo = [.setWireChannel c, .start 1 0]
  outs : ∀ m, s.current = some m → m.msg_id = 0x8008 → ∀ out ∈ s.outs, P out.channel

theorem wired_init (sensor : Sensor.SensorHandler F) (audio : AudioChannelManager) :
    Wired P [] (VideoStart.init sensor audio) where
  pending := .other fun op hop => by cases hop
  wire h := (h rfl).elim
  seen := by
    rintro ⟨y, hy, -⟩
    cases hy
  outs m h := by cases h

/-- Once a focus notification has had its channel set, the wire channel is a video channel. -/
theorem Wired.of_seen (h : Wired P seen s)
    (hset : ∀ c, s.todo ≠ [.setWireChannel c, .start 1 0]) (hy : ∃ y ∈ seen, y.1.msg_id = 0x8008) :
    P s.video.wire_channel := by
  rcases h.seen hy with hwire | ⟨c, -, hc⟩
  · exact hwire
  · exact (hset c hc).elim

theorem Wired.of_slot {i : Nat} {st : Streamer} (h : Wired P seen s)
    (hi : slot? s.video i = some st) : P s.video.wire_channel := by
  refine h.wire ?_
  intro hnil
  simp [slot?, hnil] at hi

theorem wired_message {sends : Nat} (h : Wired P seen s) (hfocus : m.msg_id = 0x8008 → P m.channel)
    (hvideo : startsVideo prost m → m.msg_id ≠ 0x8008 → ∃ y ∈ seen, y.1.msg_id = 0x8008)
    (hstep : VideoStart.next prost fl s (.message m sends) = some t) :
    Wired P (seen ++ [(m, sends)]) t := by
  simp only [VideoStart.next, Option.ite_none_right_eq_some, Option.some.injEq] at hstep
  obtain ⟨⟨htodo, houts⟩, rfl⟩ := hstep
  have hseen : (∃ y ∈ seen, y.1.msg_id = 0x8008) → P s.video.wire_channel :=
    h.of_seen fun c hc => by simp [htodo] at hc
  refine ⟨?_, h.wire, ?_, ?_⟩
  · change Pending P s.video.wire_channel (videoOps prost s.video.wire_channel m)
    by_cases hstart : startsVideo prost m
    · by_cases hid : m.msg_id = 0x8008
      · rw [VideoStart.videoOps_focus _ hid]
        exact .focus (hfocus hid)
      · obtain ⟨-, session, config, hops⟩ :=
          VideoStart.videoOps_start s.video.wire_channel hstart hid
        rw [hops]
        exact .start (hseen (hvideo hstart hid))
    · exact .other (VideoStart.videoOps_other _ hstart)
  · rintro ⟨y, hy, hid⟩
    rcases List.mem_append.mp hy with hy | hy
    · exact .inl (hseen ⟨y, hy, hid⟩)
    · obtain rfl := List.mem_singleton.mp hy
      exact .inr ⟨m.channel, hfocus hid, VideoStart.videoOps_focus _ hid⟩
  · rintro m' ⟨⟩ hid out hout
    have hout := List.mem_of_mem_take hout
    rw [VideoStart.focus_replies _ hid] at hout
    split at hout
    · obtain rfl := List.mem_singleton.mp hout
      exact hfocus hid
    · cases hout

theorem wired_op (h : Wired P seen s) (hstep : VideoStart.next prost fl s .op = some t) :
    Wired P seen t := by
  have hpending := h.pending
  simp only [VideoStart.next] at hstep
  split at hstep
  · rename_i op todo htodo
    cases hstep
    rw [htodo] at hpending
    cases hpending with
    | focus hc =>
      exact ⟨.start hc, fun _ => hc, fun _ => .inl hc, h.outs⟩
    | start hwire =>
      exact ⟨.other (by simp), fun _ => hwire, fun _ => .inl hwire, h.outs⟩
    | other hops =>
      obtain ⟨hop, hrest⟩ := List.forall_mem_cons.mp hops
      have hset : ∀ c, s.todo ≠ [.setWireChannel c, .start 1 0] := by
        intro c hc
        obtain ⟨rfl, -⟩ := List.cons.inj (htodo.symm.trans hc)
        rcases hop with hop | hop <;> cases hop
      rcases hop with rfl | rfl
      · exact ⟨.other hrest, h.wire, fun hy => .inl (h.of_seen hset hy), h.outs⟩
      · exact ⟨.other hrest, h.wire, fun hy => .inl (h.of_seen hset hy), h.outs⟩
  · cases hstep

theorem wired_reply (h : Wired P seen s) (hstep : VideoStart.next prost fl s .reply = some t) :
    Wired P seen t := by
  simp only [VideoStart.next] at hstep
  split at hstep
  · rename_i out outs _ houts
    cases hstep
    refine ⟨h.pending, h.wire, h.seen, ?_⟩
    intro m hcur hid out' hout'
    exact h.outs m hcur hid out' (houts ▸ List.mem_cons_of_mem _ hout')
  · cases hstep

theorem wired_task {i : Nat} {ev : StreamerEvent} (h : Wired P seen s)
    (hstep : VideoStart.next prost fl s (.task i ev) = some t) : Wired P seen t := by
  simp only [VideoStart.next] at hstep
  split at hstep
  · rename_i st hi
    obtain ⟨p, hp, rfl⟩ := Option.map_eq_some_iff.mp hstep
    obtain ⟨hwire, -, -⟩ := VideoStart.stepStreamer_stamp hp
    have hassigned : P p.wire_channel := hwire ▸ h.of_slot hi
    refine ⟨?_, fun _ => hassigned, fun _ => .inl hassigned, h.outs⟩
    change Pending P p.wire_channel s.todo
    exact hwire ▸ h.pending
  · cases hstep

theorem wired_transmit {sent : Bool} (h : Wired P seen s)
    (hstep : VideoStart.next prost fl s (.transmit sent) = some t) : Wired P seen t := by
  simp only [VideoStart.next] at hstep
  split at hstep
  · cases hstep
    exact ⟨h.pending, h.wire, h.seen, h.outs⟩
  · cases hstep

/-- What a step of the stream originates goes to a video channel. -/
theorem originates_wired (h : Wired P seen s) (hstep : VideoStart.next prost fl s e = some t)
    {x : Family × OutboundMessage} (hx : x ∈ originates s t e) : x.1 = .video ∧ P x.2.channel := by
  cases e with
  | task i ev =>
    cases ev with
    | frame pts_us annex_b =>
      simp only [VideoStart.next] at hstep
      split at hstep
      · rename_i st hi
        obtain ⟨p, hp, rfl⟩ := Option.map_eq_some_iff.mp hstep
        obtain ⟨-, ⟨st', hst', hstamp⟩, -⟩ := VideoStart.stepStreamer_stamp hp
        have hlt : i < s.video.streamers.length :=
          (List.getElem?_eq_some_iff.mp (Option.join_eq_some_iff.mp hi)).1
        have hslot : slot? p i = st' := by simp [slot?, hst', hlt]
        simp only [originates] at hx
        split at hx
        · rename_i out hpc
          obtain rfl := List.mem_singleton.mp hx
          obtain ⟨a, ha, hsending⟩ := Option.map_eq_some_iff.mp hpc
          exact ⟨rfl, hstamp a out (hslot ▸ ha) hsending ▸ h.of_slot hi⟩
        · cases hx
      · cases hstep
    | _ => cases hx
  | reply =>
    simp only [originates] at hx
    split at hx
    · rename_i hcur
      obtain ⟨m, hm, hid⟩ := (Option.any_eq_true ..).mp hcur
      obtain ⟨out, hout, rfl⟩ := List.mem_map.mp hx
      have hout := List.mem_of_mem_head? (Option.mem_toList.mp hout)
      exact ⟨rfl, h.outs m hm (of_decide_eq_true hid) out hout⟩
    · cases hx
  | message m sends => cases hx
  | op => cases hx
  | transmit sent => cases hx

variable (prost fl m) in
/-- Only a START on the canonical media channel reaches the encoders. -/
theorem route_keeps {h : Handlers F} (hdir : h.audio.Directed) :
    Keeps (if startsAudio prost m then 1 else 0) h.audio (route prost fl h m).2.audio := by
  rw [route_target]
  by_cases haudio : target m = .audio ∨ target m = .microphone
  · have hrun : ((target m).run prost fl
          { h with video := intercept h.video m.channel m.msg_id } m).2.audio =
        (h.audio.handle prost m.channel m.msg_id m.body).2 := by
      rcases haudio with ht | ht <;> rw [ht] <;> rfl
    rw [hrun]
    simpa only [startsAudio, decide_eq_true_eq] using handle_keeps hdir
  · have hnot : ¬ startsAudio prost m := by
      intro hstart
      obtain ⟨hid, hchan, -⟩ := of_decide_eq_true hstart
      have hcross : isCrossChannelControl MSG_START_INDICATION = false := by decide
      refine haudio (.inl ?_)
      simp only [target, hid, hcross, hchan]
      rfl
    rw [if_neg hnot]
    cases ht : target m with
    | audio => exact (haudio (.inl ht)).elim
    | microphone => exact (haudio (.inr ht)).elim
    | _ => exact ⟨hdir, rfl⟩

/-- The manager after a step of the stream. -/
theorem step_keeps (hdir : s.handlers.audio.Directed)
    (hstep : VideoStart.next prost fl s e = some t) :
    t.handlers.audio.Directed ∧ ∀ cid ∈ spawned s t e,
      cid = .mediaAudio ∧ ∃ m sends, e = .message m sends ∧ startsAudio prost m := by
  cases e with
  | message m sends =>
    simp only [VideoStart.next, Option.ite_none_right_eq_some, Option.some.injEq] at hstep
    obtain ⟨-, rfl⟩ := hstep
    obtain ⟨hdir', hcount⟩ := route_keeps prost fl m hdir
    refine ⟨hdir', ?_⟩
    intro cid hcid
    simp only [spawned, hcount] at hcid
    by_cases hstart : startsAudio prost m
    · obtain ⟨-, hchan, -⟩ := of_decide_eq_true hstart
      rw [if_pos hstart, if_pos (Nat.lt_succ_self _), hchan] at hcid
      exact ⟨List.mem_singleton.mp hcid, m, sends, rfl, hstart⟩
    · rw [if_neg hstart, Nat.add_zero, if_neg (Nat.lt_irrefl _)] at hcid
      cases hcid
  | op | reply | transmit sent =>
    simp only [VideoStart.next] at hstep
    split at hstep <;> cases hstep
    exact ⟨hdir, by simp [spawned]⟩
  | task i ev =>
    simp only [VideoStart.next] at hstep
    split at hstep
    · obtain ⟨p, -, rfl⟩ := Option.map_eq_some_iff.mp hstep
      exact ⟨hdir, by simp [spawned]⟩
    · cases hstep

/-- After the messages `seen` all that the session depends on is as the map has it. -/
structure Inv (prost : Prost) (map : ServiceMap) (seen : List (Message × Nat)) (d : Daemon F) :
    Prop where
  wired : Wired (map.Assigns prost · .video) seen d.stream
  directed : d.stream.handlers.audio.Directed
  encoders : ∀ cid ∈ d.encoders, map.Assigns prost (ChannelId.toU8 cid) .audioSink
  nav_rx : d.nav_rx ≠ [] → map.Assigns prost ChannelId.navigation.toU8 .navigation
  originated : ∀ x ∈ d.originated, map.Assigns prost x.2.channel x.1

/-- The answer to the response has what is sent to open its channels. -/
theorem opening_replied {body : Bytes}
    (hbody : prost.serviceDiscoveryResponse body = some ⟨map.channels⟩) :
    ∃ outs, dispatchControl prost ControlMessageId.serviceDiscoveryResponse.toU16 body = .ok outs ∧
      ∀ x ∈ opening prost map, x.2 ∈ outs := by
  refine ⟨_, by simp only [dispatchControl, ControlMessageId.tryFrom_toU16, hbody]; rfl, ?_⟩
  intro x hx
  obtain ⟨ch, hch, hx⟩ := List.mem_flatMap.mp hx
  obtain ⟨f, -, hx⟩ := List.mem_flatMap.mp hx
  obtain ⟨out, hout, rfl⟩ := List.mem_map.mp hx
  exact List.mem_cons_of_mem _ (List.mem_cons_of_mem _ (List.mem_flatMap.mpr ⟨ch, hch, hout⟩))

theorem opening_assigned {x : Family × OutboundMessage} (hx : x ∈ opening prost map) :
    map.Assigns prost x.2.channel x.1 := by
  obtain ⟨ch, hch, hx⟩ := List.mem_flatMap.mp hx
  obtain ⟨f, hf, hx⟩ := List.mem_flatMap.mp hx
  obtain ⟨out, hout, rfl⟩ := List.mem_map.mp hx
  exact ⟨ch, hch, (openMessages_channel hout).symm, Option.mem_toList.mp hf⟩

theorem inv_start (sensor : Sensor.SensorHandler F) (hfits : Fits prost map instrs ms) :
    Inv prost map [] (start prost map sensor instrs) where
  wired := wired_init sensor .new
  directed := directed_new
  encoders cid hcid := by cases hcid
  nav_rx := hfits.navigation
  originated _ hx := opening_assigned hx

theorem inv_stream (hfits : Fits prost map instrs ms) (h : Inv prost map seen d)
    (hseen : seen ++ inputs [.stream e] <+: ms) (hstep : next prost fl d (.stream e) = some d') :
    Inv prost map (seen ++ inputs [.stream e]) d' := by
  obtain ⟨stream, hstream, rfl⟩ := Option.map_eq_some_iff.mp hstep
  obtain ⟨hdirected, hspawned⟩ := step_keeps h.directed hstream
  refine ⟨?_, hdirected, ?_, h.nav_rx, ?_⟩
  · cases e with
    | message m sends =>
      obtain ⟨post, hpost⟩ := hseen
      have hms : ms = seen ++ (m, sends) :: post := by
        rw [← hpost, List.append_assoc]
        rfl
      have hmem : (m, sends) ∈ ms := hms ▸ List.mem_append_right _ (List.mem_cons_self ..)
      exact wired_message h.wired (hfits.focus _ hmem) (hfits.video _ _ _ hms) hstream
    | op => simpa [inputs, streamEvents, VideoStart.inputs] using wired_op h.wired hstream
    | reply => simpa [inputs, streamEvents, VideoStart.inputs] using wired_reply h.wired hstream
    | task i ev => simpa [inputs, streamEvents, VideoStart.inputs] using wired_task h.wired hstream
    | transmit sent =>
      simpa [inputs, streamEvents, VideoStart.inputs] using wired_transmit h.wired hstream
  · intro cid hcid
    rcases List.mem_append.mp hcid with hcid | hcid
    · exact h.encoders cid hcid
    · obtain ⟨rfl, m, sends, rfl, hstart⟩ := hspawned cid hcid
      exact hfits.audio (m, sends) (hseen.subset (by simp [inputs, streamEvents, VideoStart.inputs]))
        hstart
  · intro x hx
    rcases List.mem_append.mp hx with hx | hx
    · exact h.originated x hx
    · obtain ⟨hfamily, hassigned⟩ := originates_wired h.wired hstream hx
      rw [hfamily]
      exact hassigned

theorem encodeInstruction_channel {instr : NavInstruction} {out : OutboundMessage}
    (hout : out ∈ encodeInstruction instr) : out.channel = ChannelId.navigation.toU8 := by
  simp only [encodeInstruction, List.mem_cons, List.not_mem_nil, or_false] at hout
  rcases hout with rfl | rfl | rfl <;> rfl

theorem inv_step (hfits : Fits prost map instrs ms) (h : Inv prost map seen d) {ev : Event}
    (hseen : seen ++ inputs [ev] <+: ms) (hstep : Steps (next prost fl) d ev d') :
    Inv prost map (seen ++ inputs [ev]) d' := by
  cases ev with
  | stream e => exact inv_stream hfits h hseen hstep
  | nav =>
    rw [show inputs [.nav] = [] from rfl, List.append_nil]
    simp only [Steps, next] at hstep
    split at hstep
    · rename_i instr nav_rx hnav
      cases hstep
      have hassigned := h.nav_rx (by simp [hnav])
      refine ⟨h.wired, h.directed, h.encoders, fun _ => hassigned, ?_⟩
      intro x hx
      rcases List.mem_append.mp hx with hx | hx
      · exact h.originated x hx
      · obtain ⟨out, hout, rfl⟩ := List.mem_map.mp hx
        rw [encodeInstruction_channel hout]
        exact hassigned
    · cases hstep
  | audio i frame =>
    rw [show inputs [.audio i frame] = [] from rfl, List.append_nil]
    obtain ⟨cid, hcid, rfl⟩ := Option.map_eq_some_iff.mp hstep
    refine ⟨h.wired, h.directed, h.encoders, h.nav_rx, ?_⟩
    intro x hx
    rcases List.mem_append.mp hx with hx | hx
    · exact h.originated x hx
    · obtain rfl := List.mem_singleton.mp hx
      exact h.encoders cid (List.mem_of_getElem? hcid)

theorem inputs_cons (ev : Event) (evs : List Event) :
    inputs (ev :: evs) = inputs [ev] ++ inputs evs := by
  cases ev with
  | stream e => exact VideoStart.inputs_append [e] (streamEvents evs)
  | nav => rfl
  | audio i frame => rfl

theorem inv_run (hfits : Fits prost map instrs ms) {evs : List Event}
    (hrun : Run (Steps (next prost fl)) d evs d') (h : Inv prost map seen d)
    (hseen : seen ++ inputs evs <+: ms) : Inv prost map (seen ++ inputs evs) d' := by
  induction hrun generalizing seen with
  | refl => simpa [inputs, streamEvents, VideoStart.inputs] using h
  | stepL hstep _ ih =>
    rw [inputs_cons, ← List.append_assoc] at hseen ⊢
    exact ih (inv_step hfits h ((List.prefix_append ..).trans hseen) hstep) hseen

theorem follows_run {sensor : Sensor.SensorHandler F} (hfits : Fits prost map instrs ms)
    {evs : List Event} (hrun : Run (Steps (next prost fl)) (start prost map sensor instrs) evs d)
    (hms : inputs evs <+: ms) : Follows prost map evs d where
  routed x hx hservice f hassigned :=
    (target_family_iff hservice).mpr (hfits.service x (hms.subset hx) hservice f hassigned)
  addressed := (inv_run hfits hrun (inv_start sensor hfits) hms).originated

/-- A run of the stream is a run of the daemon. -/
theorem stream_run {es : List StreamEvent} (hrun : Run (Steps (VideoStart.next prost fl)) s es t)
    (hd : d.stream = s) :
    ∃ d', Run (Steps (next prost fl)) d (es.map .stream) d' ∧ d'.stream = t := by
  induction hrun generalizing d with
  | refl => exact ⟨d, .refl, hd⟩
  | @stepL s u t e es hstep _ ih =>
    subst hd
    have hnext : next prost fl d (.stream e) = some
        { d with
          stream := u
          encoders := d.encoders ++ spawned d.stream u e
          originated := d.originated ++ originates d.stream u e } := by
      simp only [next, show VideoStart.next prost fl d.stream e = some u from hstep, Option.map_some]
    obtain ⟨d', hrun', hd'⟩ := ih (d := { d with
      stream := u
      encoders := d.encoders ++ spawned d.stream u e
      originated := d.originated ++ originates d.stream u e }) rfl
    exact ⟨d', .stepL hnext hrun', hd'⟩

theorem inputs_append (xs ys : List Event) : inputs (xs ++ ys) = inputs xs ++ inputs ys := by
  rw [inputs, streamEvents, List.filterMap_append]
  exact VideoStart.inputs_append _ _

theorem inputs_stream (es : List StreamEvent) : inputs (es.map .stream) = VideoStart.inputs es := by
  simp [inputs, streamEvents, List.filterMap_map]

section
variable {sensor : Sensor.SensorHandler F}
  (hall : ∀ evs d, Run (Steps (next prost fl)) (start prost map sensor instrs) evs d →
    inputs evs <+: ms → Follows prost map evs d)
include hall

/-- What can be originated after some of the messages is addressed as the map has it. -/
theorem originated_assigned {es : List StreamEvent} {more : List (Message × Nat)}
    {x : Family × OutboundMessage}
    (hrun : Run (Steps (VideoStart.next prost fl)) (VideoStart.init sensor .new) es s)
    (hms : VideoStart.inputs es ++ more <+: ms)
    (hmore : ∀ d : Daemon F, d.stream = s → ∃ evs d',
      Run (Steps (next prost fl)) d evs d' ∧ inputs evs = more ∧ x ∈ d'.originated) :
    map.Assigns prost x.2.channel x.1 := by
  obtain ⟨d, hrun, hd⟩ := stream_run (d := start prost map sensor instrs) hrun rfl
  obtain ⟨evs, d', hrun', hin, hx⟩ := hmore d hd
  refine (hall _ d' (hrun.trans hrun') ?_).addressed x hx
  rwa [inputs_append, inputs_stream, hin]

theorem service_agrees {y : Message × Nat} {f : Family} (hy : y ∈ ms) (hservice : IsService y.1)
    (hassigned : map.Assigns prost y.1.channel f) : Agrees f y.1 := by
  obtain ⟨es, s, hrun, hin, -⟩ :=
    VideoStart.handle_all prost fl (VideoStart.quiet_init sensor .new) ms
  obtain ⟨d, hrun, -⟩ := stream_run (d := start prost map sensor instrs) hrun rfl
  have hinputs : inputs (es.map .stream) = ms := (inputs_stream es).trans hin
  have hfollows := hall _ d hrun (hinputs ▸ List.prefix_refl ms)
  exact (target_family_iff hservice).mp (hfollows.routed y (hinputs ▸ hy) hservice f hassigned)

/-- A task that is about to stamp a frame has a video channel to stamp it with. -/
theorem stamped_assigned {es : List StreamEvent} {i : Nat} {st : Streamer}
    (hrun : Run (Steps (VideoStart.next prost fl)) (VideoStart.init sensor .new) es s)
    (hms : VideoStart.inputs es <+: ms) (hi : slot? s.video i = some st) (hpc : st.pc = .fetching) :
    map.Assigns prost s.video.wire_channel .video := by
  obtain ⟨out, hout, hframe⟩ := VideoStart.stamps prost fl hi hpc
  have hmore : ∀ d : Daemon F, d.stream = s → ∃ evs d',
      Run (Steps (next prost fl)) d evs d' ∧ inputs evs = [] ∧
        (Family.video, out) ∈ d'.originated := by
    rintro d rfl
    let sending : Streamer := { st with pc := .sending out }
    have hslot : slot? (d.stream.setVideo (d.stream.video.setStreamer i (some sending))).video i =
        some sending := VideoStart.slot?_setStreamer hi
    refine ⟨[.stream (.task i (.frame 0 []))], _,
      .stepL (by simp only [Steps, next, hframe, Option.map_some]; rfl) .refl, rfl, ?_⟩
    refine List.mem_append_right _ ?_
    simp only [originates]
    rw [hslot]
    exact List.mem_singleton.mpr rfl
  rw [← hout]
  exact originated_assigned hall hrun ((List.append_nil _).symm ▸ hms) hmore

theorem focus_assigned {y : Message × Nat} (hy : y ∈ ms) (hid : y.1.msg_id = 0x8008) :
    map.Assigns prost y.1.channel .video := by
  obtain ⟨pre, post, hms⟩ := List.append_of_mem hy
  have hstart : startsVideo prost y.1 := by simp [startsVideo, hid]
  obtain ⟨es, s, k, i, st, hrun, hin, -, hslot, hpc, -, -, hwire, -⟩ :=
    VideoStart.starts prost fl sensor .new pre hstart y.2
  rw [← hwire hid]
  refine stamped_assigned hall hrun ?_ hslot hpc
  rw [hin, hms]
  exact ⟨post, by simp⟩

theorem video_preceded {y : Message × Nat} {pre post : List (Message × Nat)}
    (hms : ms = pre ++ y :: post) (hstart : startsVideo prost y.1) (hid : y.1.msg_id ≠ 0x8008) :
    ∃ z ∈ pre, z.1.msg_id = 0x8008 := by
  obtain ⟨es, s, k, i, st, hrun, hin, -, hslot, hpc, -, -, -, hwire⟩ :=
    VideoStart.starts prost fl sensor .new pre hstart y.2
  have hassigned := stamped_assigned hall hrun
    (by rw [hin, hms]; exact ⟨post, by simp⟩) hslot hpc
  rcases hwire hid with hnone | ⟨z, hz, hzid, -⟩
  · rw [hnone] at hassigned
    obtain ⟨ch, hch, hbyte, -⟩ := hassigned
    have hrange := map.range ch hch
    have hbyte := congrArg UInt8.toNat hbyte
    simp only [UInt32.toNat_toUInt8] at hbyte
    have hnone : UInt8.toNat 255 = 255 := rfl
    omega
  · exact ⟨z, hz, hzid⟩

theorem audio_assigned {y : Message × Nat} (hy : y ∈ ms) (hstart : startsAudio prost y.1) :
    map.Assigns prost ChannelId.mediaAudio.toU8 .audioSink := by
  obtain ⟨pre, post, hms⟩ := List.append_of_mem hy
  obtain ⟨es, s, hrun, hin, hquiet, -⟩ :=
    VideoStart.handle_all prost fl (VideoStart.quiet_init sensor .new) pre
  have hdirected : s.handlers.audio.Directed :=
    hrun.invariant (I := fun s => s.handlers.audio.Directed)
      (fun _ _ _ hdir hstep => (step_keeps hdir hstep).1) directed_new
  obtain ⟨hid, hchan, -⟩ := of_decide_eq_true hstart
  obtain ⟨-, hcount⟩ := route_keeps prost fl y.1 hdirected
  rw [if_pos hstart] at hcount
  have hmore : ∀ d : Daemon F, d.stream = s → ∃ evs d',
      Run (Steps (next prost fl)) d evs d' ∧ inputs evs = [y] ∧
        (Family.audioSink, encodeOutboundFrame .mediaAudio ⟨0, []⟩) ∈ d'.originated := by
    rintro d rfl
    obtain ⟨t, ht, haudio⟩ : ∃ t, VideoStart.next prost fl d.stream (.message y.1 y.2) = some t ∧
        t.handlers.audio = (route prost fl d.stream.handlers y.1).2.audio := by
      simp only [VideoStart.next, hquiet.todo, hquiet.outs, and_self, if_true]
      exact ⟨_, rfl, rfl⟩
    have hspawned : spawned d.stream t (.message y.1 y.2) = [.mediaAudio] := by
      simp only [spawned, haudio, hcount, Nat.lt_succ_self, if_true, hchan]
      rfl
    let u : Daemon F := { d with
      stream := t
      encoders := d.encoders ++ [.mediaAudio]
      originated := d.originated ++ originates d.stream t (.message y.1 y.2) }
    have hmessage : next prost fl d (.stream (.message y.1 y.2)) = some u := by
      simp only [next, ht, Option.map_some, hspawned, u]
    have haudio : next prost fl u (.audio d.encoders.length ⟨0, []⟩) = some { u with
        originated := u.originated ++ [(.audioSink, encodeOutboundFrame .mediaAudio ⟨0, []⟩)] } := by
      simp [next, u]
    exact ⟨_, _, .stepL hmessage (.stepL haudio .refl), rfl,
      List.mem_append_right _ (List.mem_singleton.mpr rfl)⟩
  refine originated_assigned hall hrun ?_ hmore
  rw [hin, hms]
  exact ⟨post, by simp⟩

theorem navigation_assigned (hne : instrs ≠ []) :
    map.Assigns prost ChannelId.navigation.toU8 .navigation := by
  obtain ⟨instr, rest, rfl⟩ := List.exists_cons_of_ne_nil hne
  have hnav : next prost fl (start prost map sensor (instr :: rest)) .nav = some
      { start prost map sensor (instr :: rest) with
        nav_rx := rest
        originated := opening prost map ++ (encodeInstruction instr).map (.navigation, ·) } := rfl
  have hfollows := hall [.nav] _ (.stepL hnav .refl) (List.nil_prefix)
  obtain ⟨out, hout⟩ := List.exists_mem_of_ne_nil (encodeInstruction instr)
    (by simp [encodeInstruction])
  rw [← encodeInstruction_channel hout]
  exact hfollows.addressed (.navigation, out)
    (List.mem_append_right _ (List.mem_map_of_mem hout))

end

/-- Every run of the session follows the map exactly if the map has the canonical numbering wherever
the messages and the instructions depend on it. -/
theorem follows_iff (prost : Prost) (fl : Sensor.Floats F) (map : ServiceMap)
    (sensor : Sensor.SensorHandler F) (instrs : List NavInstruction)
    (ms : List (Message × Nat)) :
    (∀ evs d, Run (Steps (next prost fl)) (start prost map sensor instrs) evs d →
      inputs evs <+: ms → Follows prost map evs d) ↔ Fits prost map instrs ms := by
  constructor
  · intro hall
    exact
      { service := fun _ hy hservice _ hassigned => service_agrees hall hy hservice hassigned
        focus := fun _ hy hid => focus_assigned hall hy hid
        video := fun _ _ _ hms hstart hid => video_preceded hall hms hstart hid
        audio := fun _ hy hstart => audio_assigned hall hy hstart
        navigation := navigation_assigned hall }
  · intro hfits evs d hrun hms
    exact follows_run hfits hrun hms

/-- A head unit with its video on channel 1, which is canonically the input channel. -/
def videoOnOne : ServiceMap where
  channels := [⟨1, false, some ⟨3, 0, 1⟩, false, false, false, false, false⟩]
  range := by decide
  distinct := by decide

/-- The setup request for the video goes to the input handler. -/
theorem setup_on_input :
    ¬ ∀ (prost : Prost) (fl : Sensor.Floats Unit) (map : ServiceMap)
      (sensor : Sensor.SensorHandler Unit) (instrs : List NavInstruction) (evs : List Event)
      (d : Daemon Unit), Run (Steps (next prost fl)) (start prost map sensor instrs) evs d →
        Follows prost map evs d := by
  intro h
  have hall := h emptyBodies ⟨fun _ _ => (), fun _ _ => ""⟩ videoOnOne
    ⟨none, true, [], fun _ => ⟨true, true⟩, []⟩ []
  let setup : Message × Nat := (⟨1, 0x8000, [0x08, 0x03]⟩, 1)
  have hmem : setup ∈ [setup] := List.mem_singleton.mpr rfl
  have hservice : IsService setup.1 := rfl
  have hagrees : Agrees .video setup.1 := service_agrees (fun evs d hrun _ => hall evs d hrun)
    hmem hservice (by decide)
  have htarget := (target_family_iff hservice).mpr hagrees
  exact absurd htarget (by decide)

end Aabox.ChannelMap
