import Aabox.HandleFrame
import Aabox.Lib.Run

/-!
# Starting the video stream

`handle_frame` makes its accesses to the pipeline one by one and then sends its replies, with the
streaming tasks running in between; the loop sends queued frames only between two messages.
`starters` has, for every task spawned, the number of the message that started it and the message.
-/
namespace Aabox.VideoStart
open Aabox.Lib Aabox.Messages Aabox.Audio Aabox.Video Aabox.HandleFrame

/-- What is sent: a reply to message number `k`, or a frame of task `i`. -/
inductive Sent
  | reply (k : Nat) (out : OutboundMessage)
  | data (i : Nat) (out : OutboundMessage)
  deriving DecidableEq, Repr

/-- `todo` and `outs` are what `handle_frame` has still to do for the message `current`; `owners`
are the tasks whose frames are queued. -/
structure Stream (F : Type) where
  handlers : Handlers F
  handled : Nat
  current : Option Message
  todo : List PipelineOp
  outs : List OutboundMessage
  starters : List (Nat × Message)
  owners : List Nat
  log : List Sent

/-- `sends` replies go out before a send fails; the rest are then dropped. -/
inductive StreamEvent
  | message (m : Message) (sends : Nat)
  | op | reply
  | task (i : Nat) (ev : StreamerEvent)
  | transmit (sent : Bool)

variable {F : Type}

def Stream.video (s : Stream F) : VideoPipeline := s.handlers.video

def Stream.setVideo (s : Stream F) (video : VideoPipeline) : Stream F :=
  { s with handlers := { s.handlers with video } }

def init (sensor : Sensor.SensorHandler F) (audio : AudioChannelManager) : Stream F :=
  { handlers := ⟨sensor, audio, .new VIDEO_MAX_UNACKED⟩, handled := 0, current := none, todo := []
    outs := [], starters := [], owners := [], log := [] }

def slot? (p : VideoPipeline) (i : Nat) : Option Streamer := p.streamers[i]?.join

/-- A handler's error sends nothing. -/
def replies : Except HandlerError (List OutboundMessage) → List OutboundMessage
  | .ok outs => outs
  | .error _ => []

def spawns : PipelineOp → Bool
  | .start _ _ => true
  | _ => false

def next (prost : Prost) (fl : Sensor.Floats F) (s : Stream F) : StreamEvent → Option (Stream F)
  | .message m sends =>
    if s.todo = [] ∧ s.outs = [] then
      let (res, handlers) := route prost fl s.handlers m
      some { s with
        handlers := { handlers with video := s.video }
        handled := s.handled + 1
        current := some m
        todo := videoOps prost s.video.wire_channel m
        outs := (replies res).take sends }
    else none
  | .op =>
    match s.todo with
    | op :: todo =>
      let starters :=
        if spawns op then s.starters ++ s.current.toList.map fun m => (s.handled, m)
        else s.starters
      some { s.setVideo (op.apply s.video) with todo, starters }
    | [] => none
  | .reply =>
    match s.todo, s.outs with
    | [], out :: outs => some { s with outs, log := s.log ++ [.reply s.handled out] }
    | _, _ => none
  | .task i ev =>
    match slot? s.video i with
    | some st => (stepStreamer s.video i st ev).map fun video =>
      { s.setVideo video with owners := if ev = .send then s.owners ++ [i] else s.owners }
    | none => none
  | .transmit sent =>
    match s.todo, s.outs, s.video.queue, s.owners with
    | [], [], (_, out) :: queue, i :: owners =>
      let log := if sent then s.log ++ [.data i out] else s.log
      some { s.setVideo { s.video with queue } with owners, log }
    | _, _, _, _ => none

/-- The messages of a run, with the number of replies sent for each. -/
def inputs (es : List StreamEvent) : List (Message × Nat) :=
  es.filterMap fun
    | .message m sends => some (m, sends)
    | _ => none

def Sent.isData (i : Nat) : Sent → Bool
  | .data j _ => j = i
  | .reply _ _ => false

/-- A START_INDICATION on `channel` that answers message number `k`. -/
def Sent.isStart (k : Nat) (channel : UInt8) : Sent → Bool
  | .reply j out => j = k ∧ out.message_id = MSG_START_INDICATION ∧ out.channel = channel
  | .data _ _ => false

/-- What was sent before the first frame of task `i`. -/
def before (i : Nat) (log : List Sent) : List Sent := log.takeWhile fun e => !e.isData i

/-- Every frame made or sent goes to the channel that started its task, and a task started by a
focus notification has had its one START before its first frame. -/
structure Good (s : Stream F) : Prop where
  made : ∀ i st out, slot? s.video i = some st → st.pc = .sending out →
    ∃ x, s.starters[i]? = some x ∧ out.channel = x.2.channel
  sent : ∀ i out, .data i out ∈ s.log → ∃ x, s.starters[i]? = some x ∧ out.channel = x.2.channel
  replied : ∀ i x, s.log.any (·.isData i) → s.starters[i]? = some x → x.2.msg_id = 0x8008 →
    (before i s.log).countP (·.isStart x.1 x.2.channel) = 1

/-- A focus notification on the canonical channels for video and audio is not answered. -/
def answersFocus (channel : UInt8) : Bool :=
  match ChannelId.tryFrom channel with
  | some .video | some .mediaAudio | some .speechAudio | some .systemAudio | some .avInput => false
  | _ => true

/-- The messages that spawn a task. -/
def startsVideo (prost : Prost) (m : Message) : Bool :=
  m.msg_id = 0x8008 ∨ m.msg_id = MSG_START_INDICATION ∧ ChannelId.tryFrom m.channel = some .video ∧
    (prost.avChannelStartIndication m.body).isSome

/-- The message, if it starts the stream, is a focus notification on `channel` that is answered. -/
def Focus (prost : Prost) (channel : UInt8) (x : Message × Nat) : Prop :=
  startsVideo prost x.1 → x.1.msg_id = 0x8008 ∧ x.1.channel = channel ∧ 0 < x.2

/-- All that starts the stream is answered focus notifications on one channel. -/
def OneFocus (prost : Prost) (ms : List (Message × Nat)) : Prop :=
  ∃ channel, answersFocus channel = true ∧ ∀ x ∈ ms, Focus prost channel x

variable {prost : Prost} {fl : Sensor.Floats F} {s t u : Stream F} {m : Message} {c : UInt8}
  {i j k n : Nat} {st : Streamer} {ev : StreamerEvent} {es : List StreamEvent} {log : List Sent}

theorem videoOps_focus (w : UInt8) (h : m.msg_id = 0x8008) :
    videoOps prost w m = [.setWireChannel m.channel, .start 1 0] := by
  have hcross : isCrossChannelControl 0x8008 = false := by decide
  have hops : handleOps prost 0x8008 m.body = [] := rfl
  simp [videoOps, interceptOps, h, hcross, hops]

theorem videoOps_start (w : UInt8) (h : startsVideo prost m) (hne : m.msg_id ≠ 0x8008) :
    m.channel = 3 ∧ ∃ session config, videoOps prost w m = [.start session config] := by
  simp only [startsVideo, hne, false_or, decide_eq_true_eq] at h
  obtain ⟨hid, hchan, hbody⟩ := h
  obtain ⟨ind, hind⟩ := Option.isSome_iff_exists.mp hbody
  have hcross : isCrossChannelControl MSG_START_INDICATION = false := by decide
  have hintercept : interceptOps w m.channel MSG_START_INDICATION = [] := rfl
  refine ⟨(ChannelId.toU8_of_tryFrom hchan).symm, ind.session, ind.config, ?_⟩
  simp [videoOps, hid, hintercept, hcross, hchan, handleOps, hind]

theorem videoOps_other (w : UInt8) (h : ¬ startsVideo prost m) :
    ∀ op ∈ videoOps prost w m, op = .stop ∨ op = .mediaAck := by
  simp only [startsVideo, decide_eq_true_eq, not_or, not_and] at h
  obtain ⟨hfocus, hstart⟩ := h
  intro op hop
  rcases List.mem_append.mp hop with hop | hop
  · unfold interceptOps at hop
    rw [if_neg hfocus] at hop
    split_ifs at hop <;> simp_all
  · split_ifs at hop with _ hchan
    · cases hop
    · unfold handleOps at hop
      split_ifs at hop with hid hid hid
      · have hnone := hstart hid hchan
        rw [Option.not_isSome_iff_eq_none] at hnone
        rw [hnone] at hop
        cases hop
      · exact .inl (List.mem_singleton.mp hop)
      · obtain ⟨_, -, rfl⟩ := List.mem_map.mp hop
        exact .inr rfl
      · cases hop
    · cases hop

/-- The answer to a focus notification, which the two canonical families of channels lack. -/
theorem focus_replies (h : Handlers F) (hm : m.msg_id = 0x8008) :
    replies (route prost fl h m).1 =
      if answersFocus m.channel then [⟨m.channel, MSG_START_INDICATION, [0x08, 0x01, 0x10, 0x00]⟩]
      else [] := by
  have hcross : isCrossChannelControl 0x8008 = false := by decide
  have haudio : ∀ m' : AudioChannelManager, (m'.handle prost m.channel 0x8008 m.body).1 = .ok [] :=
    fun m' => handle_focus m' m.channel m.body
  have hvideo : ∀ p : VideoPipeline, (Video.handle prost m.channel 0x8008 m.body p).1 = .ok [] :=
    fun _ => rfl
  have hpure : ∀ sensor : Sensor.SensorHandler F,
      (Dispatch.dispatch prost fl sensor m.channel 0x8008 m.body).1 =
        .ok [⟨m.channel, 0x8001, [0x08, 0x01, 0x10, 0x00]⟩] := fun _ => rfl
  unfold route answersFocus
  rw [hm, hcross]
  cases hchan : ChannelId.tryFrom m.channel with
  | none => simp [hpure, replies, MSG_START_INDICATION]
  | some cid => cases cid <;> simp [haudio, hvideo, hpure, replies, MSG_START_INDICATION]

/-- A step of a task stamps no frame but with the wire channel, and queues none but the one it has.
-/
theorem stepStreamer_stamp {p p' : VideoPipeline} (h : stepStreamer p i st ev = some p') :
    p'.wire_channel = p.wire_channel ∧
    (∃ st', p'.streamers = p.streamers.set i st' ∧
      ∀ a out, st' = some a → a.pc = .sending out → out.channel = p.wire_channel) ∧
    (ev ≠ .send ∧ p'.queue = p.queue ∨
      ev = .send ∧ ∃ out, st.pc = .sending out ∧ p'.queue = p.queue ++ [(st.my_gen, out)]) := by
  cases stepStreamer_cases h with
  | send hpc => exact ⟨rfl, ⟨_, rfl, by rintro a out' ⟨⟩ ⟨⟩⟩, .inr ⟨rfl, _, hpc, rfl⟩⟩
  | frame =>
    refine ⟨rfl, ⟨_, rfl, ?_⟩, .inl ⟨by simp, rfl⟩⟩
    rintro a out ⟨⟩ ⟨⟩
    rfl
  | _ => exact ⟨rfl, ⟨_, rfl, by rintro a out ⟨⟩ ⟨⟩⟩, .inl ⟨by simp, rfl⟩⟩

/-- The STARTs on `c` that message number `k` has been answered with, or is about to be. -/
def credit (c : UInt8) (s : Stream F) (k : Nat) : Nat :=
  s.log.countP (·.isStart k c) +
    if k = s.handled then
      s.outs.countP fun out => out.message_id = MSG_START_INDICATION ∧ out.channel = c
    else 0

/-- Where the message being handled stands. -/
inductive Todo (c : UInt8) (s : Stream F) : Prop
  | focus {m : Message} : s.current = some m → m.channel = c → credit c s s.handled = 1 →
      s.todo = [.setWireChannel c, .start 1 0] ∨
        s.todo = [.start 1 0] ∧ s.video.wire_channel = c → Todo c s
  | other : (∀ op ∈ s.todo, op = .stop ∨ op = .mediaAck) → Todo c s

structure Inv (c : UInt8) (s : Stream F) : Prop where
  length : s.starters.length = s.video.streamers.length
  started : ∀ x ∈ s.starters, x.2.channel = c ∧ x.1 ≤ s.handled ∧ credit c s x.1 = 1
  wire : s.starters ≠ [] → s.video.wire_channel = c
  todo : Todo c s
  made : ∀ i st out, slot? s.video i = some st → st.pc = .sending out → out.channel = c
  queued : ∀ f ∈ s.video.queue, f.2.channel = c
  owners : ∀ i ∈ s.owners, i < s.starters.length
  sent : ∀ i out, .data i out ∈ s.log → out.channel = c ∧ i < s.starters.length
  numbered : ∀ k out, .reply k out ∈ s.log → k ≤ s.handled
  replied : ∀ i x, s.log.any (·.isData i) → s.starters[i]? = some x →
    (before i s.log).countP (·.isStart x.1 c) = 1

theorem any_isData : log.any (·.isData i) = true ↔ ∃ out, .data i out ∈ log := by
  rw [List.any_eq_true]
  constructor
  · rintro ⟨e, he, hei⟩
    cases e with
    | reply k out => cases hei
    | data j out =>
      obtain rfl : j = i := by simpa [Sent.isData] using hei
      exact ⟨out, he⟩
  · rintro ⟨out, he⟩
    exact ⟨_, he, by simp [Sent.isData]⟩

theorem inv_init (sensor : Sensor.SensorHandler F) (audio : AudioChannelManager) :
    Inv c (init sensor audio) where
  length := rfl
  started x hx := by cases hx
  wire h := (h rfl).elim
  todo := .other fun op hop => by cases hop
  made i st out h := by simp [slot?, init, Stream.video, VideoPipeline.new] at h
  queued f hf := by cases hf
  owners i hi := by cases hi
  sent i out h := by cases h
  numbered k out h := by cases h
  replied i x h := by cases h

theorem good_of_inv (h : Inv c s) : Good s := by
  have hstarter : ∀ {i}, i < s.starters.length → ∃ x, s.starters[i]? = some x ∧ x.2.channel = c := by
    intro i hi
    exact ⟨s.starters[i], List.getElem?_eq_getElem hi, (h.started _ (List.getElem_mem hi)).1⟩
  refine ⟨?_, ?_, ?_⟩
  · intro i st out hi hpc
    have hlt : i < s.video.streamers.length :=
      (List.getElem?_eq_some_iff.mp (Option.join_eq_some_iff.mp hi)).1
    obtain ⟨x, hx, hc⟩ := hstarter (h.length ▸ hlt)
    exact ⟨x, hx, (h.made i st out hi hpc).trans hc.symm⟩
  · intro i out hsent
    obtain ⟨hout, hlt⟩ := h.sent i out hsent
    obtain ⟨x, hx, hc⟩ := hstarter hlt
    exact ⟨x, hx, hout.trans hc.symm⟩
  · intro i x hdata hx _
    rw [(h.started x (List.mem_of_getElem? hx)).1]
    exact h.replied i x hdata hx

/-- What follows the first frame of a task is not before it. -/
theorem before_append (es : List Sent) (h : log.any (·.isData i)) :
    before i (log ++ es) = before i log := by
  induction log with
  | nil => cases h
  | cons e log ih =>
    cases he : e.isData i with
    | true => simp [before, he]
    | false =>
      have hlog : log.any (·.isData i) := by simpa [he] using h
      have ih := ih hlog
      simp only [before] at ih ⊢
      simp [he, ih]

/-- Up to its first frame all that is sent is before it. -/
theorem before_data (out : OutboundMessage) (h : ¬ log.any (·.isData i)) :
    before i (log ++ [.data i out]) = log := by
  have hall : ∀ e ∈ log, (!e.isData i) = true := by simpa using h
  rw [before, List.takeWhile_append_of_pos hall]
  simp [Sent.isData]

theorem countP_isStart_new (h : ∀ k out, .reply k out ∈ log → k ≤ n) :
    log.countP (·.isStart (n + 1) c) = 0 := by
  rw [List.countP_eq_zero]
  intro e he hstart
  cases e with
  | reply k out =>
    have hk := h k out he
    simp only [Sent.isStart, decide_eq_true_eq] at hstart
    omega
  | data j out => cases hstart

theorem inv_message (hc : answersFocus c = true) (h : Inv c s) {sends : Nat}
    (hfocus : Focus prost c (m, sends)) (hstep : next prost fl s (.message m sends) = some t) :
    Inv c t := by
  simp only [next, Option.ite_none_right_eq_some, Option.some.injEq] at hstep
  obtain ⟨⟨htodo, houts⟩, rfl⟩ := hstep
  refine ⟨h.length, ?_, h.wire, ?_, h.made, h.queued, h.owners, h.sent, ?_, h.replied⟩
  · intro x hx
    obtain ⟨hx, hk, hcr⟩ := h.started x hx
    refine ⟨hx, Nat.le_succ_of_le hk, ?_⟩
    simpa [credit, houts, show x.1 ≠ s.handled + 1 by omega] using hcr
  · by_cases hstart : startsVideo prost m
    · obtain ⟨hid, hchan, hsends⟩ := hfocus hstart
      obtain ⟨sends, rfl⟩ : ∃ n, sends = n + 1 := ⟨sends - 1, by dsimp only at hsends; omega⟩
      dsimp only at hid hchan
      refine .focus rfl hchan ?_ (.inl ?_)
      · simp only [credit, if_true, countP_isStart_new h.numbered]
        rw [focus_replies _ hid, hchan, if_pos hc]
        simp
      · rw [← hchan]
        exact videoOps_focus _ hid
    · exact .other (videoOps_other _ hstart)
  · intro k out hk
    exact Nat.le_succ_of_le (h.numbered k out hk)

/-- An access that spawns no task. -/
theorem Inv.setVideo {p : VideoPipeline} {todo : List PipelineOp} (h : Inv c s)
    (hstreamers : p.streamers = s.video.streamers) (hqueue : p.queue = s.video.queue)
    (hwire : s.starters ≠ [] → p.wire_channel = c) (htodo : Todo c { s.setVideo p with todo }) :
    Inv c { s.setVideo p with todo } where
  length := h.length.trans (congrArg List.length hstreamers).symm
  started := h.started
  wire := hwire
  todo := htodo
  made i st out hi := h.made i st out (by rwa [slot?, ← hstreamers])
  queued f hf := h.queued f (by rwa [← hqueue])
  owners := h.owners
  sent := h.sent
  numbered := h.numbered
  replied := h.replied

/-- The task that the current message starts has its START counted already. -/
theorem Inv.start {session : Int} {config : UInt32} (h : Inv c s) (hcur : s.current = some m)
    (hchan : m.channel = c) (hcr : credit c s s.handled = 1) (hwire : s.video.wire_channel = c) :
    Inv c { s.setVideo (s.video.start session config) with
      todo := [], starters := s.starters ++ s.current.toList.map fun m => (s.handled, m) } := by
  rw [hcur]
  have hlt : ∀ i, i < s.starters.length → i < (s.starters ++ [(s.handled, m)]).length := by
    intro i hi
    rw [List.length_append]
    omega
  constructor
  · change (s.starters ++ [(s.handled, m)]).length = (s.video.streamers ++ [_]).length
    rw [List.length_append, List.length_append, h.length]
    rfl
  · intro x hx
    rcases List.mem_append.mp hx with hx | hx
    · exact h.started x hx
    · obtain rfl := List.mem_singleton.mp hx
      exact ⟨hchan, Nat.le_refl _, hcr⟩
  · exact fun _ => hwire
  · exact .other (by simp)
  · intro i st out hi hpc
    have hi : (s.video.streamers ++ [_])[i]?.join = some st := hi
    rw [List.getElem?_append] at hi
    split at hi
    · exact h.made i st out hi hpc
    · rw [Option.join_eq_some_iff, List.getElem?_singleton] at hi
      split at hi <;> cases hi
      cases hpc
  · exact h.queued
  · exact fun i hi => hlt i (h.owners i hi)
  · exact fun i out hsent => ⟨(h.sent i out hsent).1, hlt i (h.sent i out hsent).2⟩
  · exact h.numbered
  · intro i x hdata hx
    obtain ⟨out, hout⟩ := any_isData.mp hdata
    have hx : (s.starters ++ [(s.handled, m)])[i]? = some x := hx
    rw [List.getElem?_append_left (h.sent i out hout).2] at hx
    exact h.replied i x hdata hx

theorem inv_op (h : Inv c s) (hstep : next prost fl s .op = some t) : Inv c t := by
  simp only [next] at hstep
  split at hstep
  · rename_i op todo htodo
    cases hstep
    rcases h.todo with @⟨m, hcur, hchan, hcr, hfirst | ⟨hsecond, hwire⟩⟩ | hops
    · rw [htodo] at hfirst
      obtain ⟨rfl, rfl⟩ := List.cons.inj hfirst
      exact h.setVideo rfl rfl (fun _ => rfl) (.focus hcur hchan hcr (.inr ⟨rfl, rfl⟩))
    · rw [htodo] at hsecond
      obtain ⟨rfl, rfl⟩ := List.cons.inj hsecond
      exact h.start hcur hchan hcr hwire
    · have hrest : Todo c { s.setVideo (op.apply s.video) with todo } :=
        .other fun op' hop' => hops op' (htodo ▸ List.mem_cons_of_mem _ hop')
      rcases hops op (htodo ▸ List.mem_cons_self ..) with rfl | rfl
      · exact h.setVideo rfl rfl h.wire hrest
      · exact h.setVideo rfl rfl h.wire hrest
  · cases hstep

/-- Sending a reply changes nothing about what came before a frame. -/
theorem inv_reply (h : Inv c s) (hstep : next prost fl s .reply = some t) : Inv c t := by
  simp only [next] at hstep
  split at hstep
  · rename_i out outs htodo houts
    cases hstep
    have hcredit : ∀ k, credit c { s with outs, log := s.log ++ [.reply s.handled out] } k =
        credit c s k := by
      intro k
      by_cases hk : k = s.handled
      · subst hk
        simp only [credit, houts, List.countP_append, List.countP_cons, List.countP_nil, if_true,
          Sent.isStart, true_and]
        omega
      · simp [credit, hk, Sent.isStart, Ne.symm hk]
    constructor
    · exact h.length
    · intro x hx
      obtain ⟨hchan, hk, hcr⟩ := h.started x hx
      exact ⟨hchan, hk, (hcredit x.1).trans hcr⟩
    · exact h.wire
    · exact .other (by simp [htodo])
    · exact h.made
    · exact h.queued
    · exact h.owners
    · intro i out' hsent
      exact h.sent i out' (by simpa using hsent)
    · intro k out' hk
      rcases List.mem_append.mp hk with hk | hk
      · exact h.numbered k out' hk
      · cases List.mem_singleton.mp hk
        exact Nat.le_refl _
    · intro i x hdata hx
      have hdata : s.log.any (·.isData i) := by simpa [Sent.isData] using hdata
      rw [before_append _ hdata]
      exact h.replied i x hdata hx
  · cases hstep

theorem inv_task (h : Inv c s) (hstep : next prost fl s (.task i ev) = some t) : Inv c t := by
  simp only [next] at hstep
  cases hi : slot? s.video i with
  | none => simp [hi] at hstep
  | some st =>
    rw [hi] at hstep
    obtain ⟨p, hp, rfl⟩ := Option.map_eq_some_iff.mp hstep
    obtain ⟨hwire, ⟨st', hst', hpc⟩, hqueue⟩ := stepStreamer_stamp hp
    have hlt : i < s.starters.length := by
      rw [h.length]
      exact (List.getElem?_eq_some_iff.mp (Option.join_eq_some_iff.mp hi)).1
    have hchan : s.video.wire_channel = c := h.wire (List.ne_nil_of_length_pos (by omega))
    constructor
    · exact h.length.trans (by simp [Stream.video, Stream.setVideo, hst'])
    · exact h.started
    · exact fun hne => hwire.trans (h.wire hne)
    · rcases h.todo with @⟨m, hcur, hm, hcr, htodo⟩ | hops
      · exact .focus hcur hm hcr (htodo.imp_right fun ⟨hrest, hw⟩ => ⟨hrest, hwire.trans hw⟩)
      · exact .other hops
    · intro j a out hj hsending
      have hj : (p.streamers[j]?).join = some a := hj
      rw [hst', List.getElem?_set] at hj
      by_cases hij : i = j
      · subst hij
        rw [if_pos rfl] at hj
        split at hj
        · exact (hpc a out hj hsending).trans hchan
        · cases hj
      · rw [if_neg hij] at hj
        exact h.made j a out hj hsending
    · rcases hqueue with ⟨-, hqueue⟩ | ⟨-, out, hout, hqueue⟩
      · exact fun f hf => h.queued f (by rwa [← hqueue])
      · intro f hf
        have hf : f ∈ p.queue := hf
        rw [hqueue] at hf
        rcases List.mem_append.mp hf with hf | hf
        · exact h.queued f hf
        · cases List.mem_singleton.mp hf
          exact h.made i st out hi hout
    · intro j hj
      dsimp only at hj
      split at hj
      · rcases List.mem_append.mp hj with hj | hj
        · exact h.owners j hj
        · exact (List.mem_singleton.mp hj) ▸ hlt
      · exact h.owners j hj
    · exact h.sent
    · exact h.numbered
    · exact h.replied

/-- Between two messages every START that is due has gone out. -/
theorem countP_log (h : Inv c s) (houts : s.outs = []) {x : Nat × Message} (hx : x ∈ s.starters) :
    s.log.countP (·.isStart x.1 c) = 1 := by
  have hcr := (h.started x hx).2.2
  simpa [credit, houts] using hcr

theorem Inv.data {out : OutboundMessage} (h : Inv c s) (houts : s.outs = [])
    (hout : out.channel = c) (hi : i < s.starters.length) :
    Inv c { s with log := s.log ++ [.data i out] } := by
  have hcredit : ∀ k, credit c { s with log := s.log ++ [.data i out] } k = credit c s k := by
    intro k
    simp [credit, Sent.isStart]
  constructor
  · exact h.length
  · intro x hx
    obtain ⟨hchan, hk, hcr⟩ := h.started x hx
    exact ⟨hchan, hk, (hcredit x.1).trans hcr⟩
  · exact h.wire
  · rcases h.todo with @⟨m, hcur, hm, hcr, htodo⟩ | hops
    · exact .focus hcur hm ((hcredit _).trans hcr) htodo
    · exact .other hops
  · exact h.made
  · exact h.queued
  · exact h.owners
  · intro j out' hsent
    rcases List.mem_append.mp hsent with hsent | hsent
    · exact h.sent j out' hsent
    · cases List.mem_singleton.mp hsent
      exact ⟨hout, hi⟩
  · intro k out' hk
    exact h.numbered k out' (by simpa using hk)
  · intro j x hdata hx
    by_cases hlog : s.log.any (·.isData j)
    · rw [before_append _ hlog]
      exact h.replied j x hlog hx
    · have hlast := (Bool.or_eq_true_iff.mp (List.any_append ▸ hdata)).resolve_left hlog
      obtain rfl : i = j := by simpa [Sent.isData] using hlast
      rw [before_data out hlog]
      exact countP_log h houts (List.mem_of_getElem? hx)

/-- A frame goes out when the reply to the message that started its task has gone out. -/
theorem inv_transmit {sent : Bool} (h : Inv c s)
    (hstep : next prost fl s (.transmit sent) = some t) : Inv c t := by
  simp only [next] at hstep
  split at hstep
  · rename_i g out queue i owners htodo houts hqueue howners
    cases hstep
    have hleft : Inv c { s.setVideo { s.video with queue } with owners } :=
      { h with
        todo := .other (by simp [Stream.setVideo, htodo])
        queued := fun f hf => h.queued f (hqueue ▸ List.mem_cons_of_mem _ hf)
        owners := fun j hj => h.owners j (howners ▸ List.mem_cons_of_mem _ hj) }
    cases sent with
    | false => exact hleft
    | true =>
      exact hleft.data houts (h.queued _ (hqueue ▸ List.mem_cons_self ..))
        (h.owners i (howners ▸ List.mem_cons_self ..))
  · cases hstep

theorem inv_step (hc : answersFocus c = true) (h : Inv c s) {e : StreamEvent}
    (hinput : ∀ x ∈ inputs [e], Focus prost c x) (hstep : Steps (next prost fl) s e t) :
    Inv c t := by
  cases e with
  | message m sends => exact inv_message hc h (hinput (m, sends) (List.mem_singleton.mpr rfl)) hstep
  | op => exact inv_op h hstep
  | reply => exact inv_reply h hstep
  | task i ev => exact inv_task h hstep
  | transmit sent => exact inv_transmit h hstep

theorem inputs_append (xs ys : List StreamEvent) : inputs (xs ++ ys) = inputs xs ++ inputs ys :=
  List.filterMap_append

/-- While all that starts the stream is answered notifications on one channel, all is well. -/
theorem good_run {sensor : Sensor.SensorHandler F} {audio : AudioChannelManager}
    (hc : answersFocus c = true) (hfocus : ∀ x ∈ inputs es, Focus prost c x)
    (hrun : Run (Steps (next prost fl)) (init sensor audio) es s) : Good s := by
  refine good_of_inv (c := c) ?_
  have hinv : Inv c (init sensor audio) := inv_init sensor audio
  generalize init sensor audio = s₀ at hrun hinv
  induction hrun with
  | refl => exact hinv
  | @stepL s u t e es hstep _ ih =>
    have hsplit : inputs (e :: es) = inputs [e] ++ inputs es := inputs_append [e] es
    rw [hsplit] at hfocus
    obtain ⟨hfirst, hrest⟩ := List.forall_mem_append.mp hfocus
    exact ih hrest (inv_step hc hinv hfirst hstep)

end Aabox.VideoStart
