import Aabox.VideoStart

/-!
# The runs that a list of messages allows

Messages can be handled one after the other without any task moving, so that a task waits for its
next frame for as long as a run needs it to.
-/
namespace Aabox.VideoStart
open Aabox.Lib Aabox.Messages Aabox.Audio Aabox.Video Aabox.HandleFrame

variable {F : Type} {prost : Prost} {fl : Sensor.Floats F} {s t u : Stream F} {m : Message}
  {i k n : Nat} {st : Streamer} {x : Nat × Message} {y : Message × Nat} {ms : List (Message × Nat)}

/-- No message is being handled, and no frame is on its way out. -/
structure Quiet (s : Stream F) : Prop where
  todo : s.todo = []
  outs : s.outs = []
  queue : s.video.queue = []
  owners : s.owners = []
  rx_open : s.video.rx_open = true
  max_eq : s.video.max_in_flight = VIDEO_MAX_UNACKED
  length : s.starters.length = s.video.streamers.length
  no_data : ∀ i, ¬ s.log.any (·.isData i)
  numbered : ∀ k out, .reply k out ∈ s.log → k ≤ s.handled

theorem quiet_init (sensor : Sensor.SensorHandler F) (audio : AudioChannelManager) :
    Quiet (init sensor audio) where
  todo := rfl
  outs := rfl
  queue := rfl
  owners := rfl
  rx_open := rfl
  max_eq := rfl
  length := rfl
  no_data i h := by cases h
  numbered k out h := by cases h

theorem apply_queue (op : PipelineOp) (p : VideoPipeline) : (op.apply p).queue = p.queue := by
  cases op <;> rfl

theorem foldl_queue (ops : List PipelineOp) (p : VideoPipeline) :
    (ops.foldl PipelineOp.apply p).queue = p.queue := by
  induction ops generalizing p with
  | nil => rfl
  | cons op ops ih => exact (ih (op.apply p)).trans (apply_queue op p)

theorem foldl_length (ops : List PipelineOp) (p : VideoPipeline) :
    (ops.foldl PipelineOp.apply p).streamers.length =
      p.streamers.length + (ops.filter spawns).length := by
  induction ops generalizing p with
  | nil => rfl
  | cons op ops ih =>
    rw [List.foldl_cons, ih]
    cases op with
    | start session config =>
      simp only [PipelineOp.apply, VideoPipeline.start, List.length_append, List.filter_cons,
        spawns, if_true, List.length_cons, List.length_nil]
      omega
    | _ => rfl

theorem foldl_wire {ops : List PipelineOp} (h : ∀ op ∈ ops, op = .stop ∨ op = .mediaAck)
    (p : VideoPipeline) : (ops.foldl PipelineOp.apply p).wire_channel = p.wire_channel := by
  induction ops generalizing p with
  | nil => rfl
  | cons op ops ih =>
    obtain ⟨hop, hops⟩ := List.forall_mem_cons.mp h
    refine (ih hops (op.apply p)).trans ?_
    rcases hop with rfl | rfl <;> rfl

variable (prost fl) in
/-- The accesses of a message one after the other. -/
theorem ops_run (ops : List PipelineOp) (htodo : s.todo = ops) (hcur : s.current = some m) :
    ∃ es, Run (Steps (next prost fl)) s es
        { s.setVideo (ops.foldl PipelineOp.apply s.video) with
          todo := []
          starters := s.starters ++ (ops.filter spawns).map fun _ => (s.handled, m) } ∧
      inputs es = [] := by
  induction ops generalizing s with
  | nil =>
    refine ⟨[], ?_, rfl⟩
    have hs : s = { s.setVideo s.video with todo := [], starters := s.starters ++ [] } := by
      rw [List.append_nil, ← htodo]
      rfl
    exact hs ▸ .refl
  | cons op ops ih =>
    let u : Stream F := { s.setVideo (op.apply s.video) with
      todo := ops
      starters := s.starters ++ if spawns op then [(s.handled, m)] else [] }
    have hop : next prost fl s .op = some u := by
      simp only [next, htodo, hcur, u]
      cases spawns op <;> simp
    obtain ⟨es, hrun, hin⟩ := ih (s := u) rfl hcur
    refine ⟨.op :: es, .stepL hop ?_, hin⟩
    have hstarters : u.starters ++ ((ops.filter spawns).map fun _ => (u.handled, m)) =
        s.starters ++ (((op :: ops).filter spawns).map fun _ => (s.handled, m)) := by
      simp only [u, Stream.setVideo, List.filter_cons]
      cases spawns op <;> simp
    rw [← hstarters]
    exact hrun

variable (prost fl) in
theorem replies_run (outs : List OutboundMessage) (htodo : s.todo = []) (houts : s.outs = outs) :
    ∃ es, Run (Steps (next prost fl)) s es
        { s with outs := [], log := s.log ++ outs.map (.reply s.handled) } ∧ inputs es = [] := by
  induction outs generalizing s with
  | nil =>
    refine ⟨[], ?_, rfl⟩
    have hs : s = { s with outs := [], log := s.log ++ [] } := by
      rw [List.append_nil, ← houts]
    exact hs ▸ .refl
  | cons out outs ih =>
    have hreply : next prost fl s .reply =
        some { s with outs, log := s.log ++ [.reply s.handled out] } := by
      simp only [next, htodo, houts]
    obtain ⟨es, hrun, hin⟩ := ih (s := { s with outs, log := s.log ++ [.reply s.handled out] })
      htodo rfl
    refine ⟨.reply :: es, .stepL hreply ?_, hin⟩
    simpa using hrun

/-- What handling message `m`, with `n` of its replies sent, leaves behind. -/
structure Handled (prost : Prost) (fl : Sensor.Floats F) (m : Message) (n : Nat)
    (s t : Stream F) : Prop where
  handled : t.handled = s.handled + 1
  video : t.video = (videoOps prost s.video.wire_channel m).foldl PipelineOp.apply s.video
  starters : t.starters = s.starters ++
    ((videoOps prost s.video.wire_channel m).filter spawns).map fun _ => (s.handled + 1, m)
  log : t.log = s.log ++
    ((replies (route prost fl s.handlers m).1).take n).map (.reply (s.handled + 1))

variable (prost fl) in
theorem handle_one (h : Quiet s) (m : Message) (n : Nat) :
    ∃ es t, Run (Steps (next prost fl)) s es t ∧ inputs es = [(m, n)] ∧ Quiet t ∧
      Handled prost fl m n s t := by
  let s₁ : Stream F := { s with
    handlers := { (route prost fl s.handlers m).2 with video := s.video }
    handled := s.handled + 1
    current := some m
    todo := videoOps prost s.video.wire_channel m
    outs := (replies (route prost fl s.handlers m).1).take n }
  have hmessage : next prost fl s (.message m n) = some s₁ := by
    simp only [next, h.todo, h.outs, and_self, if_true, s₁]
  obtain ⟨es₂, hrun₂, hin₂⟩ := ops_run prost fl (videoOps prost s.video.wire_channel m)
    (s := s₁) rfl rfl
  obtain ⟨es₃, hrun₃, hin₃⟩ := replies_run prost fl
    ((replies (route prost fl s.handlers m).1).take n) (s := { s₁.setVideo _ with
      todo := [], starters := _ }) rfl rfl
  refine ⟨.message m n :: es₂ ++ es₃, _, .stepL hmessage (hrun₂.trans hrun₃), ?_, ?_, ?_⟩
  · change (m, n) :: inputs (es₂ ++ es₃) = _
    rw [inputs_append, hin₂, hin₃]
    rfl
  · obtain ⟨hmax, hrx, -⟩ := receive_frame s.video (videoOps prost s.video.wire_channel m)
    constructor
    · rfl
    · rfl
    · exact (foldl_queue _ _).trans h.queue
    · exact h.owners
    · exact hrx.trans h.rx_open
    · exact hmax.trans h.max_eq
    · have hlen := foldl_length (videoOps prost s.video.wire_channel m) s.video
      simpa [Stream.setVideo, Stream.video, h.length, s₁] using hlen.symm
    · intro i hdata
      obtain ⟨out, hout⟩ := any_isData.mp hdata
      rcases List.mem_append.mp hout with hout | hout
      · exact h.no_data i (any_isData.mpr ⟨out, hout⟩)
      · obtain ⟨_, -, heq⟩ := List.mem_map.mp hout
        cases heq
    · intro k out hk
      rcases List.mem_append.mp hk with hk | hk
      · exact Nat.le_succ_of_le (h.numbered k out hk)
      · obtain ⟨_, -, heq⟩ := List.mem_map.mp hk
        cases heq
        exact Nat.le_refl _
  · exact ⟨rfl, rfl, rfl, rfl⟩

/-- What messages alone leave as it was, and where the wire channel is from. -/
structure Later (ms : List (Message × Nat)) (s t : Stream F) : Prop where
  slots : ∀ i st, slot? s.video i = some st → slot? t.video i = some st
  starters : ∀ (i : Nat) x, s.starters[i]? = some x → t.starters[i]? = some x
  wire : t.video.wire_channel = s.video.wire_channel ∨
    ∃ y ∈ ms, y.1.msg_id = 0x8008 ∧ y.1.channel = t.video.wire_channel

theorem Handled.later (h : Handled prost fl m n s t) : Later [(m, n)] s t where
  slots := by
    intro i st hi
    obtain ⟨-, -, new, hnew, -⟩ := receive_frame s.video (videoOps prost s.video.wire_channel m)
    have hlt := (List.getElem?_eq_some_iff.mp (Option.join_eq_some_iff.mp hi)).1
    rw [slot?, h.video, hnew, List.getElem?_append_left hlt]
    exact hi
  starters := by
    intro i x hi
    rw [h.starters, List.getElem?_append_left (List.getElem?_eq_some_iff.mp hi).1, hi]
  wire := by
    rw [h.video]
    by_cases hid : m.msg_id = 0x8008
    · exact .inr ⟨(m, n), List.mem_singleton.mpr rfl, hid, by rw [videoOps_focus _ hid]; rfl⟩
    · left
      by_cases hstart : startsVideo prost m
      · obtain ⟨-, session, config, hops⟩ := videoOps_start s.video.wire_channel hstart hid
        rw [hops]
        rfl
      · exact foldl_wire (videoOps_other _ hstart) _

theorem Later.trans {ms' : List (Message × Nat)} (h : Later ms s t) (h' : Later ms' t u) :
    Later (ms ++ ms') s u where
  slots i st hi := h'.slots i st (h.slots i st hi)
  starters i x hi := h'.starters i x (h.starters i x hi)
  wire := by
    rcases h'.wire with hwire | ⟨y, hy, hid, hchan⟩
    · rw [hwire]
      exact h.wire.imp_right fun ⟨y, hy, hid⟩ => ⟨y, List.mem_append_left _ hy, hid⟩
    · exact .inr ⟨y, List.mem_append_right _ hy, hid, hchan⟩

variable (prost fl) in
theorem handle_all (h : Quiet s) (ms : List (Message × Nat)) :
    ∃ es t, Run (Steps (next prost fl)) s es t ∧ inputs es = ms ∧ Quiet t ∧ Later ms s t := by
  induction ms generalizing s with
  | nil => exact ⟨[], s, .refl, rfl, h, fun _ _ h => h, fun _ _ h => h, .inl rfl⟩
  | cons y ms ih =>
    obtain ⟨es, t, hrun, hin, hquiet, hhandled⟩ := handle_one prost fl h y.1 y.2
    obtain ⟨es', u, hrun', hin', hquiet', hlater⟩ := ih hquiet
    exact ⟨es ++ es', u, hrun.trans hrun', by rw [inputs_append, hin, hin']; rfl, hquiet',
      hhandled.later.trans hlater⟩

theorem next_task {p : VideoPipeline} {ev : StreamerEvent} (hi : slot? s.video i = some st)
    (hp : stepStreamer s.video i st ev = some p) :
    next prost fl s (.task i ev) = some { s.setVideo p with
      owners := if ev = .send then s.owners ++ [i] else s.owners } := by
  simp only [next, hi, hp, Option.map_some]

theorem slot?_setStreamer {p : VideoPipeline} {st' : Option Streamer} (h : slot? p i = some st) :
    slot? (p.setStreamer i st') i = st' := by
  have hlt := (List.getElem?_eq_some_iff.mp (Option.join_eq_some_iff.mp h)).1
  simp [slot?, VideoPipeline.setStreamer, hlt]

theorem Quiet.setStreamer (h : Quiet s) (i : Nat) (st' : Option Streamer) :
    Quiet (s.setVideo (s.video.setStreamer i st')) :=
  { h with length := h.length.trans (List.length_set).symm }

variable (prost fl) in
/-- A task that a message has just started gets through its checks. -/
theorem fetches (h : Quiet s) (hi : slot? s.video i = some st) (hpc : st.pc = .top)
    (hgen : st.my_gen = s.video.generation) (hzero : s.video.in_flight = 0) :
    ∃ es t, Run (Steps (next prost fl)) s es t ∧ inputs es = [] ∧ Quiet t ∧
      slot? t.video i = some { st with pc := .fetching } ∧ t.video.wire_channel =
      s.video.wire_channel ∧ t.starters = s.starters ∧ t.log = s.log := by
  let s₁ := s.setVideo (s.video.setStreamer i (some { st with pc := .capCheck }))
  let s₂ := s₁.setVideo (s₁.video.setStreamer i (some { st with pc := .fetching }))
  have hi₁ : slot? s₁.video i = some { st with pc := .capCheck } := slot?_setStreamer hi
  have hcheck : next prost fl s (.task i .checkGeneration) = some s₁ := by
    refine next_task hi ?_
    simp only [stepStreamer, hpc, hgen, if_true]
  have hroom : ¬ s₁.video.in_flight ≥ s₁.video.max_in_flight := by
    change ¬ s.video.in_flight ≥ s.video.max_in_flight
    rw [hzero, h.max_eq]
    decide
  have hcap : next prost fl s₁ (.task i .checkCap) = some s₂ := by
    refine next_task hi₁ ?_
    simp only [stepStreamer, if_true, if_neg hroom]
  exact ⟨[.task i .checkGeneration, .task i .checkCap], s₂, .stepL hcheck (.stepL hcap .refl), rfl,
    (h.setStreamer i _).setStreamer i _, slot?_setStreamer hi₁, rfl, rfl, rfl⟩

variable (prost fl) in
/-- The task stamps its next frame with what the wire channel is now. -/
theorem stamps (hi : slot? s.video i = some st) (hpc : st.pc = .fetching) :
    ∃ out, out.channel = s.video.wire_channel ∧
      next prost fl s (.task i (.frame 0 [])) =
        some (s.setVideo (s.video.setStreamer i (some { st with pc := .sending out }))) := by
  let out : OutboundMessage := ⟨s.video.wire_channel, MSG_AV_MEDIA_WITH_TIMESTAMP_INDICATION,
    beBytes 8 (0 : UInt64).toNat ++ []⟩
  refine ⟨out, rfl, next_task hi ?_⟩
  simp only [stepStreamer, hpc, if_true, out]

variable (prost fl) in
/-- A frame that is stamped when the wire channel is not that of its task's message. -/
theorem misaddressed (hi : slot? s.video i = some st) (hpc : st.pc = .fetching)
    (hx : s.starters[i]? = some x) (hchan : x.2.channel ≠ s.video.wire_channel) :
    ∃ es t, Run (Steps (next prost fl)) s es t ∧ inputs es = [] ∧ ¬ Good t := by
  obtain ⟨out, hout, hframe⟩ := stamps prost fl hi hpc
  refine ⟨[.task i (.frame 0 [])], _, .stepL hframe .refl, rfl, ?_⟩
  intro hgood
  obtain ⟨x', hx', hchan'⟩ := hgood.made i _ out (slot?_setStreamer hi) rfl
  obtain rfl : x = x' := Option.some.inj (hx.symm.trans hx')
  exact hchan (hchan'.symm.trans hout)

variable (prost fl) in
/-- A frame that is sent although its task's message has not been answered as it should. -/
theorem unanswered (h : Quiet s) (hi : slot? s.video i = some st) (hpc : st.pc = .fetching)
    (hx : s.starters[i]? = some x) (hid : x.2.msg_id = 0x8008)
    (hcount : s.log.countP (·.isStart x.1 x.2.channel) ≠ 1) :
    ∃ es t, Run (Steps (next prost fl)) s es t ∧ inputs es = [] ∧ ¬ Good t := by
  obtain ⟨out, -, hframe⟩ := stamps prost fl hi hpc
  let s₁ := s.setVideo (s.video.setStreamer i (some { st with pc := .sending out }))
  have hi₁ : slot? s₁.video i = some { st with pc := .sending out } := slot?_setStreamer hi
  let p : VideoPipeline := { s₁.video with queue := [(st.my_gen, out)] }
  let s₂ : Stream F := { s₁.setVideo (p.setStreamer i (some { st with pc := .counting })) with
    owners := [i] }
  have hsend : next prost fl s₁ (.task i .send) = some s₂ := by
    have hqueue : s₁.video.queue = [] := h.queue
    have howners : s₁.owners = [] := h.owners
    have hopen : s₁.video.rx_open = true := h.rx_open
    have hstep : stepStreamer s₁.video i { st with pc := .sending out } .send =
        some (p.setStreamer i (some { st with pc := .counting })) := by
      simp only [stepStreamer, hopen, hqueue, p]
      rfl
    rw [next_task hi₁ hstep, if_pos rfl, howners]
    rfl
  have htransmit : next prost fl s₂ (.transmit true) = some
      { s₂.setVideo { s₂.video with queue := [] } with
        owners := [], log := s.log ++ [.data i out] } := by
    have htodo : s₂.todo = [] := h.todo
    have houts : s₂.outs = [] := h.outs
    have hqueue : s₂.video.queue = [(st.my_gen, out)] := rfl
    have howners : s₂.owners = [i] := rfl
    simp only [next, htodo, houts, hqueue, howners, if_true]
    rfl
  refine ⟨[.task i (.frame 0 []), .task i .send, .transmit true], _,
    .stepL hframe (.stepL hsend (.stepL htransmit .refl)), rfl, ?_⟩
  intro hgood
  have hcount' := hgood.replied i x (any_isData.mpr ⟨out, by simp⟩) hx hid
  rw [before_data out (h.no_data i)] at hcount'
  exact hcount hcount'

/-- A task that has just been started. -/
structure Fresh (i : Nat) (x : Nat × Message) (s : Stream F) (st : Streamer) : Prop where
  slot : slot? s.video i = some st
  top : st.pc = .top
  current : st.my_gen = s.video.generation
  uncounted : s.video.in_flight = 0
  starter : s.starters[i]? = some x

/-- The message's task gets the next slot. -/
theorem Handled.fresh (h : Handled prost fl m n s t) (hquiet : Quiet s)
    (hstart : startsVideo prost m) :
    ∃ st, Fresh s.starters.length (s.handled + 1, m) t st := by
  obtain ⟨p, session, config, hvideo, hlen, hspawned⟩ : ∃ (p : VideoPipeline) (session : Int)
      (config : UInt32), t.video = p.start session config ∧
        p.streamers.length = s.starters.length ∧
        (videoOps prost s.video.wire_channel m).filter spawns = [.start session config] := by
    by_cases hid : m.msg_id = 0x8008
    · have hops : videoOps prost s.video.wire_channel m = _ := videoOps_focus _ hid
      refine ⟨s.video.setWireChannel m.channel, 1, 0, ?_, hquiet.length.symm, ?_⟩
      · rw [h.video, hops]
        rfl
      · rw [hops]
        rfl
    · obtain ⟨-, session, config, hops⟩ := videoOps_start s.video.wire_channel hstart hid
      refine ⟨s.video, session, config, ?_, hquiet.length.symm, ?_⟩
      · rw [h.video, hops]
        rfl
      · rw [hops]
        rfl
  refine ⟨⟨p.generation + 1, .top, captureFor config⟩, ?_, rfl, ?_, ?_, ?_⟩
  · rw [hvideo, ← hlen]
    simp [slot?, VideoPipeline.start]
  · rw [hvideo]
    rfl
  · rw [hvideo]
    rfl
  · rw [h.starters, hspawned]
    simp

/-- The STARTs that a focus notification gets. -/
theorem Handled.countP_start (h : Handled prost fl m n s t) (hquiet : Quiet s)
    (hid : m.msg_id = 0x8008) :
    t.log.countP (·.isStart (s.handled + 1) m.channel) =
      if answersFocus m.channel ∧ 0 < n then 1 else 0 := by
  rw [h.log, List.countP_append, countP_isStart_new hquiet.numbered, focus_replies _ hid]
  cases n with
  | zero => simp
  | succ n => cases answersFocus m.channel <;> simp [Sent.isStart]

variable (prost fl) in
/-- Any message that starts the stream can be followed by its task alone. -/
theorem starts (sensor : Sensor.SensorHandler F) (audio : AudioChannelManager)
    (pre : List (Message × Nat)) (hstart : startsVideo prost m) (n : Nat) :
    ∃ es s k i st, Run (Steps (next prost fl)) (init sensor audio) es s ∧
      inputs es = pre ++ [(m, n)] ∧ Quiet s ∧ slot? s.video i = some st ∧ st.pc = .fetching ∧
      s.starters[i]? = some (k, m) ∧
      (m.msg_id = 0x8008 → s.log.countP (·.isStart k m.channel) =
        if answersFocus m.channel ∧ 0 < n then 1 else 0) ∧
      (m.msg_id = 0x8008 → s.video.wire_channel = m.channel) ∧
      (m.msg_id ≠ 0x8008 → s.video.wire_channel = 255 ∨
        ∃ y ∈ pre, y.1.msg_id = 0x8008 ∧ y.1.channel = s.video.wire_channel) := by
  obtain ⟨es₁, s₁, hrun₁, hin₁, hquiet₁, hlater⟩ := handle_all prost fl (quiet_init sensor audio) pre
  obtain ⟨es₂, s₂, hrun₂, hin₂, hquiet₂, hhandled⟩ := handle_one prost fl hquiet₁ m n
  obtain ⟨st, hfresh⟩ := hhandled.fresh hquiet₁ hstart
  obtain ⟨es₃, s₃, hrun₃, hin₃, hquiet₃, hslot, hwire, hstarters, hlog⟩ :=
    fetches prost fl hquiet₂ hfresh.slot hfresh.top hfresh.current hfresh.uncounted
  refine ⟨es₁ ++ (es₂ ++ es₃), s₃, s₁.handled + 1, s₁.starters.length, _,
    hrun₁.trans (hrun₂.trans hrun₃), ?_, hquiet₃, hslot, rfl, ?_, ?_, ?_, ?_⟩
  · rw [inputs_append, inputs_append, hin₁, hin₂, hin₃, List.append_nil]
  · rw [hstarters, hfresh.starter]
  · intro hid
    rw [hlog, hhandled.countP_start hquiet₁ hid]
  · intro hid
    rw [hwire, hhandled.video, videoOps_focus _ hid]
    rfl
  · intro hid
    obtain ⟨-, session, config, hops⟩ := videoOps_start s₁.video.wire_channel hstart hid
    have hsame : s₃.video.wire_channel = s₁.video.wire_channel := by
      rw [hwire, hhandled.video, hops]
      rfl
    rw [hsame]
    exact hlater.wire

section
variable {sensor : Sensor.SensorHandler F} {audio : AudioChannelManager}
  (hall : ∀ es s, Run (Steps (next prost fl)) (init sensor audio) es s → inputs es <+: ms → Good s)
include hall

/-- A run that can go wrong after some of the messages refutes that all runs are good. -/
theorem good_prefix {es : List StreamEvent} {pre post : List (Message × Nat)}
    (hrun : Run (Steps (next prost fl)) (init sensor audio) es s) (hin : inputs es = pre)
    (hms : ms = pre ++ post)
    (hbad : ∃ es' t, Run (Steps (next prost fl)) s es' t ∧ inputs es' = [] ∧ ¬ Good t) : False := by
  obtain ⟨es', t, hrun', hin', hnot⟩ := hbad
  refine hnot (hall _ t (hrun.trans hrun') ?_)
  rw [inputs_append, hin, hin', List.append_nil, hms]
  exact List.prefix_append pre post

theorem focus_answered (hy : y ∈ ms) (hid : y.1.msg_id = 0x8008) :
    answersFocus y.1.channel = true ∧ 0 < y.2 := by
  obtain ⟨pre, post, hms⟩ := List.append_of_mem hy
  have hstart : startsVideo prost y.1 := by simp [startsVideo, hid]
  obtain ⟨es, s, k, i, st, hrun, hin, hquiet, hslot, hpc, hx, hcount, -⟩ :=
    starts prost fl sensor audio pre hstart y.2
  by_contra hnot
  have hsplit : ms = (pre ++ [y]) ++ post := by
    rw [hms, List.append_assoc]
    rfl
  refine good_prefix hall hrun hin hsplit ?_
  refine unanswered prost fl hquiet hslot hpc hx hid ?_
  rw [hcount hid, if_neg hnot]
  decide

theorem starter_focus (hy : y ∈ ms) (hstart : startsVideo prost y.1) : y.1.msg_id = 0x8008 := by
  obtain ⟨pre, post, hms⟩ := List.append_of_mem hy
  obtain ⟨es, s, k, i, st, hrun, hin, hquiet, hslot, hpc, hx, -, -, hwire⟩ :=
    starts prost fl sensor audio pre hstart y.2
  by_contra hid
  obtain ⟨hthree, -⟩ := videoOps_start 0 hstart hid
  have hsplit : ms = (pre ++ [y]) ++ post := by
    rw [hms, List.append_assoc]
    rfl
  refine good_prefix hall hrun hin hsplit ?_
  refine misaddressed prost fl hslot hpc hx ?_
  rw [hthree]
  intro hsame
  rcases hwire hid with hwire | ⟨z, hz, hzid, hzchan⟩
  · rw [hwire] at hsame
    exact absurd hsame (by decide)
  · have hz : z ∈ ms := hms ▸ List.mem_append_left _ hz
    have hanswers := (focus_answered hall hz hzid).1
    rw [hzchan, ← hsame] at hanswers
    exact absurd hanswers (by decide)

theorem later_same {pre post : List (Message × Nat)} {z : Message × Nat} (hms : ms = pre ++ y :: post)
    (hz : z ∈ post) (hy : startsVideo prost y.1) (hid : z.1.msg_id = 0x8008) :
    y.1.channel = z.1.channel := by
  obtain ⟨mid, post', rfl⟩ := List.append_of_mem hz
  obtain ⟨es, s, k, i, st, hrun, hin, hquiet, hslot, hpc, hx, -⟩ :=
    starts prost fl sensor audio pre hy y.2
  obtain ⟨es₁, s₁, hrun₁, hin₁, hquiet₁, hlater⟩ := handle_all prost fl hquiet mid
  obtain ⟨es₂, s₂, hrun₂, hin₂, -, hhandled⟩ := handle_one prost fl hquiet₁ z.1 z.2
  have hlater := hlater.trans hhandled.later
  have hwire : s₂.video.wire_channel = z.1.channel := by
    rw [hhandled.video, videoOps_focus _ hid]
    rfl
  by_contra hne
  have hsplit : ms = inputs (es ++ (es₁ ++ es₂)) ++ post' := by
    rw [inputs_append, inputs_append, hin, hin₁, hin₂, hms]
    simp
  refine good_prefix hall (hrun.trans (hrun₁.trans hrun₂)) rfl hsplit ?_
  exact misaddressed prost fl (hlater.slots i st hslot) hpc (hlater.starters i _ hx) (hwire ▸ hne)

end

/-- In every run that the messages allow all frames go where their tasks were started, after the
one START that is due, exactly if all that starts the stream is answered notifications on one
channel. -/
theorem good_iff (prost : Prost) (fl : Sensor.Floats F) (sensor : Sensor.SensorHandler F)
    (audio : AudioChannelManager) (ms : List (Message × Nat)) :
    (∀ es s, Run (Steps (next prost fl)) (init sensor audio) es s → inputs es <+: ms → Good s) ↔
      OneFocus prost ms := by
  constructor
  · intro hall
    by_cases hnone : ∃ y ∈ ms, startsVideo prost y.1
    · obtain ⟨y, hy, hstart⟩ := hnone
      have hid := starter_focus hall hy hstart
      refine ⟨y.1.channel, (focus_answered hall hy hid).1, ?_⟩
      intro z hz hzstart
      have hzid := starter_focus hall hz hzstart
      refine ⟨hzid, ?_, (focus_answered hall hz hzid).2⟩
      obtain ⟨pre, post, hms⟩ := List.append_of_mem hy
      rw [hms] at hz
      rcases List.mem_append.mp hz with hz | hz
      · obtain ⟨pre', mid, rfl⟩ := List.append_of_mem hz
        have hsplit : ms = pre' ++ z :: (mid ++ y :: post) := by
          rw [hms, List.append_assoc]
          rfl
        exact later_same hall hsplit (List.mem_append_right _ (List.mem_cons_self ..)) hzstart hid
      · rcases List.mem_cons.mp hz with rfl | hz
        · rfl
        · exact (later_same hall hms hz hstart hzid).symm
    · refine ⟨0, by decide, ?_⟩
      intro z hz hzstart
      exact (hnone ⟨z, hz, hzstart⟩).elim
  · rintro ⟨c, hc, hfocus⟩ es s hrun hms
    exact good_run hc (fun x hx => hfocus x (hms.subset hx)) hrun

/-- A START_INDICATION on the canonical video channel, before any focus notification. -/
theorem frame_on_sentinel :
    ¬ ∀ (prost : Prost) (fl : Sensor.Floats Unit) (sensor : Sensor.SensorHandler Unit)
      (audio : AudioChannelManager) (es : List StreamEvent) (s : Stream Unit),
      Run (Steps (next prost fl)) (init sensor audio) es s → Good s := by
  intro h
  have hall := h emptyBodies ⟨fun _ _ => (), fun _ _ => ""⟩
    ⟨none, true, [], fun _ => ⟨true, true⟩, []⟩ .new
  let start : Message × Nat := (⟨3, 0x8001, [0x08, 0x2a, 0x10, 0x01]⟩, 0)
  have hmem : start ∈ [start] := List.mem_singleton.mpr rfl
  have hid := starter_focus (fun es s hrun _ => hall es s hrun) hmem (by decide)
  exact absurd hid (by decide)

end Aabox.VideoStart
