import Aabox.Delivery
import Aabox.HeadUnit

/-!
# The conversation of the head unit and the box

Both directions at once, over the one TLS connection of the box: what the head unit reads are the
replies to what it said, in order, with the navigation, audio and video of the box between them.
-/
namespace Aabox.Conversation
open Aabox.Lib Aabox.Framing Aabox.Control Aabox.Encrypted Aabox.SendEncrypted Aabox.Messages
  Aabox.HandleFrame Aabox.InboundFragments Aabox.Startup Aabox.ControlLoop Aabox.MessageLoop
  Aabox.Delivery Aabox.HeadUnit

inductive Origin
  | reply | own
  deriving DecidableEq, Repr

variable {T R P F : Type}

/-- What the handlers reply to a sequence of messages, and what is left of them. -/
def answers (prost : Prost) (fl : Sensor.Floats F) (h : Handlers F) :
    List Message → List OutboundMessage × Handlers F
  | [] => ([], h)
  | m :: ms =>
    let r := route prost fl h m
    let rest := answers prost fl r.2 ms
    (r.1.toOption.getD [] ++ rest.1, rest.2)

/-- What a poll leads to: the handling of a frame, or a send of an outbound branch. -/
def turnOf (l : Loop) : MessageLoop.Event → Option Turn
  | .poll =>
    match Control.poll l.fut l.src with
    | (.done f, _) => some (.frame f)
    | (.error _, _) => none
    | (.pending _, _) =>
      match l.nav_rx, l.audio_rx, l.video_rx with
      | instr :: _, _, _ => some (.nav instr)
      | [], out :: _, _ => some (.audio out)
      | [], [], out :: _ => some (.video out)
      | [], [], [] => none
  | _ => none

def framesOf : Option Turn → List Frame
  | some (.frame f) => [f]
  | _ => []

def ownOf : Option Turn → List OutboundMessage
  | some (.nav instr) => Nav.encodeInstruction instr
  | some (.audio out) | some (.video out) => [out]
  | _ => []

/-- The turn that a step of the loop takes sends what it has to send. -/
def Speaks (rx : Side R) (p : StartupProst) (fl : Sensor.Floats F) (fuel : Nat) (s : Link T R F) :
    Delivery.Event → Prop
  | .say _ _ => True
  | .loop x => ∀ turn ∈ turnOf s.loop x, Sends rx p fl fuel ⟨.looping, s.session, []⟩ turn

instance (rx : Side R) (p : StartupProst) (fl : Sensor.Floats F) (fuel : Nat) (s : Link T R F) :
    (ev : Delivery.Event) → Decidable (Speaks rx p fl fuel s ev)
  | .say _ _ => isTrue trivial
  | .loop x => inferInstanceAs (Decidable (∀ turn ∈ turnOf s.loop x, _))

def ofOrigin (o : Origin) (log : List (Origin × OutboundMessage)) : List OutboundMessage :=
  (log.filter (·.1 = o)).map (·.2)

variable {tx : Side T} {rx : Side R} {hx : Side P} {layer : RecordLayer tx rx}
  {back : RecordLayer rx hx} {p : StartupProst} {prost : Prost} {fl : Sensor.Floats F}
  {fuel fuel' : Nat} {s s' : Link T R F} {l l' : Loop} {session session' : Session R F}
  {h₀ h : Handlers F} {r₀ : P} {w₀ : Writer} {turn : Turn} {outs : List OutboundMessage}
  {x : MessageLoop.Event} {ev : Delivery.Event} {log : List (Origin × OutboundMessage)}
  {ms ms' : List Message}

theorem answers_append : answers prost fl h (ms ++ ms') =
    ((answers prost fl h ms).1 ++ (answers prost fl (answers prost fl h ms).2 ms').1,
      (answers prost fl (answers prost fl h ms).2 ms').2) := by
  induction ms generalizing h with
  | nil => rfl
  | cons m ms ih => simp [answers, ih]

/-- A step of the loop hands over and sends what its turn says. -/
theorem turnOf_next (h : MessageLoop.next l x = some l') :
    l'.handled = l.handled ++ framesOf (turnOf l x) ∧ l'.sent = l.sent ++ ownOf (turnOf l x) := by
  cases x with
  | arrive =>
    cases hc : l.coming with
    | nil => simp [MessageLoop.next, hc] at h
    | cons part coming =>
      simp only [MessageLoop.next, hc, Option.some.injEq] at h
      subst h
      simp [turnOf, framesOf, ownOf]
  | close tail =>
    simp only [MessageLoop.next, Option.ite_none_right_eq_some, Option.some.injEq] at h
    obtain ⟨-, rfl⟩ := h
    simp [turnOf, framesOf, ownOf]
  | nav | audio | video =>
    cases h
    simp [turnOf, framesOf, ownOf]
  | poll =>
    simp only [MessageLoop.next, Option.ite_none_right_eq_some, Option.some.injEq] at h
    obtain ⟨-, rfl⟩ := h
    rcases hpoll : Control.poll l.fut l.src with ⟨fut | f | e, src⟩
    · cases hnav : l.nav_rx with
      | cons instr nav_rx =>
        simp [pollSelect, pollOutbound, turnOf, framesOf, ownOf, hpoll, hnav]
      | nil =>
        cases haudio : l.audio_rx with
        | cons out audio_rx =>
          simp [pollSelect, pollOutbound, turnOf, framesOf, ownOf, hpoll, hnav, haudio]
        | nil =>
          cases hvideo : l.video_rx <;>
            simp [pollSelect, pollOutbound, turnOf, framesOf, ownOf, hpoll, hnav, haudio, hvideo]
    · rw [pollSelect_done hpoll]
      simp [turnOf, hpoll, framesOf, ownOf]
    · rw [pollSelect_error hpoll]
      simp [turnOf, hpoll, framesOf, ownOf]

theorem ofOrigin_append (o : Origin) (log log' : List (Origin × OutboundMessage)) :
    ofOrigin o (log ++ log') = ofOrigin o log ++ ofOrigin o log' := by simp [ofOrigin]

theorem ofOrigin_tagged (o o' : Origin) (outs : List OutboundMessage) :
    ofOrigin o (outs.map (o', ·)) = if o' = o then outs else [] := by
  by_cases h : o' = o <;> simp [ofOrigin, List.filter_map, Function.comp_def, h]

theorem map_snd_tagged (o : Origin) (outs : List OutboundMessage) :
    (outs.map (o, ·)).map (·.2) = outs := by simp

theorem sendAll_same {res : Except FrameError Unit}
    (h : sendAll rx fuel session outs = some (res, session')) :
    session'.acted = session.acted ∧ session'.handlers = session.handlers := by
  have hkeep : rx.SendsKeep fun _ => True := ⟨fun _ _ => trivial, fun _ _ => trivial⟩
  exact (sendAll_keeps hkeep trivial h).2

theorem handleFrames_alerted (hrecv : Receiving back) {frames : List Frame}
    (h : handleFrames rx p.toProst fl fuel session frames = some session')
    (halert : back.alerted session.conn) : back.alerted session'.conn := by
  induction frames generalizing session with
  | nil =>
    cases h
    exact halert
  | cons frame frames ih =>
    rw [handleFrames] at h
    rcases hone : handleFrame rx p.toProst fl fuel session frame with _ | ⟨res, after⟩
    · simp [hone] at h
    · simp only [hone] at h
      obtain ⟨opened, outs, res', hmsgs, -, hsend⟩ := handleFrame_messages hone
      have hopened := turnMessages_alerted hrecv hmsgs halert
      exact ih h (sendAll_keeps back.alerted_sends hopened hsend).1

theorem serve_alerted (hrecv : Receiving back)
    (h : serve rx p.toProst fl fuel l l' session = some session')
    (halert : back.alerted session.conn) : back.alerted session'.conn := by
  rw [serve] at h
  split at h
  · cases h
  · rename_i handled hframes
    obtain ⟨⟨res, _⟩, hsend, rfl⟩ := Option.map_eq_some_iff.mp h
    have hhandled := handleFrames_alerted hrecv hframes halert
    exact (sendAll_keeps back.alerted_sends hhandled hsend).1

/-- What a frame leads to are the replies to the message in it, if there is one. -/
theorem frame_answers {frame : Frame}
    (h : turnMessages rx p fl fuel session (.frame frame) = some (session', outs)) :
    ∃ ms, session'.acted = session.acted ++ ms ∧ session'.writer = session.writer ∧
      answers p.toProst fl session.handlers ms = (outs, session'.handlers) := by
  rw [turnMessages] at h
  rcases hopen : openFrame rx fuel session.conn frame with _ | ⟨e | m, conn⟩
  · simp [hopen] at h
  · simp only [hopen] at h
    cases h
    exact ⟨[], by simp, rfl, rfl⟩
  · simp only [hopen] at h
    cases h
    exact ⟨[m], rfl, rfl, by simp [answers]⟩

/-- `log` is what the box has said since the loop began, all of which a head unit has read. -/
structure Talks (back : RecordLayer rx hx) (p : StartupProst) (fl : Sensor.Floats F) (fuel' : Nat)
    (h₀ : Handlers F) (r₀ : P) (w₀ : Writer) (session : Session R F) (sent : List OutboundMessage)
    (log : List (Origin × OutboundMessage)) : Prop where
  reads : ∃ gs, Reads back fuel' r₀ w₀ gs session.conn session.writer (log.map (·.2))
  replies : ofOrigin .reply log = (answers p.toProst fl h₀ session.acted).1
  handlers : session.handlers = (answers p.toProst fl h₀ session.acted).2
  own : ofOrigin .own log = sent

variable {sent : List OutboundMessage}

theorem talks_frame (hrecv : Receiving back) (hfuel : 65536 ≤ fuel') {frame : Frame}
    (h : Talks back p fl fuel' h₀ r₀ w₀ session sent log)
    (hsends : Sends rx p fl fuel ⟨.looping, session, []⟩ (.frame frame))
    (hframe : handleFrames rx p.toProst fl fuel session [frame] = some session')
    (hcalm : ¬ back.alerted session'.conn) :
    ∃ log', Talks back p fl fuel' h₀ r₀ w₀ session' sent (log ++ log') := by
  rw [handleFrames] at hframe
  rcases hone : handleFrame rx p.toProst fl fuel session frame with _ | ⟨res, after⟩
  · simp [hone] at hframe
  · simp only [hone, handleFrames, Option.some.injEq] at hframe
    subst hframe
    obtain ⟨opened, outs, res', hmsgs, -, hsend⟩ := handleFrame_messages hone
    obtain ⟨hsize, hok⟩ := hsends _ hmsgs
    dsimp only at hsize hok
    rw [hsend] at hok
    obtain e | ⟨⟨⟩⟩ := res'
    · cases hok
    · obtain ⟨ms, hacted, -, hanswers⟩ := frame_answers hmsgs
      obtain ⟨gs, hreads⟩ := h.reads
      obtain ⟨hacted', hhandlers'⟩ := sendAll_same hsend
      have hall : answers p.toProst fl h₀ after.acted =
          ((answers p.toProst fl h₀ session.acted).1 ++ outs, after.handlers) := by
        rw [hacted', hacted, answers_append, ← h.handlers, hanswers, hhandlers']
      refine ⟨outs.map (Origin.reply, ·), ?_, ?_, ?_, ?_⟩
      · rw [List.map_append, map_snd_tagged]
        have hmid : ¬ back.alerted opened.conn :=
          fun halert => hcalm (sendAll_keeps back.alerted_sends halert hsend).1
        exact reads_sendAll (reads_turn hrecv hreads hmsgs hmid) hfuel hsize hsend hcalm
      · rw [ofOrigin_append, ofOrigin_tagged, if_pos rfl, h.replies, hall]
      · rw [hall]
      · rw [ofOrigin_append, ofOrigin_tagged, if_neg (by decide), List.append_nil, h.own]

theorem talks_own (hfuel : 65536 ≤ fuel')
    (h : Talks back p fl fuel' h₀ r₀ w₀ session sent log)
    (hmsgs : turnMessages rx p fl fuel session turn = some (session, outs))
    (hsends : Sends rx p fl fuel ⟨.looping, session, []⟩ turn) {res : Except FrameError Unit}
    (hsend : sendAll rx fuel session outs = some (res, session'))
    (hcalm : ¬ back.alerted session'.conn) :
    Talks back p fl fuel' h₀ r₀ w₀ session' (sent ++ outs) (log ++ outs.map (Origin.own, ·)) := by
  obtain ⟨hsize, hok⟩ := hsends _ hmsgs
  dsimp only at hsize hok
  rw [hsend] at hok
  obtain e | ⟨⟨⟩⟩ := res
  · cases hok
  · obtain ⟨gs, hreads⟩ := h.reads
    obtain ⟨hacted, hhandlers⟩ := sendAll_same hsend
    refine ⟨?_, ?_, ?_, ?_⟩
    · rw [List.map_append, map_snd_tagged]
      exact reads_sendAll hreads hfuel hsize hsend hcalm
    · rw [ofOrigin_append, ofOrigin_tagged, if_neg (by decide), List.append_nil, hacted, h.replies]
    · rw [hhandlers, hacted, h.handlers]
    · rw [ofOrigin_append, ofOrigin_tagged, if_pos rfl, h.own]

/-- A turn of the loop, with what it serves. -/
theorem talks_turn (hrecv : Receiving back) (hfuel : 65536 ≤ fuel')
    (h : Talks back p fl fuel' h₀ r₀ w₀ session l.sent log) (hnext : MessageLoop.next l x = some l')
    (hspeaks : ∀ turn ∈ turnOf l x, Sends rx p fl fuel ⟨.looping, session, []⟩ turn)
    (hserve : serve rx p.toProst fl fuel l l' session = some session')
    (hcalm : ¬ back.alerted session'.conn) :
    ∃ log', Talks back p fl fuel' h₀ r₀ w₀ session' l'.sent (log ++ log') := by
  obtain ⟨hhandled, hsent⟩ := turnOf_next hnext
  rw [serve, hhandled, hsent, List.drop_left, List.drop_left] at hserve
  rw [hsent]
  cases hturn : turnOf l x with
  | none =>
    rw [hturn] at hserve
    simp only [framesOf, ownOf, handleFrames, sendAll, Option.map_some, Option.some.injEq] at hserve
    subst hserve
    exact ⟨[], by simpa [ownOf] using h⟩
  | some turn =>
    have hsends := hspeaks turn hturn
    rw [hturn] at hserve
    cases turn with
    | request | closed =>
      simp only [framesOf, ownOf, handleFrames, sendAll, Option.map_some, Option.some.injEq]
        at hserve
      subst hserve
      exact ⟨[], by simpa [ownOf] using h⟩
    | frame f =>
      rcases hframe : handleFrames rx p.toProst fl fuel session [f] with _ | after
      · simp [framesOf, hframe] at hserve
      · simp only [framesOf, hframe, ownOf, sendAll, Option.map_some, Option.some.injEq] at hserve
        subst hserve
        obtain ⟨log', htalks⟩ := talks_frame hrecv hfuel h hsends hframe hcalm
        exact ⟨log', by simpa [ownOf] using htalks⟩
    | nav | audio | video =>
      simp only [framesOf, handleFrames, Option.map_eq_some_iff] at hserve
      obtain ⟨⟨res, _⟩, hsend, rfl⟩ := hserve
      exact ⟨_, talks_own hfuel h rfl hsends hsend hcalm⟩

/-- The messages arrive whole, and all that there is to send is sent. -/
def Smooth (rx : Side R) (p : StartupProst) (fl : Sensor.Floats F) (fuel : Nat) (s : Link T R F)
    (ev : Delivery.Event) : Prop :=
  Intact s ev ∧ Speaks rx p fl fuel s ev

instance (rx : Side R) (p : StartupProst) (fl : Sensor.Floats F) (fuel : Nat) (s : Link T R F)
    (ev : Delivery.Event) : Decidable (Smooth rx p fl fuel s ev) :=
  inferInstanceAs (Decidable (_ ∧ _))

/-- What a run of the link has come to. -/
structure Conversing (layer : RecordLayer tx rx) (back : RecordLayer rx hx) (p : StartupProst)
    (fl : Sensor.Floats F) (fuel' : Nat) (h₀ : Handlers F) (r₀ : P) (w₀ : Writer)
    (s : Link T R F) : Prop where
  link : ∃ sent, Delivery.Inv layer sent s
  talks : ∃ log, Talks back p fl fuel' h₀ r₀ w₀ s.session s.loop.sent log

/-- Neither end's TLS library has queued an alert. -/
def Unalerted (layer : RecordLayer tx rx) (back : RecordLayer rx hx) (s : Link T R F) : Prop :=
  ¬ layer.alerted s.peer ∧ ¬ back.alerted s.session.conn

theorem unalerted_back (hrecv : Receiving back)
    (hnext : Delivery.next tx rx p.toProst fl fuel s ev = some s')
    (h : Unalerted layer back s') : Unalerted layer back s := by
  refine ⟨Delivery.calm_back hnext h.1, ?_⟩
  cases next_cases hnext with
  | say _ _ _ => exact h.2
  | loop _ hserve => exact fun halert => h.2 (serve_alerted hrecv hserve halert)

theorem conversing_step (hdup : layer.Duplex) (hrecv : Receiving back) (hfuel : 65536 ≤ fuel')
    (h : Conversing layer back p fl fuel' h₀ r₀ w₀ s)
    (hstep : Guard (Steps (Delivery.next tx rx p.toProst fl fuel)) (Smooth rx p fl fuel) s ev s')
    (hcalm : Unalerted layer back s') : Conversing layer back p fl fuel' h₀ r₀ w₀ s' := by
  obtain ⟨hmove, hintact, hspeaks⟩ := hstep
  have hbefore := unalerted_back hrecv hmove hcalm
  refine ⟨Delivery.inv_step hdup h.link ⟨hmove, hintact, hbefore.1⟩, ?_⟩
  obtain ⟨log, htalks⟩ := h.talks
  cases next_cases hmove with
  | say _ _ _ => exact ⟨log, htalks⟩
  | loop hnext hserve =>
    obtain ⟨log', htalks'⟩ := talks_turn hrecv hfuel htalks hnext hspeaks hserve hcalm.2
    exact ⟨_, htalks'⟩

theorem conversing_run (hdup : layer.Duplex) (hrecv : Receiving back) (hfuel : 65536 ≤ fuel')
    {xs : List Delivery.Event} (h : Conversing layer back p fl fuel' h₀ r₀ w₀ s)
    (hrun : Run (Guard (Steps (Delivery.next tx rx p.toProst fl fuel)) (Smooth rx p fl fuel)) s xs
      s') (hcalm : Unalerted layer back s') : Conversing layer back p fl fuel' h₀ r₀ w₀ s' := by
  refine hrun.invariant (I := fun s => Unalerted layer back s →
    Conversing layer back p fl fuel' h₀ r₀ w₀ s) ?_ (fun _ => h) hcalm
  intro s ev s' hs hstep hcalm
  exact conversing_step hdup hrecv hfuel (hs (unalerted_back hrecv hstep.1 hcalm)) hstep hcalm

/-- The start of the loop, with nothing on its way in either direction. -/
structure Opening (layer : RecordLayer tx rx) (back : RecordLayer rx hx) (peer : T) (r₀ : P)
    (session : Session R F) : Prop where
  settled : layer.Settled peer session.conn []
  queued : layer.queued peer = []
  back_settled : back.Settled session.conn r₀ []
  back_queued : back.queued session.conn = []
  fresh : session.acted = []

theorem conversing_start {peer : T} {spoken : Writer} (h : Opening layer back peer r₀ session) :
    Conversing layer back p fl fuel' session.handlers r₀ session.writer
      (Delivery.start peer spoken session) := by
  refine ⟨⟨[], Delivery.inv_start h.settled h.queued h.fresh⟩, [], ?_, ?_, ?_, rfl⟩
  · exact ⟨[], by simp [Delivery.start, encodeAll], .nil, ⟨r₀, rfl, h.back_settled⟩, h.back_queued⟩
  · simp [Delivery.start, h.fresh, answers, ofOrigin]
  · simp [Delivery.start, h.fresh, answers]

/-- What the head unit has read, once it has read all that is on the wire: the replies to the
messages acted on, and between them what the box had to say of itself, each in order. -/
structure Conversed (hx : Side P) (p : StartupProst) (fl : Sensor.Floats F) (fuel' : Nat)
    (h₀ : Handlers F) (r₀ : P) (s : Link T R F) (chunks : List Bytes)
    (log : List (Origin × OutboundMessage)) : Prop where
  reads : headUnit hx fuel' r₀ chunks = some ((log.map (·.2)).map wholeMessage)
  replies : ofOrigin .reply log = (answers p.toProst fl h₀ s.session.acted).1
  own : ofOrigin .own log = s.loop.sent
  acted : s.session.acted <+: s.said.map wholeMessage
  all : s.loop.coming = [] → s.loop.atHand = [] → s.session.acted = s.said.map wholeMessage

theorem Conversing.conversed (h : Conversing layer back p fl fuel' h₀ r₀ w₀ s) {chunks : List Bytes}
    (hchunks : s.session.writer.wire = w₀.wire ++ chunks.flatten) :
    ∃ log, Conversed hx p fl fuel' h₀ r₀ s chunks log := by
  obtain ⟨sent, hinv⟩ := h.link
  obtain ⟨log, htalks⟩ := h.talks
  obtain ⟨gs, hreads⟩ := htalks.reads
  exact ⟨log, headUnit_reads hreads hchunks, htalks.replies, htalks.own, acted_prefix hinv,
    all_acted hinv⟩

/-- In every order of the head unit's sends, the deliveries, the polls and the messages of the box,
as long as nothing is cut short and neither TLS library has queued an alert. -/
theorem conversation (layer : RecordLayer tx rx) (back : RecordLayer rx hx) (hdup : layer.Duplex)
    (hrecv : Receiving back) {peer : T} {spoken : Writer} {xs : List Delivery.Event}
    (hopening : Opening layer back peer r₀ session) (hfuel : 65536 ≤ fuel')
    (hrun : Run (Guard (Steps (Delivery.next tx rx p.toProst fl fuel)) (Smooth rx p fl fuel))
      (Delivery.start peer spoken session) xs s) (hcalm : Unalerted layer back s)
    {chunks : List Bytes}
    (hchunks : s.session.writer.wire = session.writer.wire ++ chunks.flatten) :
    ∃ log, Conversed hx p fl fuel' session.handlers r₀ s chunks log := by
  have hconv := conversing_run hdup hrecv hfuel (conversing_start hopening) hrun hcalm
  exact hconv.conversed hchunks

/-- The codec that knows the timestamp of a ping, as one byte. -/
def stampBodies : StartupProst :=
  { okBodies with
    pingRequest := fun body => body.getLast?.map fun b => ⟨b.toNat⟩
    pingResponse := fun timestamp => [UInt8.ofNat timestamp.toNat] }

/-- Two pings, of which the second comes in two reads, and a message of the audio queue between
their replies. -/
def twoPings : List Delivery.Event := [
  .say ⟨0, 11, [8, 1]⟩ [[0, 11, 0, 9, 23, 3, 3, 0, 4, 0, 11, 8, 1]], .loop .arrive, .loop .poll,
  .say ⟨0, 11, [8, 2]⟩ [[0, 11, 0, 9, 23, 3, 3], [0, 4, 0, 11, 8, 2]],
  .loop (.audio ⟨4, 0, [7]⟩), .loop .poll, .loop .arrive, .loop .poll, .loop .arrive, .loop .poll]

theorem clear_opening :
    Opening clearLayer clearLayer ⟨[], [], []⟩ ⟨[], [], []⟩ FixRouting.freshSession := by
  have hset : clearLayer.Settled ⟨[], [], []⟩ FixRouting.freshSession.conn [] := by
    refine ⟨?_, rfl, rfl⟩
    intro p hp
    cases hp
  have hback : clearLayer.Settled FixRouting.freshSession.conn ⟨[], [], []⟩ [] := by
    refine ⟨?_, rfl, rfl⟩
    intro p hp
    cases hp
  exact ⟨hset, rfl, hback, rfl, rfl⟩

theorem two_pings_conversed : ∃ (s : Link ClearConn ClearConn Int) (chunks : List Bytes)
    (log : List (Origin × OutboundMessage)),
      Conversed clearSide stampBodies FixRouting.wholeUnits 65536 FixRouting.freshSession.handlers
        ⟨[], [], []⟩ s chunks log ∧
      s.session.acted = [⟨0, 11, [8, 1]⟩, ⟨0, 11, [8, 2]⟩] ∧ s.loop.sent = [⟨4, 0, [7]⟩] := by
  have hrun : (twoPings.foldlM (guarded (Delivery.next clearSide clearSide stampBodies.toProst
      FixRouting.wholeUnits 16) (Smooth clearSide stampBodies FixRouting.wholeUnits 16))
        (Delivery.start ⟨[], [], []⟩ ⟨[], []⟩ FixRouting.freshSession)).any (fun s =>
          s.session.acted = [⟨0, 11, [8, 1]⟩, ⟨0, 11, [8, 2]⟩] ∧
            s.loop.sent = [⟨4, 0, [7]⟩]) = true := by
    decide +kernel
  obtain ⟨s, hrun, hend⟩ := (Option.any_eq_true _ _).mp hrun
  have hwire : s.session.writer.wire =
      FixRouting.freshSession.writer.wire ++ [s.session.writer.wire].flatten := by
    simp [FixRouting.freshSession]
  obtain ⟨log, hlog⟩ := conversation clearLayer clearLayer clear_duplex clear_receiving
    clear_opening (Nat.le_refl 65536) (run_guard_iff_foldlM.mpr hrun) ⟨id, id⟩ hwire
  exact ⟨s, _, log, hlog, of_decide_eq_true hend⟩

end Aabox.Conversation
