import Aabox.InboundFragments
import Aabox.Lib.Fifo
import Aabox.MessageLoop

/-!
# From the peer to the handlers

The peer sends through the tunnel, the transport delivers in pieces, and the loop reads frames and
handles them, with its own messages going out in between.
-/
namespace Aabox.Delivery
open Aabox.Lib Aabox.Framing Aabox.Control Aabox.Encrypted Aabox.SendEncrypted Aabox.Messages
  Aabox.HandleFrame Aabox.InboundFragments Aabox.MessageLoop

/-- `said` lists the messages the peer has sent, `spoken` is what it has written. -/
structure Link (T R F : Type) where
  peer : T
  spoken : Writer
  said : List OutboundMessage
  loop : Loop
  session : Session R F

/-- The peer sends a message, whose bytes the transport delivers in `parts`. -/
inductive Event
  | say (out : OutboundMessage) (parts : List Bytes)
  | loop (ev : MessageLoop.Event)

variable {T R F : Type}

/-- What a turn of the loop hands to `handle_frame` and to `send_encrypted`. Neither failure ends
the loop. -/
def serve (rx : Side R) (prost : Prost) (fl : Sensor.Floats F) (fuel : Nat) (before after : Loop)
    (session : Session R F) : Option (Session R F) :=
  match handleFrames rx prost fl fuel session (after.handled.drop before.handled.length) with
  | none => none
  | some session =>
    (sendAll rx fuel session (after.sent.drop before.sent.length)).map (·.2)

def next (tx : Side T) (rx : Side R) (prost : Prost) (fl : Sensor.Floats F) (fuel : Nat)
    (s : Link T R F) : Event → Option (Link T R F)
  | .say out parts =>
    match sendEncrypted tx fuel s.peer s.spoken out with
    | some (.ok (), peer, spoken) =>
      if s.loop.src.tail = .open ∧ spoken.wire = s.spoken.wire ++ parts.flatten then
        some { s with peer, spoken, said := s.said ++ [out]
                      loop := { s.loop with coming := s.loop.coming ++ parts } }
      else none
    | _ => none
  | .loop ev =>
    match MessageLoop.next s.loop ev with
    | none => none
    | some loop => (serve rx prost fl fuel s.loop loop s.session).map fun session =>
      { s with loop, session }

def start (peer : T) (spoken : Writer) (session : Session R F) : Link T R F where
  peer := peer
  spoken := spoken
  said := []
  loop := {
    fut := .start, src := ⟨[], .open⟩, coming := [], nav_rx := [], audio_rx := [], video_rx := []
    handled := [], sent := [], running := true }
  session := session

/-- A message fits in one frame, the first read of it brings the frame header, and no outbound
message cancels a read in the middle of a frame. -/
def Intact (s : Link T R F) : Event → Prop
  | .say out parts => Pieces parts ∧
      (plainOf out.message_id out.payload).length ≤ MAX_FRAGMENT_PLAINTEXT ∧
      headerLen .bulk ≤ firstReadLen parts 0
  | .loop ev => NotMidFrame s.loop ev

instance : (s : Link T R F) → (ev : Event) → Decidable (Intact s ev)
  | _, .say _ _ => inferInstanceAs (Decidable (_ ∧ _ ∧ _))
  | s, .loop ev => inferInstanceAs (Decidable (NotMidFrame s.loop ev))

variable {tx : Side T} {rx : Side R} {layer : RecordLayer tx rx} {prost : Prost}
  {fl : Sensor.Floats F} {fuel : Nat} {s s' : Link T R F} {l l' : Loop} {t t' : T} {r : R}
  {w w' : Writer} {out : OutboundMessage} {session session' : Session R F} {f : Frame}
  {rest : List Frame} {cs parts : List Bytes} {recs : List (Bytes × Bytes)}
  {sent : List (Frame × Bytes)} {ev : Event}

theorem handleFrames_settled (hdup : layer.Duplex) (hcalm : ¬ layer.alerted t)
    {p : Frame × Bytes} (henc : p.1.encrypted = true)
    (h : layer.Settled t session.conn ((p.1.payload, p.2) :: recs))
    (hrun : handleFrames rx prost fl fuel session [p.1] = some session') :
    layer.Settled t session'.conn recs ∧
      session'.acted = session.acted ++ fragmentMessages [p] := by
  rw [handleFrames] at hrun
  cases hone : handleFrame rx prost fl fuel session p.1 with
  | none => simp [hone] at hrun
  | some result =>
    obtain ⟨res, after⟩ := result
    simp only [hone, handleFrames, Option.some.injEq] at hrun
    subst hrun
    exact handleFrame_fragment hdup hcalm henc h hone

/-- A message that fits goes out as one frame, which the other end can open after what is already
on its way. -/
theorem sendEncrypted_frame (hin : layer.inFlight t r recs) (hq : layer.queued t = [])
    (hshort : (plainOf out.message_id out.payload).length ≤ MAX_FRAGMENT_PLAINTEXT)
    (h : sendEncrypted tx fuel t w out = some (.ok (), t', w')) :
    ∃ p : Frame × Bytes, w'.wire = w.wire ++ p.1.encode ∧ p.1.Valid ∧ p.1.frame_type = .bulk ∧
      p.1.encrypted = true ∧ fragmentMessages [p] = [wholeMessage out] ∧
      layer.queued t' = [] ∧ layer.inFlight t' r (recs ++ [(p.1.payload, p.2)]) := by
  simp only [sendEncrypted, hshort, if_true, buildEncryptedFrame] at h
  cases henc : encryptPayload tx fuel t (plainOf out.message_id out.payload) with
  | none => simp [henc] at h
  | some res =>
    obtain ⟨e | cipher, conn⟩ := res
    · simp [henc] at h
    · simp only [henc] at h
      split at h
      · simp at h
      · rename_i writer hwrite
        obtain ⟨rfl, rfl⟩ : conn = t' ∧ writer = w' := by simpa using h
        obtain ⟨hover, hq', hin'⟩ := encryptPayload_ok hin hq hshort henc
        refine ⟨(⟨out.channel, .bulk, isChannelControl out.channel out.message_id, true, none,
          cipher⟩, plainOf out.message_id out.payload), writeFrame_ok hwrite, ?_, rfl, rfl, ?_, hq',
          hin'⟩
        · exact ⟨payload_fits hshort hover, by simp⟩
        · exact fragmentMessages_cons (readMessage_plainOf ..)

theorem aligned_append (hcs : Pieces cs) (hparts : Pieces parts) {fs : List Frame} {o : Nat}
    (hlen : cs.flatten.length = o + (encodeAll rest).length) (h : Aligned cs rest o)
    (h' : Aligned parts fs 0) : Aligned (cs ++ parts) (rest ++ fs) o := by
  induction rest generalizing o with
  | nil =>
    obtain rfl : cs.flatten.length = o := by simpa [encodeAll] using hlen
    have hskip := skip_length_append hcs hparts
    rw [← hskip] at h'
    exact (aligned_skip (hcs.append hparts) _ 0).mp h'
  | cons f rest ih =>
    obtain ⟨hhdr, hover, hal⟩ := h
    have hpos := headerLen_pos f.frame_type
    rw [encodeAll_cons, List.length_append] at hlen
    have hread : firstReadLen (cs ++ parts) o = firstReadLen cs o := by
      rw [firstReadLen, readable_append_of_lt (by omega), firstReadLen]
    refine ⟨?_, ?_, ih (by omega) hal⟩
    · rwa [hread]
    · rwa [hread]

theorem aligned_one (hbulk : f.frame_type = .bulk) (hparts : parts.flatten = f.encode)
    (hhdr : headerLen .bulk ≤ firstReadLen parts 0) : Aligned parts [f] 0 := by
  refine ⟨by rwa [hbulk], ?_, trivial⟩
  rw [← hparts]
  exact (Nat.min_le_right ..).trans (readable_zero_le parts)

/-- The schedule with one more frame at its end. -/
def extend (sch : Schedule) (f : Frame) (parts : List Bytes) (hf : f.Valid) (hp : Pieces parts)
    (hparts : parts.flatten = f.encode) (hal : Aligned parts [f] 0) : Schedule where
  frames := sch.frames ++ [f]
  valid := by
    intro g hg
    rcases List.mem_append.mp hg with hg | hg
    · exact sch.valid g hg
    · rwa [List.mem_singleton.mp hg]
  parts := sch.parts ++ parts
  pieces := sch.pieces.append hp
  flatten_eq := by
    rw [List.flatten_append, sch.flatten_eq, hparts, encodeAll_append]
    simp [encodeAll]
  aligned := aligned_append sch.pieces hp (by simp [sch.flatten_eq]) sch.aligned hal

theorem position_append {fut : ReadFut} (h : Position cs fut rest) (hcs : Pieces cs)
    (hp : Pieces parts) (hparts : parts.flatten = f.encode) (hal : Aligned parts [f] 0) :
    Position (cs ++ parts) fut (rest ++ [f]) := by
  have hone : encodeAll [f] = f.encode := by simp [encodeAll]
  cases h with
  | boundary hflat halign =>
    refine .boundary ?_ (aligned_append hcs hp (by simp [hflat]) halign hal)
    rw [List.flatten_append, hflat, hparts, encodeAll_append, hone]
  | @inside g rest k hk hflat halign =>
    rw [List.cons_append]
    refine .inside hk ?_ (aligned_append hcs hp ?_ halign hal)
    · rw [List.flatten_append, hflat, hparts, encodeAll_append, hone, List.append_assoc]
    · rw [hflat, List.length_append, List.length_drop]

theorem sync_say {sch : Schedule} (h : Sync sch l) (hopen : l.src.tail = .open)
    (hlive : l.running = true) (hf : f.Valid) (hp : Pieces parts)
    (hparts : parts.flatten = f.encode) (hal : Aligned parts [f] 0) :
    Sync (extend sch f parts hf hp hparts hal) { l with coming := l.coming ++ parts } := by
  obtain ⟨rest, hrest, hpos⟩ := h.position
  refine ⟨?_, fun hne => (hne hopen).elim, ⟨rest ++ [f], ?_, ?_⟩, ?_⟩
  · rw [← List.append_assoc]
    exact h.pieces.append hp
  · rw [← List.append_assoc, hrest, extend]
  · rw [← List.append_assoc]
    exact position_append hpos h.pieces hp hparts hal
  · intro hstop
    rw [hlive] at hstop
    cases hstop

theorem poll_tail (fut : ReadFut) (src : Source) : (Control.poll fut src).2.tail = src.tail := by
  have hrem : ∀ hdr got (src : Source), (pollRemainder hdr got src).2.tail = src.tail := by
    intro hdr got src
    simp only [pollRemainder]
    split
    · split
      · rfl
      · split <;> rfl
    · rfl
  cases fut with
  | remainder hdr got => exact hrem hdr got src
  | start =>
    obtain ⟨parts, tail⟩ := src
    cases parts with
    | nil => cases tail <;> rfl
    | cons c cs =>
      rw [Control.poll, pollStart_eq (List.cons_ne_nil c cs)]
      split
      · rfl
      · exact hrem ..

/-- A read that fails has found the transport closed. -/
theorem poll_error {sch : Schedule} (h : Sync sch l) {e : ReadError} {src : Source}
    (herr : Control.poll l.fut l.src = (.error e, src)) : l.src.tail ≠ .open := by
  intro hopen
  obtain ⟨rest, -, -, hpolled⟩ := h.polled
  rw [herr] at hpolled
  cases hpolled with
  | closed hhand _ =>
    obtain ⟨hheld, hparts⟩ := List.append_eq_nil_iff.mp hhand
    have hnil := (pieces_left h.pieces).flatten_eq_nil.mp hparts
    have hsrc : l.src = ⟨[], .open⟩ := by
      rw [← hnil, ← hopen]
    cases hfut : l.fut with
    | start =>
      rw [hfut, hsrc, Control.poll, pollStart] at herr
      cases herr
    | remainder hdr got =>
      rw [hfut] at hheld
      cases hheld

/-- A step of the loop hands over one frame and sends nothing, or hands over none. It stops at a
failed read only. -/
structure Turn (l l' : Loop) (frames : List Frame) : Prop where
  handled : l'.handled = l.handled ++ frames
  single : frames = [] ∨ ∃ f, frames = [f] ∧ l'.sent = l.sent
  tail : l'.src.tail = .open → l.src.tail = .open
  stopped : l'.running = false → l.running = false ∨
    ∃ e src, Control.poll l.fut l.src = (.error e, src)

theorem turn_of_next {x : MessageLoop.Event} (h : MessageLoop.next l x = some l') :
    ∃ frames, Turn l l' frames := by
  cases x with
  | arrive =>
    cases hc : l.coming with
    | nil => simp [MessageLoop.next, hc] at h
    | cons part coming =>
      simp only [MessageLoop.next, hc, Option.some.injEq] at h
      subst h
      exact ⟨[], by simp, .inl rfl, id, .inl⟩
  | close tail =>
    simp only [MessageLoop.next, Option.ite_none_right_eq_some, Option.some.injEq] at h
    obtain ⟨⟨-, hopen, -⟩, rfl⟩ := h
    exact ⟨[], by simp, .inl rfl, fun _ => hopen, .inl⟩
  | nav | audio | video =>
    cases h
    exact ⟨[], by simp, .inl rfl, id, .inl⟩
  | poll =>
    simp only [MessageLoop.next, Option.ite_none_right_eq_some, Option.some.injEq] at h
    obtain ⟨-, rfl⟩ := h
    have htail := poll_tail l.fut l.src
    rcases hpoll : Control.poll l.fut l.src with ⟨fut | f | e, src⟩
    · rw [hpoll] at htail
      cases hsel : pollOutbound { l with src } with
      | none =>
        rw [pollSelect_wait hpoll hsel]
        exact ⟨[], by simp, .inl rfl, htail.symm.trans, .inl⟩
      | some l₁ =>
        rw [pollSelect_cancel hpoll hsel]
        obtain ⟨-, hsrc, -, hhandled, hrunning⟩ := pollOutbound_eq hsel
        refine ⟨[], by simp [hhandled], .inl rfl, fun hopen => ?_, fun hstop => ?_⟩
        · rw [← htail, ← hopen, hsrc]
        · exact .inl (hrunning.symm.trans hstop)
    · rw [hpoll] at htail
      rw [pollSelect_done hpoll]
      exact ⟨[f], rfl, .inr ⟨f, rfl, rfl⟩, htail.symm.trans, .inl⟩
    · rw [hpoll] at htail
      rw [pollSelect_error hpoll]
      exact ⟨[], by simp, .inl rfl, htail.symm.trans, fun _ => .inr ⟨e, src, hpoll⟩⟩

/-- `sent` are the frames of what the peer has said; those not yet handled are still sealed. -/
structure Inv (layer : RecordLayer tx rx) (sent : List (Frame × Bytes)) (s : Link T R F) :
    Prop where
  sync : ∃ sch, sch.frames = sent.map (·.1) ∧ Sync sch s.loop
  live : s.loop.src.tail = .open → s.loop.running = true
  settled : layer.Settled s.peer s.session.conn (records (sent.drop s.loop.handled.length))
  queued : layer.queued s.peer = []
  encrypted : ∀ p ∈ sent, p.1.encrypted = true
  messages : fragmentMessages sent = s.said.map wholeMessage
  acted : s.session.acted = fragmentMessages (sent.take s.loop.handled.length)

theorem fragmentMessages_append (sent sent' : List (Frame × Bytes)) :
    fragmentMessages (sent ++ sent') = fragmentMessages sent ++ fragmentMessages sent' :=
  List.filterMap_append

theorem length_handled (h : Inv layer sent s) : s.loop.handled.length ≤ sent.length := by
  obtain ⟨sch, hframes, hsync⟩ := h.sync
  obtain ⟨rest, hrest, -⟩ := hsync.position
  have hlen := congrArg List.length (hrest.trans hframes)
  rw [List.length_append, List.length_map] at hlen
  omega

theorem inv_say (h : Inv layer sent s) {peer : T} {spoken : Writer}
    (hsend : sendEncrypted tx fuel s.peer s.spoken out = some (.ok (), peer, spoken))
    (hopen : s.loop.src.tail = .open) (hwire : spoken.wire = s.spoken.wire ++ parts.flatten)
    (hintact : Intact s (.say out parts)) :
    ∃ p, Inv layer (sent ++ [p]) { s with
      peer, spoken, said := s.said ++ [out]
      loop := { s.loop with coming := s.loop.coming ++ parts } } := by
  obtain ⟨hp, hshort, hhdr⟩ := hintact
  obtain ⟨sch, hframes, hsync⟩ := h.sync
  obtain ⟨p, hbytes, hvalid, hbulk, henc, hmessage, hq, hin⟩ :=
    sendEncrypted_frame h.settled.inFlight h.queued hshort hsend
  have hparts : parts.flatten = p.1.encode := List.append_cancel_left (hwire.symm.trans hbytes)
  have hal := aligned_one hbulk hparts hhdr
  have hle := length_handled h
  refine ⟨p, ⟨_, ?_, sync_say hsync hopen (h.live hopen) hvalid hp hparts hal⟩, h.live, ?_, hq, ?_,
    ?_, ?_⟩
  · simp [extend, hframes]
  · rw [List.drop_append_of_le_length hle, records, List.map_append]
    exact ⟨hin, h.settled.taken, h.settled.opened⟩
  · exact List.forall_mem_append.mpr ⟨h.encrypted, List.forall_mem_singleton.mpr henc⟩
  · rw [fragmentMessages_append, h.messages, hmessage, List.map_append]
    rfl
  · rw [List.take_append_of_le_length hle]
    exact h.acted

/-- The frame that is handed over is the first of those that are still sealed. -/
theorem sent_split {sch : Schedule} (hframes : sch.frames = sent.map (·.1)) (hsync : Sync sch l)
    {before : List Frame} (hhandled : l.handled = before ++ [f]) :
    ∃ p, p.1 = f ∧ sent.drop before.length = p :: sent.drop (before.length + 1) := by
  obtain ⟨rest, hrest, -⟩ := hsync.position
  rw [hframes, hhandled, List.append_assoc, List.singleton_append] at hrest
  obtain ⟨done, left, rfl, hdone, hleft⟩ := List.map_eq_append_iff.mp hrest.symm
  obtain ⟨p, more, rfl, hp, -⟩ := List.map_eq_cons_iff.mp hleft
  refine ⟨p, hp, ?_⟩
  rw [← hdone, List.length_map, List.drop_left, List.drop_length_add_append]
  rfl

theorem inv_turn (hdup : layer.Duplex) (hcalm : ¬ layer.alerted s.peer) (h : Inv layer sent s)
    {x : MessageLoop.Event}
    (hnext : MessageLoop.next s.loop x = some l') (hguard : NotMidFrame s.loop x)
    (hserve : serve rx prost fl fuel s.loop l' s.session = some session') :
    Inv layer sent { s with loop := l', session := session' } := by
  obtain ⟨sch, hframes, hsync⟩ := h.sync
  have hsync' : Sync sch l' := sync_step hsync ⟨hnext, hguard⟩
  obtain ⟨frames, hturn⟩ := turn_of_next hnext
  have hlive : l'.src.tail = .open → l'.running = true := by
    intro hopen
    have hopen' := hturn.tail hopen
    by_contra hstop
    rcases hturn.stopped (by simpa using hstop) with hstop | ⟨e, src, herr⟩
    · rw [h.live hopen'] at hstop
      cases hstop
    · exact poll_error hsync herr hopen'
  have hdrop : l'.handled.drop s.loop.handled.length = frames := by
    rw [hturn.handled, List.drop_left]
  rw [serve, hdrop] at hserve
  have hserved : layer.Settled s.peer session'.conn (records (sent.drop l'.handled.length)) ∧
      session'.acted = fragmentMessages (sent.take l'.handled.length) := by
    rcases hturn.single with rfl | ⟨f, rfl, hsent⟩
    · rw [hturn.handled, List.append_nil]
      simp only [handleFrames, Option.map_eq_some_iff] at hserve
      obtain ⟨⟨res, _⟩, hsend, rfl⟩ := hserve
      obtain ⟨hset, hacted, -⟩ := sendAll_keeps hdup.sends h.settled hsend
      exact ⟨hset, hacted.trans h.acted⟩
    · obtain ⟨p, rfl, hsplit⟩ := sent_split hframes hsync' hturn.handled
      have hp : p ∈ sent := List.drop_subset _ _ (hsplit ▸ List.mem_cons_self ..)
      have hset := h.settled
      rw [hsplit] at hset
      rw [hsent, List.drop_length] at hserve
      cases hone : handleFrames rx prost fl fuel s.session [p.1] with
      | none => simp [hone] at hserve
      | some session =>
        simp only [hone, sendAll, Option.map_some, Option.some.injEq] at hserve
        subst hserve
        obtain ⟨hset', hacted⟩ := handleFrames_settled hdup hcalm
          (h.encrypted p hp) hset hone
        have htake : sent.take (s.loop.handled.length + 1) =
            sent.take s.loop.handled.length ++ [p] := by
          rw [List.take_add, hsplit, List.take_succ_cons, List.take_zero]
        rw [hturn.handled, List.length_append, List.length_singleton]
        refine ⟨hset', ?_⟩
        rw [hacted, h.acted, htake, fragmentMessages_append]
  exact ⟨⟨sch, hframes, hsync'⟩, hlive, hserved.1, h.queued, h.encrypted, h.messages, hserved.2⟩

/-- One step of the link: the peer's send, or a turn of the loop with what it serves. -/
inductive LinkStep (tx : Side T) (rx : Side R) (prost : Prost) (fl : Sensor.Floats F) (fuel : Nat)
    (s : Link T R F) : Event → Link T R F → Prop
  | say {out : OutboundMessage} {parts : List Bytes} {peer : T} {spoken : Writer} :
    sendEncrypted tx fuel s.peer s.spoken out = some (.ok (), peer, spoken) →
    s.loop.src.tail = .open → spoken.wire = s.spoken.wire ++ parts.flatten →
    LinkStep tx rx prost fl fuel s (.say out parts) { s with
      peer, spoken, said := s.said ++ [out]
      loop := { s.loop with coming := s.loop.coming ++ parts } }
  | loop {x : MessageLoop.Event} {loop : Loop} {session : Session R F} :
    MessageLoop.next s.loop x = some loop →
    serve rx prost fl fuel s.loop loop s.session = some session →
    LinkStep tx rx prost fl fuel s (.loop x) { s with loop, session }

theorem next_cases (h : next tx rx prost fl fuel s ev = some s') :
    LinkStep tx rx prost fl fuel s ev s' := by
  cases ev with
  | say out parts =>
    rw [next] at h
    split at h
    · rename_i peer spoken hsend
      simp only [Option.ite_none_right_eq_some, Option.some.injEq] at h
      obtain ⟨⟨hopen, hwire⟩, rfl⟩ := h
      exact .say hsend hopen hwire
    · cases h
  | loop x =>
    rw [next] at h
    split at h
    · cases h
    · rename_i loop hnext
      obtain ⟨session, hserve, rfl⟩ := Option.map_eq_some_iff.mp h
      exact .loop hnext hserve

/-- A peer that is alerted stays so. -/
theorem calm_back (hnext : next tx rx prost fl fuel s ev = some s')
    (h : ¬ layer.alerted s'.peer) : ¬ layer.alerted s.peer := by
  cases next_cases hnext with
  | say hsend _ _ => exact fun halert => h (sendEncrypted_keeps layer.alerted_sends halert hsend)
  | loop _ _ => exact h

/-- The event keeps messages whole, and the peer has queued no alert. -/
def Calm (layer : RecordLayer tx rx) (s : Link T R F) (ev : Event) : Prop :=
  Intact s ev ∧ ¬ layer.alerted s.peer

theorem inv_step (hdup : layer.Duplex) (h : ∃ sent, Inv layer sent s)
    (hstep : Guard (Steps (next tx rx prost fl fuel)) (Calm layer) s ev s') :
    ∃ sent, Inv layer sent s' := by
  obtain ⟨sent, h⟩ := h
  obtain ⟨hmove, hintact, hcalm⟩ := hstep
  cases next_cases hmove with
  | say hsend hopen hwire =>
    obtain ⟨p, hsaid⟩ := inv_say h hsend hopen hwire hintact
    exact ⟨_, hsaid⟩
  | loop hnext hserve => exact ⟨sent, inv_turn hdup hcalm h hnext hintact hserve⟩

theorem said_grows (hstep : Guard (Steps (next tx rx prost fl fuel)) (Calm layer) s ev s') :
    s.said.map wholeMessage <+: s'.said.map wholeMessage := by
  cases next_cases hstep.1 with
  | say _ _ _ =>
    rw [List.map_append]
    exact List.prefix_append _ _
  | loop _ _ => exact List.prefix_rfl

theorem acted_grows (hdup : layer.Duplex) (h : ∃ sent, Inv layer sent s)
    (hstep : Guard (Steps (next tx rx prost fl fuel)) (Calm layer) s ev s') :
    s.session.acted <+: s'.session.acted := by
  obtain ⟨sent, h⟩ := h
  obtain ⟨hmove, hintact, hcalm⟩ := hstep
  cases next_cases hmove with
  | say _ _ _ => exact List.prefix_rfl
  | loop hnext hserve =>
    have h' := inv_turn hdup hcalm h hnext hintact hserve
    obtain ⟨frames, hturn⟩ := turn_of_next hnext
    have hacted : _ = fragmentMessages _ := h'.acted
    dsimp only at hacted ⊢
    rw [hacted, h.acted, hturn.handled, List.length_append, List.take_add, fragmentMessages_append]
    exact List.prefix_append _ _

theorem acted_prefix (h : Inv layer sent s) :
    s.session.acted <+: s.said.map wholeMessage := by
  rw [h.acted, ← h.messages]
  exact (List.take_prefix _ _).filterMap _

variable (prost fl fuel) in
/-- The link is a queue of messages between the peer and the handlers. -/
theorem link_refines (hdup : layer.Duplex) :
    Refines (Guard (Steps (next tx rx prost fl fuel)) (Calm layer)) Fifo.Step fun s q =>
      (∃ sent, Inv layer sent s) ∧ q.pushed = s.said.map wholeMessage ∧
        q.popped = s.session.acted := by
  refine Fifo.refines (fun _ _ _ => inv_step hdup) (fun _ _ _ _ => said_grows)
    (fun _ _ _ => acted_grows hdup) ?_
  rintro s ⟨sent, h⟩
  exact acted_prefix h

theorem inv_start {peer : T} {spoken : Writer} (hset : layer.Settled peer session.conn [])
    (hq : layer.queued peer = []) (hfresh : session.acted = []) :
    Inv layer [] (start peer spoken session) := by
  let none : Schedule :=
    { frames := [], valid := by simp, parts := [], pieces := by decide, flatten_eq := rfl
      aligned := trivial }
  exact ⟨⟨none, rfl, sync_init none⟩, fun _ => rfl, hset, hq, by simp, rfl, hfresh⟩

/-- With nothing left to arrive or at hand, every message has been acted on. -/
theorem all_acted (h : Inv layer sent s) (hcoming : s.loop.coming = [])
    (hhand : s.loop.atHand = []) : s.session.acted = s.said.map wholeMessage := by
  obtain ⟨sch, hframes, hsync⟩ := h.sync
  obtain ⟨rest, hrest, hpos⟩ := hsync.position
  have hv : ∀ f ∈ rest, f.Valid :=
    fun f hf => sch.valid f (hrest ▸ List.mem_append_right _ hf)
  have hleft := hpos.lossless hv
  rw [hcoming, List.append_nil] at hleft
  obtain rfl : rest = [] := encodeAll_eq_nil.mp (hleft.symm.trans hhand)
  have hlen := congrArg List.length (hrest.trans hframes)
  simp only [List.append_nil, List.length_map] at hlen
  rw [h.acted, hlen, List.take_length, h.messages]

/-- In every order of the peer's sends, the deliveries, the polls and the messages of this side,
what the peer says is acted on message by message, in order, each once and whole, for as long as the
peer's TLS library has queued no alert. -/
theorem acts_in_order (layer : RecordLayer tx rx) (hdup : layer.Duplex) {peer : T}
    {spoken : Writer} {xs : List Event} (hset : layer.Settled peer session.conn [])
    (hq : layer.queued peer = []) (hfresh : session.acted = [])
    (hrun : Run (Guard (Steps (next tx rx prost fl fuel)) Intact) (start peer spoken session) xs
      s) (hcalm : ¬ layer.alerted s.peer) :
    (∃ q, Reachable Fifo.Step .empty q ∧ q.pushed = s.said.map wholeMessage ∧
      q.popped = s.session.acted) ∧
    (s.loop.coming = [] → s.loop.atHand = [] → s.session.acted = s.said.map wholeMessage) := by
  have hstart : Inv layer [] (start peer spoken session) := inv_start hset hq hfresh
  have hrefines := link_refines prost fl fuel hdup
  have hfirst : (∃ sent, Inv layer sent (start peer spoken session)) ∧
      (Fifo.empty : Fifo Message).pushed = [] ∧ (Fifo.empty : Fifo Message).popped =
        session.acted := ⟨⟨[], hstart⟩, rfl, hfresh.symm⟩
  have hkept := hrun.guard_back (q := fun s => ¬ layer.alerted s.peer) (fun _ _ _ => calm_back)
    hcalm
  obtain ⟨q, hq, ⟨sent, hinv⟩, hpushed, hpopped⟩ := hrefines.reachable hfirst ⟨xs, hkept⟩
  exact ⟨⟨q, hq, hpushed, hpopped⟩, all_acted hinv⟩

/-- Two pings and an instruction of this side: the instruction goes out between the pings, and the
second ping arrives in two reads. -/
theorem two_pings_acted :
    ∃ s : Link ClearConn ClearConn Int, s.session.acted = [⟨0, 11, [8, 1]⟩, ⟨0, 11, [8, 2]⟩] ∧
      s.session.acted = s.said.map wholeMessage := by
  let s₀ : Link ClearConn ClearConn Int := start ⟨[], [], []⟩ ⟨[], []⟩ FixRouting.freshSession
  let xs : List Event := [
    .say ⟨0, 11, [8, 1]⟩ [[0, 11, 0, 9, 23, 3, 3, 0, 4, 0, 11, 8, 1]], .loop .arrive, .loop .poll,
    .say ⟨0, 11, [8, 2]⟩ [[0, 11, 0, 9, 23, 3, 3], [0, 4, 0, 11, 8, 2]], .loop (.nav ⟨[], 0, 0⟩),
    .loop .poll, .loop .arrive, .loop .poll, .loop .arrive, .loop .poll]
  have hrun : (xs.foldlM (guarded (next clearSide clearSide emptyBodies FixRouting.wholeUnits 16)
      Intact) s₀).any (fun s => s.loop.coming = [] ∧ s.loop.atHand = [] ∧
        s.session.acted = [⟨0, 11, [8, 1]⟩, ⟨0, 11, [8, 2]⟩]) = true := by decide +kernel
  obtain ⟨s, hrun, hend⟩ := (Option.any_eq_true _ _).mp hrun
  obtain ⟨hcoming, hhand, hacted⟩ := of_decide_eq_true hend
  have hset : clearLayer.Settled ⟨[], [], []⟩ FixRouting.freshSession.conn [] := by
    refine ⟨?_, rfl, rfl⟩
    intro p hp
    cases hp
  exact ⟨s, hacted, (acts_in_order clearLayer clear_duplex hset rfl rfl
    (run_guard_iff_foldlM.mpr hrun) id).2 hcoming hhand⟩

end Aabox.Delivery
