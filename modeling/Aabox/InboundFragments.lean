import Aabox.FixRouting

/-! What the receive path makes of a message that arrives in fragments. -/
namespace Aabox.InboundFragments
open Aabox.Lib Aabox.Framing Aabox.Encrypted Aabox.SendEncrypted Aabox.Messages Aabox.HandleFrame

variable {T R F : Type} {tx : Side T} {rx : Side R} {layer : RecordLayer tx rx} {prost : Prost}
  {fl : Sensor.Floats F} {fuel : Nat} {s s' : Session R F} {t : T} {out : OutboundMessage}
  {p : Frame × Bytes} {sent : List (Frame × Bytes)} {recs : List (Bytes × Bytes)}

/-- The messages read off the fronts of the fragments. -/
def fragmentMessages (sent : List (Frame × Bytes)) : List Message :=
  sent.filterMap fun p => (readMessage p.1.channel_id p.2).toOption

def wholeMessage (out : OutboundMessage) : Message := ⟨out.channel, out.message_id, out.payload⟩

/-- The message is acted on at most once, and then as a whole. -/
def ActsWhole (out : OutboundMessage) (before after : List Message) : Prop :=
  after = before ∨ after = before ++ [wholeMessage out]

theorem sendAll_keeps {P : R → Prop} (hkeep : rx.SendsKeep P) {outs : List OutboundMessage}
    {res : Except FrameError Unit} (h : P s.conn) (hrun : sendAll rx fuel s outs = some (res, s')) :
    P s'.conn ∧ s'.acted = s.acted ∧ s'.handlers = s.handlers := by
  induction outs generalizing s with
  | nil =>
    cases hrun
    exact ⟨h, rfl, rfl⟩
  | cons out outs ih =>
    rw [sendAll] at hrun
    cases hsend : sendEncrypted rx fuel s.conn s.writer out with
    | none => simp [hsend] at hrun
    | some result =>
      have hconn := sendEncrypted_keeps hkeep h hsend
      obtain ⟨e | ⟨⟨⟩⟩, conn, writer⟩ := result
      · simp only [hsend, Option.some.injEq, Prod.mk.injEq] at hrun
        obtain ⟨-, rfl⟩ := hrun
        exact ⟨hconn, rfl, rfl⟩
      · simp only [hsend] at hrun
        exact ih (s := { s with conn, writer }) hconn hrun

/-- A fragment is opened and acted on like a message of its own. -/
theorem handleFrame_fragment (hdup : layer.Duplex) (hcalm : ¬ layer.alerted t)
    (henc : p.1.encrypted = true) (h : layer.Settled t s.conn ((p.1.payload, p.2) :: recs))
    {res : Except FrameError Unit}
    (hrun : handleFrame rx prost fl fuel s p.1 = some (res, s')) :
    layer.Settled t s'.conn recs ∧ s'.acted = s.acted ++ fragmentMessages [p] := by
  rw [handleFrame, openFrame, if_pos henc] at hrun
  cases hdec : decryptPayload rx fuel s.conn p.1.payload with
  | none => simp [hdec] at hrun
  | some dec =>
    obtain ⟨hplain, hset⟩ := decryptPayload_some h hcalm hdec
    obtain ⟨plain, conn⟩ := dec
    obtain rfl : plain = .ok p.2 := hplain
    simp only [hdec] at hrun
    cases hmsg : readMessage p.1.channel_id p.2 with
    | error e =>
      simp only [hmsg, Option.some.injEq, Prod.mk.injEq] at hrun
      obtain ⟨-, rfl⟩ := hrun
      exact ⟨hset, by simp [fragmentMessages, hmsg, Except.toOption]⟩
    | ok m =>
      have hfragment : fragmentMessages [p] = [m] := by
        simp [fragmentMessages, hmsg, Except.toOption]
      simp only [hmsg] at hrun
      split at hrun
      · simp only [Option.some.injEq, Prod.mk.injEq] at hrun
        obtain ⟨-, rfl⟩ := hrun
        exact ⟨hset, by rw [hfragment]⟩
      · obtain ⟨hset', hacted, -⟩ := sendAll_keeps hdup.sends hset hrun
        exact ⟨hset', by rw [hacted, hfragment]⟩

theorem handleFrames_acted (hdup : layer.Duplex) (hcalm : ¬ layer.alerted t)
    (henc : ∀ p ∈ sent, p.1.encrypted = true)
    (h : layer.Settled t s.conn (records sent))
    (hrun : handleFrames rx prost fl fuel s (sent.map (·.1)) = some s') :
    s'.acted = s.acted ++ fragmentMessages sent := by
  induction sent generalizing s with
  | nil =>
    cases hrun
    simp [fragmentMessages]
  | cons p sent ih =>
    rw [List.map_cons, handleFrames] at hrun
    cases hone : handleFrame rx prost fl fuel s p.1 with
    | none => simp [hone] at hrun
    | some result =>
      obtain ⟨res, s₁⟩ := result
      simp only [hone] at hrun
      obtain ⟨hset, hacted⟩ := handleFrame_fragment hdup hcalm
        (henc p (List.mem_cons_self ..)) h hone
      rw [ih (fun q hq => henc q (List.mem_cons_of_mem _ hq)) hset hrun, hacted,
        List.append_assoc]
      simp only [fragmentMessages, ← List.filterMap_append, List.singleton_append]

theorem readMessage_plainOf (channel : UInt8) (message_id : UInt16) (payload : Bytes) :
    readMessage channel (plainOf message_id payload) = .ok ⟨channel, message_id, payload⟩ := by
  have hid : UInt16.ofNat (beValue (beBytes 2 message_id.toNat)) = message_id := by
    rw [beValue_beBytes_of_lt (w := 2) message_id.toNat_lt]
    exact UInt16.ofNat_toNat
  change Except.ok
    (Message.mk channel (UInt16.ofNat (beValue (beBytes 2 message_id.toNat))) payload) = _
  rw [hid]

theorem readMessage_ok {plain : Bytes} (channel : UInt8) (h : 2 ≤ plain.length) :
    ∃ m, readMessage channel plain = .ok m ∧ m.body.length + 2 = plain.length := by
  match plain, h with
  | b₁ :: b₀ :: body, _ => exact ⟨_, rfl, rfl⟩
  | [_], h => simp at h
  | [], h => simp at h

theorem fragmentMessages_cons {m : Message} (h : readMessage p.1.channel_id p.2 = .ok m) :
    fragmentMessages (p :: sent) = m :: fragmentMessages sent := by
  simp [fragmentMessages, h, Except.toOption]

/-- The first of several fragments is full, and is taken for a message of its own. -/
theorem fragmentMessages_several (hfrag : Fragments out sent)
    (hlong : MAX_FRAGMENT_PLAINTEXT < (plainOf out.message_id out.payload).length) :
    ∃ m ms, fragmentMessages sent = m :: ms ∧ m.body.length + 2 = MAX_FRAGMENT_PLAINTEXT := by
  obtain ⟨k, htypes⟩ := hfrag.several hlong
  obtain ⟨p, rest, rfl, hfirst, -⟩ := List.map_eq_cons_iff.mp htypes
  have hfull := (hfrag.each p (List.mem_cons_self ..)).full (.inl hfirst)
  have htwo : 2 ≤ p.2.length := by
    rw [hfull]
    decide
  obtain ⟨m, hm, hbody⟩ := readMessage_ok p.1.channel_id htwo
  exact ⟨m, _, fragmentMessages_cons hm, hbody.trans hfull⟩

/-- A message is acted on as a whole exactly when it fits in one frame. -/
theorem acts_whole_iff (layer : RecordLayer tx rx) (hdup : layer.Duplex)
    (hcalm : ¬ layer.alerted t) (hfrag : Fragments out sent)
    (hset : layer.Settled t s.conn (records sent))
    (hrun : handleFrames rx prost fl fuel s (sent.map (·.1)) = some s') :
    ActsWhole out s.acted s'.acted ↔
      (plainOf out.message_id out.payload).length ≤ MAX_FRAGMENT_PLAINTEXT := by
  have hacted := handleFrames_acted hdup hcalm (fun p hp => (hfrag.each p hp).encrypted) hset hrun
  rw [ActsWhole, hacted]
  constructor
  · intro h
    by_contra hlong
    have hlong := Nat.lt_of_not_le hlong
    obtain ⟨m, ms, hms, hbody⟩ := fragmentMessages_several hfrag hlong
    rw [hms] at h
    rcases h with h | h
    · simp at h
    · obtain ⟨rfl, -⟩ : m = wholeMessage out ∧ ms = [] := by simpa using h
      rw [plainOf_length] at hlong
      simp only [wholeMessage] at hbody
      omega
  · intro hshort
    right
    obtain ⟨p, rfl, -⟩ := List.map_eq_singleton_iff.mp (hfrag.single hshort)
    have hplain : p.2 = plainOf out.message_id out.payload := by simpa using hfrag.flatten
    have hchannel := (hfrag.each p (List.mem_cons_self ..)).channel
    rw [fragmentMessages_cons (m := wholeMessage out)]
    · rfl
    · rw [hplain, hchannel, readMessage_plainOf]
      rfl

variable (prost fl) in
/-- A fragment whose message asks for no reply is handled without an error. -/
theorem handleFrame_quiet {m : Message} (hcalm : ¬ layer.alerted t) (henc : p.1.encrypted = true)
    (h : layer.Settled t s.conn ((p.1.payload, p.2) :: recs))
    (hmsg : readMessage p.1.channel_id p.2 = .ok m)
    (hroute : (route prost fl s.handlers m).1 = .ok []) (hc : p.1.payload.length < fuel)
    (hp : p.2.length < fuel) :
    ∃ s', handleFrame rx prost fl fuel s p.1 = some (.ok (), s') ∧
      layer.Settled t s'.conn recs := by
  obtain ⟨conn, hdec, hset⟩ := decryptPayload_ok h hcalm hc hp
  have hopen : openFrame rx fuel s.conn p.1 = some (.ok m, conn) := by
    rw [openFrame, if_pos henc, hdec]
    simp only [hmsg]
  exact ⟨_, handleFrame_ok hopen (Prod.ext hroute rfl), hset⟩

/-- A VoiceSessionRequest in one frame. -/
def voiceSession : List (Frame × Bytes) :=
  [(⟨0, .bulk, false, true, none, clearRecord [0, 0x11]⟩, [0, 0x11])]

/-- A VoiceSessionRequest two bytes too long for one frame; the last fragment reads as a media ack.
-/
def longVoiceSession (zeros : Bytes) : OutboundMessage := ⟨0, 0x11, zeros ++ [0x80, 0x04]⟩

def longFragments (zeros : Bytes) : List (Frame × Bytes) :=
  [(⟨0, .first, false, true, some 7938, clearRecord (0 :: 0x11 :: zeros)⟩, 0 :: 0x11 :: zeros),
    (⟨0, .last, false, true, none, clearRecord [0x80, 0x04]⟩, [0x80, 0x04])]

variable {zeros : Bytes}

theorem length_long (hz : zeros.length = 7934) :
    (plainOf (longVoiceSession zeros).message_id (longVoiceSession zeros).payload).length =
      7938 := by
  simp [plainOf_length, longVoiceSession, hz]

theorem fragments_long (hz : zeros.length = 7934) :
    Fragments (longVoiceSession zeros) (longFragments zeros) := by
  refine ⟨?_, ?_, fun hshort => ?_, fun _ => ⟨0, rfl⟩⟩
  · intro p hp
    simp only [longFragments, List.mem_cons, List.not_mem_nil, or_false] at hp
    rcases hp with rfl | rfl
    · refine ⟨?_, ?_, ?_, rfl, rfl, ?_, ?_, ?_⟩ <;>
        simp [MAX_FRAGMENT_PLAINTEXT, length_long, clearRecord, hz]
    · exact ⟨by decide, by decide, by decide, rfl, rfl, rfl, by decide, by decide⟩
  · have hid : beBytes 2 17 = [0, 17] := by decide
    simp [longFragments, longVoiceSession, plainOf, hid]
  · rw [length_long hz] at hshort
    exact absurd hshort (by decide)

/-- Both fragments are handled, each as a message that asks for no reply. -/
theorem handled_long {t : ClearConn} (hz : zeros.length = 7934)
    (hset : clearLayer.Settled t FixRouting.freshSession.conn (records (longFragments zeros))) :
    ∃ s', handleFrames clearSide emptyBodies FixRouting.wholeUnits 8000
      FixRouting.freshSession ((longFragments zeros).map (·.1)) = some s' := by
  have hcipher : (clearRecord (0 :: 0x11 :: zeros)).length < 8000 := by simp [clearRecord, hz]
  have hplain : (0 :: 0x11 :: zeros).length < 8000 := by simp [hz]
  obtain ⟨s₁, hfirst, hset₁⟩ := handleFrame_quiet emptyBodies
    FixRouting.wholeUnits (m := ⟨0, 0x11, zeros⟩) id rfl hset rfl rfl hcipher hplain
  obtain ⟨s₂, hlast, -⟩ := handleFrame_quiet emptyBodies
    FixRouting.wholeUnits (m := ⟨0, 0x8004, []⟩) id rfl hset₁ rfl rfl
    (by decide : _ < 8000) (by decide)
  refine ⟨s₂, ?_⟩
  simp only [longFragments, List.map_cons, List.map_nil, handleFrames, hfirst, hlast]

theorem settled_long : clearLayer.Settled ⟨[], [], []⟩ FixRouting.freshSession.conn
    (records (longFragments zeros)) := by
  refine ⟨?_, rfl, rfl⟩
  intro p hp
  simp only [records, longFragments, List.map_cons, List.map_nil, List.mem_cons,
    List.not_mem_nil, or_false] at hp
  rcases hp with rfl | rfl <;> rfl

/-- The short VoiceSessionRequest is acted on as a whole, and the long one is not. -/
theorem voice_sessions :
    (∃ s' : Session ClearConn Int, s'.acted = [⟨0, 0x11, []⟩] ∧
      ActsWhole ⟨0, 0x11, []⟩ [] s'.acted) ∧
    ∃ (zeros : Bytes) (s' : Session ClearConn Int), zeros.length = 7934 ∧
      handleFrames clearSide emptyBodies FixRouting.wholeUnits 8000 FixRouting.freshSession
        ((longFragments zeros).map (·.1)) = some s' ∧
      ¬ ActsWhole (longVoiceSession zeros) [] s'.acted := by
  constructor
  · have hfrag : Fragments ⟨0, 0x11, []⟩ voiceSession := by
      refine ⟨?_, rfl, fun _ => rfl, fun hlong => ?_⟩
      · intro p hp
        obtain rfl := List.mem_singleton.mp hp
        exact ⟨by decide, by decide, by decide, rfl, rfl, rfl, by decide, by decide⟩
      · exact absurd hlong (by decide)
    have hset : clearLayer.Settled ⟨[], [], []⟩ FixRouting.freshSession.conn
        (records voiceSession) := by
      refine ⟨?_, rfl, rfl⟩
      intro p hp
      obtain rfl := List.mem_singleton.mp hp
      rfl
    have hrun : handleFrames clearSide emptyBodies FixRouting.wholeUnits 8
        FixRouting.freshSession (voiceSession.map (·.1)) =
          some { FixRouting.freshSession with acted := [⟨0, 0x11, []⟩] } := rfl
    exact ⟨_, rfl, (acts_whole_iff clearLayer clear_duplex id hfrag hset hrun).mpr (by decide)⟩
  · obtain ⟨zeros, hz⟩ : ∃ zeros : Bytes, zeros.length = 7934 :=
      ⟨List.replicate 7934 0, List.length_replicate⟩
    obtain ⟨s', hrun⟩ := handled_long hz settled_long
    refine ⟨zeros, s', hz, hrun, fun hwhole => ?_⟩
    have hshort := (acts_whole_iff clearLayer clear_duplex id (fragments_long hz) settled_long
      hrun).mp hwhole
    rw [length_long hz] at hshort
    exact absurd hshort (by decide)

/-- The last fragment of a long VoiceSessionRequest is taken for a media ack. -/
theorem fragment_taken_for_message :
    ¬ ∀ (out : OutboundMessage) (sent : List (Frame × Bytes)) (fuel : Nat) (t : ClearConn)
        (s s' : Session ClearConn Int),
      Fragments out sent → clearLayer.Settled t s.conn (records sent) →
      handleFrames clearSide emptyBodies FixRouting.wholeUnits fuel s
        (sent.map (·.1)) = some s' →
      ActsWhole out s.acted s'.acted := by
  intro h
  obtain ⟨zeros, hz⟩ : ∃ zeros : Bytes, zeros.length = 7934 :=
    ⟨List.replicate 7934 0, List.length_replicate⟩
  have hset := @settled_long zeros
  obtain ⟨s', hrun⟩ := handled_long hz hset
  have hacted := handleFrames_acted clear_duplex id
    (fun p hp => ((fragments_long hz).each p hp).encrypted) hset hrun
  have hwhole := h _ _ _ _ _ _ (fragments_long hz) hset hrun
  have htwo : (fragmentMessages (longFragments zeros)).length = 2 := rfl
  rw [hacted] at hwhole
  rcases hwhole with hnone | hone
  · have hlen := congrArg List.length hnone
    rw [List.length_append] at hlen
    omega
  · have hlen := congrArg List.length hone
    rw [List.length_append, List.length_append] at hlen
    simp only [List.length_singleton] at hlen
    omega

end Aabox.InboundFragments
