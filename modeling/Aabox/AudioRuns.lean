import Aabox.HandleFrame
import Aabox.Lib.Run

/-!
# Sequences of audio messages

What one message does to the state of its channel, and what any sequence of messages leaves of it.
-/
namespace Aabox.Audio
open Aabox.Lib Aabox.Messages Aabox.HandleFrame

inductive MsgKind
  | setup | start | stop | ack | inputOpen | timed | untimed | other
  deriving DecidableEq, Repr

def kindOf (msg_id : UInt16) : MsgKind :=
  if msg_id = MSG_SETUP_REQUEST then .setup
  else if msg_id = MSG_START_INDICATION then .start
  else if msg_id = MSG_STOP_INDICATION then .stop
  else if msg_id = MSG_AV_MEDIA_ACK_INDICATION then .ack
  else if msg_id = MSG_AV_INPUT_OPEN_REQUEST then .inputOpen
  else if msg_id = MSG_AV_MEDIA_WITH_TIMESTAMP_INDICATION then .timed
  else if msg_id = MSG_AV_MEDIA_INDICATION then .untimed
  else .other

/-- The frame that a message carries. -/
def frameOf (a : Message) : Option AudioFrame :=
  match kindOf a.msg_id with
  | .timed => if 8 ≤ a.body.length then some ⟨beValue (a.body.take 8), a.body.drop 8⟩ else none
  | .untimed => some ⟨0, a.body⟩
  | _ => none

/-- The state that a message leaves its channel in. -/
def stateAfter (prost : Prost) (m : AudioChannelManager) (st : AudioChannelState) (a : Message) :
    AudioChannelState :=
  match kindOf a.msg_id with
  | .start =>
    match prost.avChannelStartIndication a.body, st.direction with
    | none, _ => st
    | some req, .output =>
      { st with session := req.session, stop_tx := some m.encoders, started := true }
    | some req, .input =>
      { st with session := req.session, started := true,
                decoder := some (st.decoder.getD st.format) }
  | .stop => { st with started := false, stop_tx := none }
  | .inputOpen =>
    match prost.avInputOpenRequest a.body, st.sink with
    | none, _ => st
    | some req, none =>
      { st with sink := some m.sinks, decoder := some st.format, started := req.open }
    | some req, some _ =>
      { st with started := req.open, decoder := some (st.decoder.getD st.format) }
  | _ => st

/-- The push that a message makes to its channel's sink. -/
def pushOf (st : AudioChannelState) (a : Message) : Option (Nat × AudioFrame) :=
  if st.started then
    match st.sink, frameOf a with
    | some sink, some frame => some (sink, frame)
    | _, _ => none
  else none

/-- The messages of a reply; those of a failed call are none. -/
def outsOf (res : Except HandlerError (List OutboundMessage)) : List OutboundMessage :=
  match res with
  | .ok outs => outs
  | .error _ => []

/-- The acknowledgement of a frame. -/
def ackOf (prost : Prost) (channel : UInt8) (session : Int) : OutboundMessage :=
  ⟨channel, MSG_AV_MEDIA_ACK_INDICATION, prost.encodeAvMediaAck ⟨session, 1⟩⟩

def isAck (channel : UInt8) (out : OutboundMessage) : Bool :=
  out.channel = channel && out.message_id = MSG_AV_MEDIA_ACK_INDICATION

/-- What the handling of a message does, whatever its kind. -/
structure Handled (prost : Prost) (m : AudioChannelManager) (cid : ChannelId)
    (st : AudioChannelState) (a : Message) (r : Reply) : Prop where
  channels : r.2.channels = (m.set cid.toU8 (stateAfter prost m st a)).channels
  sinks : r.2.sinks = m.sinks + if (stateAfter prost m st a).sink = st.sink then 0 else 1
  pushed : r.2.pushed = m.pushed ++ (pushOf st a).toList
  replies : ∀ out ∈ outsOf r.1, out.channel = cid.toU8
  acks : (outsOf r.1).filter (isAck cid.toU8) =
    (pushOf st a).toList.map fun _ => ackOf prost cid.toU8 st.session

variable {prost : Prost} {m m' m₁ : AudioChannelManager} {cid : ChannelId} {st : AudioChannelState}
  {c channel : UInt8} {msg_id : UInt16} {a : Message} {payload : Bytes}

theorem handle_kind (prost : Prost) (payload : Bytes)
    (hs : ensureState m channel = some (cid, st, m₁)) :
    m.handle prost channel msg_id payload =
      match kindOf msg_id with
      | .setup => onSetupRequest prost m₁ cid payload
      | .start => onStartIndication prost m₁ cid st payload
      | .stop => onStopIndication m₁ cid st
      | .ack => (.ok [], m₁)
      | .inputOpen => onInputOpen prost m₁ cid st payload
      | .timed => onDataFrame prost m₁ cid st payload true
      | .untimed => onDataFrame prost m₁ cid st payload false
      | .other => (.ok [], m₁) := by
  unfold AudioChannelManager.handle kindOf
  rw [hs]
  dsimp only
  split_ifs <;> rfl

theorem set_self (h : m.channels channel = some st) : (m.set channel st).channels = m.channels := by
  funext c
  simp only [AudioChannelManager.set]
  split
  · rename_i hc
    rw [hc, h]
  · rfl

/-- A message that is only looked at. -/
theorem handled_same (hst : m.channels cid.toU8 = some st) (hafter : stateAfter prost m st a = st)
    (hpush : pushOf st a = none) {res : Except HandlerError (List OutboundMessage)}
    (hres : ∀ out ∈ outsOf res,
      out.channel = cid.toU8 ∧ out.message_id ≠ MSG_AV_MEDIA_ACK_INDICATION) :
    Handled prost m cid st a (res, m) where
  channels := by rw [hafter, set_self hst]
  sinks := by simp [hafter]
  pushed := by simp [hpush]
  replies out hout := (hres out hout).1
  acks := by
    rw [hpush]
    refine List.filter_eq_nil_iff.mpr ?_
    intro out hout
    simp [isAck, (hres out hout).2]

theorem setup_handled (hk : kindOf a.msg_id = .setup) (hst : m.channels cid.toU8 = some st) :
    Handled prost m cid st a (onSetupRequest prost m cid a.body) := by
  have hpush : pushOf st a = none := by simp [pushOf, frameOf, hk]
  have hafter : stateAfter prost m st a = st := by simp [stateAfter, hk]
  have hid : MSG_SETUP_RESPONSE ≠ MSG_AV_MEDIA_ACK_INDICATION := by decide
  unfold onSetupRequest
  split
  · exact handled_same hst hafter hpush (by simp [outsOf])
  · refine handled_same hst hafter hpush ?_
    intro out hout
    obtain rfl := List.mem_singleton.mp hout
    exact ⟨rfl, hid⟩

theorem start_handled (hk : kindOf a.msg_id = .start) (hst : m.channels cid.toU8 = some st) :
    Handled prost m cid st a (onStartIndication prost m cid st a.body) := by
  have hpush : pushOf st a = none := by simp [pushOf, frameOf, hk]
  unfold onStartIndication
  cases hreq : prost.avChannelStartIndication a.body with
  | none =>
    have hafter : stateAfter prost m st a = st := by simp [stateAfter, hk, hreq]
    exact handled_same hst hafter hpush (by simp [outsOf])
  | some req =>
    cases hdir : st.direction with
    | output =>
      constructor <;>
        simp [stateAfter, hk, hreq, hdir, hpush, outsOf, AudioChannelManager.set]
    | input =>
      constructor <;>
        simp [stateAfter, hk, hreq, hdir, hpush, outsOf, AudioChannelManager.set]

theorem stop_handled (hk : kindOf a.msg_id = .stop) :
    Handled prost m cid st a (onStopIndication m cid st) := by
  have hpush : pushOf st a = none := by simp [pushOf, frameOf, hk]
  constructor <;>
    simp [onStopIndication, stateAfter, hk, hpush, outsOf, AudioChannelManager.set]

theorem inputOpen_handled (hk : kindOf a.msg_id = .inputOpen)
    (hst : m.channels cid.toU8 = some st) :
    Handled prost m cid st a (onInputOpen prost m cid st a.body) := by
  have hpush : pushOf st a = none := by simp [pushOf, frameOf, hk]
  have hid : MSG_AV_INPUT_OPEN_RESPONSE ≠ MSG_AV_MEDIA_ACK_INDICATION := by decide
  unfold onInputOpen
  cases hreq : prost.avInputOpenRequest a.body with
  | none =>
    have hafter : stateAfter prost m st a = st := by simp [stateAfter, hk, hreq]
    exact handled_same hst hafter hpush (by simp [outsOf])
  | some req =>
    cases hsink : st.sink with
    | none =>
      constructor <;>
        simp [stateAfter, hk, hreq, hsink, hpush, outsOf, isAck, hid, AudioChannelManager.set]
    | some sink =>
      constructor <;>
        simp [stateAfter, hk, hreq, hsink, hpush, outsOf, isAck, hid, AudioChannelManager.set]

theorem frameOf_decode {with_timestamp : Bool}
    (hk : kindOf a.msg_id = if with_timestamp then .timed else .untimed) :
    frameOf a = (decode a.body with_timestamp).toOption := by
  cases with_timestamp with
  | false => simp [frameOf, hk, decode, Except.toOption]
  | true =>
    by_cases hlen : a.body.length < 8
    · simp [frameOf, hk, decode, hlen, Except.toOption]
    · simp [frameOf, hk, decode, hlen, Nat.le_of_not_lt hlen, Except.toOption]

theorem data_handled {with_timestamp : Bool}
    (hk : kindOf a.msg_id = if with_timestamp then .timed else .untimed)
    (hst : m.channels cid.toU8 = some st) :
    Handled prost m cid st a (onDataFrame prost m cid st a.body with_timestamp) := by
  have hframe := frameOf_decode hk
  have hafter : stateAfter prost m st a = st := by
    cases with_timestamp <;> simp [stateAfter, hk]
  unfold onDataFrame
  split
  · rename_i hstarted
    cases hsink : st.sink with
    | none =>
      have hpush : pushOf st a = none := by simp [pushOf, hsink]
      exact handled_same hst hafter hpush (by simp [outsOf])
    | some sink =>
      dsimp only
      cases hdec : decode a.body with_timestamp with
      | error e =>
        have hpush : pushOf st a = none := by simp [pushOf, hframe, hdec, Except.toOption]
        exact handled_same hst hafter hpush (by simp [outsOf])
      | ok frame =>
        have hpush : pushOf st a = some (sink, frame) := by
          simp [pushOf, hstarted, hsink, hframe, hdec, Except.toOption]
        constructor
        · rw [hafter, set_self hst]
        · simp [hafter]
        · simp [hpush]
        · simp [outsOf]
        · simp [hpush, outsOf, isAck, ackOf]
  · rename_i hstarted
    have hpush : pushOf st a = none := by simp [pushOf, hstarted]
    exact handled_same hst hafter hpush (by simp [outsOf])

theorem handle_handled (prost : Prost) (hs : ensureState m a.channel = some (cid, st, m₁))
    (hst : m₁.channels cid.toU8 = some st) :
    Handled prost m₁ cid st a (m.handle prost a.channel a.msg_id a.body) := by
  rw [handle_kind prost a.body hs]
  cases hk : kindOf a.msg_id with
  | setup => exact setup_handled hk hst
  | start => exact start_handled hk hst
  | stop => exact stop_handled hk
  | inputOpen => exact inputOpen_handled hk hst
  | timed => exact data_handled hk hst
  | untimed => exact data_handled hk hst
  | ack =>
    exact handled_same hst (by simp [stateAfter, hk]) (by simp [pushOf, frameOf, hk])
      (by simp [outsOf])
  | other =>
    exact handled_same hst (by simp [stateAfter, hk]) (by simp [pushOf, frameOf, hk])
      (by simp [outsOf])

/-! ### The state of a channel over a whole run -/

/-- The state that a channel has before its first message. -/
def AudioChannelState.Fresh (st : AudioChannelState) : Prop :=
  st.started = false ∧ st.sink = none ∧ st.stop_tx = none ∧ st.session = 0 ∧ st.decoder = none

/-- What `ensureState` leaves: the channel's own state, or a fresh one, and all else as it was. -/
structure Ensured (m : AudioChannelManager) (channel : UInt8) (cid : ChannelId)
    (st : AudioChannelState) (m₁ : AudioChannelManager) : Prop where
  toU8 : cid.toU8 = channel
  direction : (directionOf cid).isSome
  own : m₁.channels channel = some st
  others : ∀ c, c ≠ channel → m₁.channels c = m.channels c
  old : m.channels channel = some st ∧ m₁ = m ∨
    m.channels channel = none ∧ m₁ = m.set channel st ∧ st.Fresh
  sinks : m₁.sinks = m.sinks
  pushed : m₁.pushed = m.pushed

theorem ensured (hs : ensureState m channel = some (cid, st, m₁)) :
    Ensured m channel cid st m₁ := by
  rcases ensureState_cases hs with
    ⟨htoU8, hdir, ⟨hst, rfl⟩ | ⟨hnone, rfl, -, hsink, hstop, hsession, hdecoder, hstarted⟩⟩
  · exact ⟨htoU8, hdir, hst, fun _ _ => rfl, .inl ⟨hst, rfl⟩, rfl, rfl⟩
  · refine ⟨htoU8, hdir, by simp [AudioChannelManager.set], ?_,
      .inr ⟨hnone, rfl, hstarted, hsink, hstop, hsession, hdecoder⟩, rfl, rfl⟩
    intro c hc
    simp [AudioChannelManager.set, hc]

/-- A call on a channel that is none of the manager's does nothing. -/
theorem handle_or (prost : Prost) (m : AudioChannelManager) (a : Message) :
    m.handle prost a.channel a.msg_id a.body = (.ok [], m) ∨
      ∃ cid st m₁, Ensured m a.channel cid st m₁ ∧
        Handled prost m₁ cid st a (m.handle prost a.channel a.msg_id a.body) := by
  cases hs : ensureState m a.channel with
  | none =>
    left
    unfold AudioChannelManager.handle
    rw [hs]
  | some x =>
    obtain ⟨cid, st, m₁⟩ := x
    have he : Ensured m a.channel cid st m₁ := ensured hs
    exact .inr ⟨cid, st, m₁, he, handle_handled prost hs (he.toU8.symm ▸ he.own)⟩

theorem Handled.own {r : Reply} (he : Ensured m a.channel cid st m₁)
    (hh : Handled prost m₁ cid st a r) :
    r.2.channels a.channel = some (stateAfter prost m₁ st a) := by
  rw [hh.channels, ← he.toU8]
  simp [AudioChannelManager.set]

theorem Handled.others {r : Reply} (he : Ensured m a.channel cid st m₁)
    (hh : Handled prost m₁ cid st a r) (hc : c ≠ a.channel) : r.2.channels c = m.channels c := by
  rw [hh.channels, ← he.others c hc]
  simp [AudioChannelManager.set, he.toU8, hc]

/-- A message changes the state of its own channel only. -/
theorem handle_frame (hc : c ≠ a.channel) :
    (m.handle prost a.channel a.msg_id a.body).2.channels c = m.channels c := by
  rcases handle_or prost m a with hsame | ⟨cid, st, m₁, he, hh⟩
  · rw [hsame]
  · exact Handled.others he hh hc

/-- A running encoder's handle is there exactly on a started output channel. -/
def StateSound (c : UInt8) (st : AudioChannelState) : Prop :=
  if c = ChannelId.mediaAudio.toU8 then st.started = true ↔ st.stop_tx.isSome = true
  else st.stop_tx = none

instance (c : UInt8) (st : AudioChannelState) : Decidable (StateSound c st) :=
  inferInstanceAs (Decidable (if c = _ then (st.started = true ↔ _ = true) else _ = _))

def AudioChannelManager.Sound (m : AudioChannelManager) : Prop :=
  ∀ c st, m.channels c = some st → StateSound c st

/-- The call of `handle` for one message. -/
def Handles (prost : Prost) (m : AudioChannelManager) (a : Message) (m' : AudioChannelManager) :
    Prop :=
  m' = (m.handle prost a.channel a.msg_id a.body).2

def AudioChannelManager.isStarted (m : AudioChannelManager) (c : UInt8) : Bool :=
  (m.channels c).any (·.started)

/-- No open request reaches the output channel with an `open` other than what it has. -/
def Regular (prost : Prost) (m : AudioChannelManager) (a : Message) : Prop :=
  a.channel = ChannelId.mediaAudio.toU8 → kindOf a.msg_id = .inputOpen →
    ∀ req, prost.avInputOpenRequest a.body = some req →
      req.open = m.isStarted a.channel

/-- A call leaves every channel's state sound, and the other channels' states as they were. -/
def LeavesSound (prost : Prost) (m : AudioChannelManager) (a : Message) : Prop :=
  (m.handle prost a.channel a.msg_id a.body).2.Sound ∧
    ∀ c, c ≠ a.channel → (m.handle prost a.channel a.msg_id a.body).2.channels c = m.channels c

theorem Ensured.started (h : Ensured m channel cid st m₁) : m.isStarted channel = st.started := by
  rcases h.old with ⟨hst, -⟩ | ⟨hst, -, hfresh, -⟩
  · simp [AudioChannelManager.isStarted, hst]
  · simp [AudioChannelManager.isStarted, hst, hfresh]

theorem Ensured.sound (h : Ensured m channel cid st m₁) (hm : m.Sound) : StateSound channel st := by
  rcases h.old with ⟨hst, -⟩ | ⟨-, -, hstarted, -, hstop, -⟩
  · exact hm channel st hst
  · simp [StateSound, hstarted, hstop]

/-- The output channel's state stays sound unless an open request changes `started`. -/
theorem media_after (hdir : st.direction = .output)
    (hst : st.started = true ↔ st.stop_tx.isSome = true) :
    ((stateAfter prost m st a).started = true ↔ (stateAfter prost m st a).stop_tx.isSome = true) ↔
      (kindOf a.msg_id = .inputOpen →
        ∀ req, prost.avInputOpenRequest a.body = some req → req.open = st.started) := by
  unfold stateAfter
  cases hk : kindOf a.msg_id with
  | start => cases prost.avChannelStartIndication a.body <;> simp [hdir, hst]
  | stop => simp
  | inputOpen =>
    cases hreq : prost.avInputOpenRequest a.body with
    | none => simp [hst]
    | some req => cases st.sink <;> cases req.open <;> simp [← hst]
  | _ => simp [hst]

theorem input_after (hdir : st.direction = .input) (hst : st.stop_tx = none) :
    (stateAfter prost m st a).stop_tx = none := by
  unfold stateAfter
  cases kindOf a.msg_id with
  | start => cases prost.avChannelStartIndication a.body <;> simp [hdir, hst]
  | inputOpen =>
    cases prost.avInputOpenRequest a.body <;> cases st.sink <;> simp [hst]
  | stop => rfl
  | _ => exact hst

/-- Only the message's own channel has a new state to check. -/
theorem leavesSound_iff_own (hm : m.Sound)
    (hown : (m.handle prost a.channel a.msg_id a.body).2.channels a.channel = some st') :
    LeavesSound prost m a ↔ StateSound a.channel st' := by
  refine ⟨fun h => h.1 _ _ hown, fun h => ⟨?_, fun c => handle_frame⟩⟩
  intro c st'' hst''
  by_cases hc : c = a.channel
  · subst hc
    obtain rfl := Option.some.inj (hown.symm.trans hst'')
    exact h
  · exact hm c st'' ((handle_frame hc).symm.trans hst'')

/-- What is no audio channel has no state to spoil. -/
theorem leavesSound_none (hm : m.Sound) (hs : ensureState m a.channel = none) :
    LeavesSound prost m a ∧ Regular prost m a := by
  have hsame : (m.handle prost a.channel a.msg_id a.body).2 = m := by
    rw [AudioChannelManager.handle, hs]
  refine ⟨⟨by rw [hsame]; exact hm, fun c => handle_frame⟩, ?_⟩
  intro hmedia
  have hsome : (ensureState m a.channel).isSome := ensureState_media (by rw [hmedia]; decide)
  rw [hs] at hsome
  cases hsome

/-- A call keeps a sound manager sound exactly if it is regular. -/
theorem leavesSound_iff (hd : m.Directed) (hm : m.Sound) :
    LeavesSound prost m a ↔ Regular prost m a := by
  cases hs : ensureState m a.channel with
  | none =>
    obtain ⟨hleaves, hreg⟩ := leavesSound_none hm hs
    exact ⟨fun _ => hreg, fun _ => hleaves⟩
  | some x =>
    obtain ⟨cid, st, m₁⟩ := x
    have he : Ensured m a.channel cid st m₁ := ensured hs
    have hh := handle_handled prost hs (he.toU8.symm ▸ he.own)
    have hst : StateSound a.channel st := he.sound hm
    obtain ⟨hcid, hdir, -⟩ := ensureState_some hd hs
    rw [leavesSound_iff_own hm (Handled.own he hh)]
    unfold StateSound at hst ⊢
    unfold Regular
    by_cases hmedia : a.channel = ChannelId.mediaAudio.toU8
    · have hout : st.direction = .output := by
        rw [hmedia, ChannelId.tryFrom_toU8] at hcid
        cases hcid
        exact (Option.some.inj hdir).symm
      rw [if_pos hmedia] at hst ⊢
      rw [media_after hout hst, he.started]
      exact ⟨fun h _ => h, fun h => h hmedia⟩
    · have hin : st.direction = .input := by
        have hne : cid ≠ .mediaAudio := fun h => hmedia (by rw [← he.toU8, h])
        cases cid <;> simp_all [directionOf]
      rw [if_neg hmedia] at hst ⊢
      exact ⟨fun _ h => absurd h hmedia, fun _ => input_after hin hst⟩

/-- Every call of a sequence leaves the states sound and the other channels alone, exactly if every
call is regular. -/
theorem sound_run_iff (prost : Prost) (xs : List Message) (m : AudioChannelManager) :
    Run (Guard (Handles prost) (LeavesSound prost)) .new xs m ↔
      Run (Guard (Handles prost) (Regular prost)) .new xs m := by
  have hinit : AudioChannelManager.new.Directed ∧ AudioChannelManager.new.Sound :=
    ⟨directed_new, fun c st h => by cases h⟩
  have hiff : ∀ m a m', m.Directed ∧ m.Sound → Handles prost m a m' →
      (LeavesSound prost m a ↔ Regular prost m a) := fun m a m' hm _ => leavesSound_iff hm.1 hm.2
  have hkeep : ∀ m a m', m.Directed ∧ m.Sound → Guard (Handles prost) (LeavesSound prost) m a m' →
      m'.Directed ∧ m'.Sound := by
    rintro m a m' hm ⟨rfl, hleaves⟩
    exact ⟨(handle_keeps hm.1).1, hleaves.1⟩
  constructor
  · intro hrun
    exact hrun.guard_mono hkeep (fun m a m' hm h => (hiff m a m' hm h).mp) hinit
  · intro hrun
    refine hrun.guard_mono ?_ (fun m a m' hm h => (hiff m a m' hm h).mpr) hinit
    rintro m a m' hm ⟨hstep, hreg⟩
    exact hkeep m a m' hm ⟨hstep, (hiff m a m' hm hstep).mpr hreg⟩

/-- The codec that knows the two bodies of an open request. -/
def openBodies : Prost :=
  { emptyBodies with
    avInputOpenRequest := fun body =>
      if body = [0x08, 0x01] then some ⟨true⟩ else if body = [0x08, 0x00] then some ⟨false⟩
      else none }

/-- An open request on the output channel starts it without an encoder. -/
theorem open_on_media_unsound :
    ¬ ∀ prost xs m, Run (Handles prost) .new xs m → m.Sound := by
  intro h
  have hsound := h openBodies [⟨4, 0x8005, [0x08, 0x01]⟩] _ (.stepL rfl .refl)
  have hstate := hsound 4 _ rfl
  revert hstate
  decide

end Aabox.Audio
