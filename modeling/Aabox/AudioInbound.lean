import Aabox.AudioRuns

/-!
# Delivery of inbound audio

Every frame that a started channel with a sink receives is pushed and acknowledged once, in order,
whatever the sink answers and whatever the other channels receive in between.
-/
namespace Aabox.Audio
open Aabox.Lib Aabox.Messages Aabox.HandleFrame

/-- `on_data_frame` with what the sink's `push` returns, and the warnings it logs. -/
def onDataFramePush (prost : Prost) (push : Except String Unit) (m : AudioChannelManager)
    (cid : ChannelId) (st : AudioChannelState) (payload : Bytes) (with_timestamp : Bool) :
    Reply × List String :=
  if st.started then
    match st.sink with
    | none => ((.ok [], m), [])
    | some sink =>
      match decode payload with_timestamp with
      | .error e => ((.error e, m), [])
      | .ok frame =>
        let m := { m with pushed := m.pushed ++ [(sink, frame)] }
        let log := match push with
          | .error e => [s!"audio: sink push failed: {e}"]
          | .ok () => []
        ((.ok [⟨cid.toU8, MSG_AV_MEDIA_ACK_INDICATION,
          prost.encodeAvMediaAck ⟨st.session, 1⟩⟩], m), log)
  else ((.ok [], m), [])

/-- `handle` with what a sink's `push` returns, should the message come to one. -/
def AudioChannelManager.handlePush (prost : Prost) (push : Except String Unit)
    (m : AudioChannelManager) (channel : UInt8) (msg_id : UInt16) (payload : Bytes) :
    Reply × List String :=
  match ensureState m channel with
  | none => ((.ok [], m), [])
  | some (cid, st, m) =>
    if msg_id = MSG_SETUP_REQUEST then (onSetupRequest prost m cid payload, [])
    else if msg_id = MSG_START_INDICATION then (onStartIndication prost m cid st payload, [])
    else if msg_id = MSG_STOP_INDICATION then (onStopIndication m cid st, [])
    else if msg_id = MSG_AV_MEDIA_ACK_INDICATION then ((.ok [], m), [])
    else if msg_id = MSG_AV_INPUT_OPEN_REQUEST then (onInputOpen prost m cid st payload, [])
    else if msg_id = MSG_AV_MEDIA_WITH_TIMESTAMP_INDICATION then
      onDataFramePush prost push m cid st payload true
    else if msg_id = MSG_AV_MEDIA_INDICATION then
      onDataFramePush prost push m cid st payload false
    else ((.ok [], m), [])

/-- A message, and what the sink's push of its frame would return. -/
abbrev Call := Message × Except String Unit

/-- The messages sent back over a sequence of calls, and the manager it leaves. -/
def handleAll (prost : Prost) (m : AudioChannelManager) :
    List Call → List OutboundMessage × AudioChannelManager
  | [] => ([], m)
  | (a, push) :: xs =>
    let r := (m.handlePush prost push a.channel a.msg_id a.body).1
    let (outs, m) := handleAll prost r.2 xs
    (outsOf r.1 ++ outs, m)

/-! ### What the messages of a channel ask for -/

/-- What a message says about its channel being started. -/
def gateOf (prost : Prost) (a : Message) : Option Bool :=
  match kindOf a.msg_id with
  | .start => (prost.avChannelStartIndication a.body).map fun _ => true
  | .stop => some false
  | .inputOpen => (prost.avInputOpenRequest a.body).map (·.open)
  | _ => none

def sessionOf (prost : Prost) (a : Message) : Option Int :=
  match kindOf a.msg_id with
  | .start => (prost.avChannelStartIndication a.body).map (·.session)
  | _ => none

/-- A decodable open request attaches a sink, also one with `open` false. -/
def attachesSink (prost : Prost) (a : Message) : Bool :=
  match kindOf a.msg_id with
  | .inputOpen => (prost.avInputOpenRequest a.body).isSome
  | _ => false

/-- `past` are the messages that the channel has received, in order. -/
def startedAfter (prost : Prost) (past : List Message) : Bool :=
  (past.filterMap (gateOf prost)).getLast?.getD false

def latestSession (prost : Prost) (past : List Message) : Int :=
  (past.filterMap (sessionOf prost)).getLast?.getD 0

def sinkAfter (prost : Prost) (past : List Message) : Bool := past.any (attachesSink prost)

/-- The frame that is taken from the next message of a channel. -/
def accepted (prost : Prost) (past : List Message) (a : Message) : Option AudioFrame :=
  if startedAfter prost past && sinkAfter prost past then frameOf a else none

/-- The frames taken from a channel's messages, each with the session it is acknowledged under. -/
def deliveries (prost : Prost) (past : List Message) : List Message → List (AudioFrame × Int)
  | [] => []
  | a :: msgs =>
    ((accepted prost past a).map fun frame => (frame, latestSession prost past)).toList ++
      deliveries prost (past ++ [a]) msgs

/-- The messages of one channel. -/
def onChannel (c : UInt8) (xs : List Call) : List Message :=
  (xs.map (·.1)).filter (·.channel = c)

def AudioChannelManager.sinkOf (m : AudioChannelManager) (c : UInt8) : Option Nat :=
  (m.channels c).bind (·.sink)

/-- The frames pushed to the sink of a channel. -/
def AudioChannelManager.pushesTo (m : AudioChannelManager) (c : UInt8) : List AudioFrame :=
  (m.pushed.filter fun p => m.sinkOf c = some p.1).map (·.2)

/-- The channel's state is what the messages it has received ask for. -/
structure Follows (prost : Prost) (m : AudioChannelManager) (c : UInt8) (past : List Message) :
    Prop where
  started : m.isStarted c = startedAfter prost past
  sink : (m.sinkOf c).isSome = sinkAfter prost past
  session : (m.channels c).elim 0 (·.session) = latestSession prost past

/-- A sink belongs to one channel, and pushes were made to sinks only. -/
structure Numbered (m : AudioChannelManager) : Prop where
  bound : ∀ c s, m.sinkOf c = some s → s < m.sinks
  inj : ∀ c c' s, m.sinkOf c = some s → m.sinkOf c' = some s → c = c'
  pushed : ∀ p ∈ m.pushed, p.1 < m.sinks

variable {prost : Prost} {push : Except String Unit} {m m₁ : AudioChannelManager} {cid : ChannelId}
  {st : AudioChannelState} {c channel : UInt8} {msg_id : UInt16} {payload : Bytes} {a : Message}
  {past : List Message}

/-- What a push returns changes nothing but the log. -/
theorem onDataFramePush_fst (with_timestamp : Bool) :
    (onDataFramePush prost push m cid st payload with_timestamp).1 =
      onDataFrame prost m cid st payload with_timestamp := by
  unfold onDataFramePush onDataFrame
  split
  · cases st.sink with
    | none => rfl
    | some sink => cases decode payload with_timestamp <;> rfl
  · rfl

theorem handlePush_fst :
    (m.handlePush prost push channel msg_id payload).1 = m.handle prost channel msg_id payload := by
  unfold AudioChannelManager.handlePush AudioChannelManager.handle
  cases ensureState m channel with
  | none => rfl
  | some x =>
    dsimp only
    split_ifs
    case pos => rfl
    case pos => rfl
    case pos => rfl
    case pos => rfl
    case pos => rfl
    case pos => exact onDataFramePush_fst true
    case pos => exact onDataFramePush_fst false
    case neg => rfl

theorem startedAfter_append :
    startedAfter prost (past ++ [a]) = (gateOf prost a).getD (startedAfter prost past) := by
  unfold startedAfter
  cases h : gateOf prost a <;> simp [List.filterMap_append, h]

theorem latestSession_append :
    latestSession prost (past ++ [a]) = (sessionOf prost a).getD (latestSession prost past) := by
  unfold latestSession
  cases h : sessionOf prost a <;> simp [List.filterMap_append, h]

theorem sinkAfter_append :
    sinkAfter prost (past ++ [a]) = (sinkAfter prost past || attachesSink prost a) := by
  simp [sinkAfter]

theorem stateAfter_started :
    (stateAfter prost m st a).started = (gateOf prost a).getD st.started := by
  unfold stateAfter gateOf
  cases kindOf a.msg_id with
  | start => cases prost.avChannelStartIndication a.body <;> cases st.direction <;> rfl
  | inputOpen => cases prost.avInputOpenRequest a.body <;> cases st.sink <;> rfl
  | _ => rfl

theorem stateAfter_session :
    (stateAfter prost m st a).session = (sessionOf prost a).getD st.session := by
  unfold stateAfter sessionOf
  cases kindOf a.msg_id with
  | start => cases prost.avChannelStartIndication a.body <;> cases st.direction <;> rfl
  | inputOpen => cases prost.avInputOpenRequest a.body <;> cases st.sink <;> rfl
  | _ => rfl

/-- A sink that is there stays, and the one that is attached is a new one. -/
theorem stateAfter_sink :
    (stateAfter prost m st a).sink =
      st.sink.or (if attachesSink prost a then some m.sinks else none) := by
  unfold stateAfter attachesSink
  cases kindOf a.msg_id with
  | start => cases prost.avChannelStartIndication a.body <;> cases st.direction <;> simp
  | inputOpen =>
    cases prost.avInputOpenRequest a.body <;> cases st.sink <;> simp
  | _ => simp

theorem Ensured.sinkOf (h : Ensured m channel cid st m₁) : m.sinkOf channel = st.sink := by
  rcases h.old with ⟨hst, -⟩ | ⟨hst, -, -, hfresh, -⟩
  · simp [AudioChannelManager.sinkOf, hst]
  · simp [AudioChannelManager.sinkOf, hst, hfresh]

theorem Ensured.session (h : Ensured m channel cid st m₁) :
    (m.channels channel).elim 0 (·.session) = st.session := by
  rcases h.old with ⟨hst, -⟩ | ⟨hst, -, -, -, -, hfresh, -⟩
  · simp [hst]
  · simp [hst, hfresh]

theorem pushOf_sink {p : Nat × AudioFrame} (h : pushOf st a = some p) : st.sink = some p.1 := by
  unfold pushOf at h
  split at h
  · cases hsink : st.sink <;> cases hframe : frameOf a <;> simp [hsink, hframe] at h
    rw [← h]
  · cases h

theorem pushOf_accepted (h : Follows prost m c past) (he : Ensured m c cid st m₁) :
    (pushOf st a).map (·.2) = accepted prost past a := by
  unfold pushOf accepted
  rw [← h.started, ← h.sink, he.started, he.sinkOf]
  cases st.started <;> cases st.sink <;> cases frameOf a <;> rfl

/-- A call on an audio channel is handled. -/
theorem own_call (prost : Prost) (m : AudioChannelManager) (hcid : (directionOf cid).isSome)
    (ha : a.channel = cid.toU8) :
    ∃ st m₁, Ensured m a.channel cid st m₁ ∧
      Handled prost m₁ cid st a (m.handle prost a.channel a.msg_id a.body) := by
  have htry : ChannelId.tryFrom a.channel = some cid := by rw [ha, ChannelId.tryFrom_toU8]
  obtain ⟨st, m₁, hs⟩ := ensureState_audio m htry hcid
  have he : Ensured m a.channel cid st m₁ := ensured hs
  exact ⟨st, m₁, he, handle_handled prost hs (ha ▸ he.own)⟩

theorem follows_own {r : Reply} (h : Follows prost m a.channel past)
    (he : Ensured m a.channel cid st m₁) (hh : Handled prost m₁ cid st a r) :
    Follows prost r.2 a.channel (past ++ [a]) where
  started := by
    rw [startedAfter_append, ← h.started, he.started, ← stateAfter_started,
      AudioChannelManager.isStarted, Handled.own he hh]
    rfl
  sink := by
    rw [sinkAfter_append, ← h.sink, he.sinkOf, AudioChannelManager.sinkOf, Handled.own he hh,
      Option.bind_some, stateAfter_sink, Option.isSome_or]
    cases attachesSink prost a <;> rfl
  session := by
    rw [latestSession_append, ← h.session, he.session, ← stateAfter_session, Handled.own he hh]
    rfl

theorem follows_other {r : Reply} (h : Follows prost m c past)
    (hsame : r.2.channels c = m.channels c) : Follows prost r.2 c past where
  started := by rw [AudioChannelManager.isStarted, hsame, ← h.started]; rfl
  sink := by rw [AudioChannelManager.sinkOf, hsame, ← h.sink]; rfl
  session := by rw [hsame, h.session]

/-- The sink of a channel after a call on it. -/
theorem Handled.sinkOf {r : Reply} (he : Ensured m a.channel cid st m₁)
    (hh : Handled prost m₁ cid st a r) :
    r.2.sinkOf a.channel = (m.sinkOf a.channel).or
      (if attachesSink prost a then some m.sinks else none) := by
  rw [AudioChannelManager.sinkOf, Handled.own he hh, Option.bind_some, stateAfter_sink, he.sinkOf,
    he.sinks]

theorem Handled.sinkOf_others {r : Reply} (he : Ensured m a.channel cid st m₁)
    (hh : Handled prost m₁ cid st a r) (hc : c ≠ a.channel) : r.2.sinkOf c = m.sinkOf c := by
  rw [AudioChannelManager.sinkOf, Handled.others he hh hc]
  rfl

theorem Handled.sinks_le {r : Reply} (he : Ensured m a.channel cid st m₁)
    (hh : Handled prost m₁ cid st a r) : m.sinks ≤ r.2.sinks := by
  rw [hh.sinks, he.sinks]
  exact Nat.le_add_right _ _

/-- The channel has the sink it had, or the one that the call has just made. -/
theorem Handled.sinkOf_own {r : Reply} {s : Nat} (he : Ensured m a.channel cid st m₁)
    (hh : Handled prost m₁ cid st a r) (hs : r.2.sinkOf a.channel = some s) :
    m.sinkOf a.channel = some s ∨ s = m.sinks ∧ r.2.sinks = m.sinks + 1 := by
  have hsinks := hh.sinks
  rw [stateAfter_sink, ← he.sinkOf, he.sinks] at hsinks
  rw [Handled.sinkOf he hh] at hs
  cases hold : m.sinkOf a.channel with
  | some s' => exact .inl (by rw [hold] at hs; exact hs)
  | none =>
    rw [hold] at hs hsinks
    cases hatt : attachesSink prost a with
    | false => simp [hatt] at hs
    | true => simp_all

theorem numbered_call {r : Reply} (h : Numbered m) (he : Ensured m a.channel cid st m₁)
    (hh : Handled prost m₁ cid st a r) : Numbered r.2 := by
  have hothers : ∀ c, c ≠ a.channel → r.2.sinkOf c = m.sinkOf c :=
    fun c hc => Handled.sinkOf_others he hh hc
  have hle : m.sinks ≤ r.2.sinks := Handled.sinks_le he hh
  have hown : ∀ s, r.2.sinkOf a.channel = some s →
      m.sinkOf a.channel = some s ∨ s = m.sinks ∧ r.2.sinks = m.sinks + 1 :=
    fun s hs => Handled.sinkOf_own he hh hs
  have hbound : ∀ c s, r.2.sinkOf c = some s → s < r.2.sinks := by
    intro c s hs
    by_cases hc : c = a.channel
    · subst hc
      rcases hown s hs with hold | ⟨rfl, hsinks⟩
      · exact Nat.lt_of_lt_of_le (h.bound _ _ hold) hle
      · omega
    · exact Nat.lt_of_lt_of_le (h.bound _ _ ((hothers c hc).symm.trans hs)) hle
  -- Another channel's sink is an old one.
  have hne : ∀ c s, c ≠ a.channel → r.2.sinkOf a.channel = some s → r.2.sinkOf c ≠ some s := by
    intro c s hc hs hs'
    have hc' : m.sinkOf c = some s := (hothers c hc).symm.trans hs'
    rcases hown s hs with hold | ⟨rfl, -⟩
    · exact hc (h.inj _ _ _ hc' hold)
    · exact absurd (h.bound _ _ hc') (lt_irrefl _)
  refine ⟨hbound, ?_, ?_⟩
  · intro c c' s hs hs'
    by_cases hc : c = a.channel <;> by_cases hc' : c' = a.channel
    · rw [hc, hc']
    · exact absurd hs' (hne c' s hc' (hc ▸ hs))
    · exact absurd hs (hne c s hc (hc' ▸ hs'))
    · exact h.inj c c' s ((hothers c hc).symm.trans hs) ((hothers c' hc').symm.trans hs')
  · intro p hp
    rw [hh.pushed, he.pushed, List.mem_append] at hp
    rcases hp with hp | hp
    · exact Nat.lt_of_lt_of_le (h.pushed p hp) hle
    · have hsink := pushOf_sink (Option.mem_toList.mp hp)
      rw [← he.sinkOf] at hsink
      exact Nat.lt_of_lt_of_le (h.bound _ _ hsink) hle

/-- A call pushes to its own channel's sink. -/
theorem pushesTo_own {r : Reply} (h : Numbered m) (hf : Follows prost m a.channel past)
    (he : Ensured m a.channel cid st m₁) (hh : Handled prost m₁ cid st a r) :
    r.2.pushesTo a.channel = m.pushesTo a.channel ++ (accepted prost past a).toList := by
  rw [← pushOf_accepted hf he]
  unfold AudioChannelManager.pushesTo
  rw [hh.pushed, he.pushed, List.filter_append, List.map_append, Handled.sinkOf he hh]
  cases hold : m.sinkOf a.channel with
  | some s =>
    have hpush : ∀ p, pushOf st a = some p → s = p.1 := by
      intro p hp
      exact Option.some.inj (hold.symm.trans (he.sinkOf.trans (pushOf_sink hp)))
    cases hp : pushOf st a with
    | none => simp
    | some p => simp [hpush p hp]
  | none =>
    -- A new sink has been given nothing yet.
    have hnone : pushOf st a = none := by
      cases hp : pushOf st a with
      | none => rfl
      | some p =>
        have hsink := he.sinkOf.trans (pushOf_sink hp)
        rw [hold] at hsink
        cases hsink
    have hnew : ∀ p ∈ m.pushed, m.sinks ≠ p.1 := fun p hp => (h.pushed p hp).ne'
    cases attachesSink prost a with
    | false => simp [hnone]
    | true => simpa [hnone] using fun sink frame hp => hnew (sink, frame) hp

theorem pushesTo_other {r : Reply} (h : Numbered m) (he : Ensured m a.channel cid st m₁)
    (hh : Handled prost m₁ cid st a r) (hc : c ≠ a.channel) : r.2.pushesTo c = m.pushesTo c := by
  have hsink : r.2.sinkOf c = m.sinkOf c := Handled.sinkOf_others he hh hc
  unfold AudioChannelManager.pushesTo
  rw [hh.pushed, he.pushed, List.filter_append, List.map_append, hsink]
  have hempty : ((pushOf st a).toList.filter fun p => m.sinkOf c = some p.1) = [] := by
    refine List.filter_eq_nil_iff.mpr ?_
    intro p hp hs
    have hown := he.sinkOf.trans (pushOf_sink (Option.mem_toList.mp hp))
    exact hc (h.inj _ _ _ (of_decide_eq_true hs) hown)
  rw [hempty]
  simp

theorem numbered_new : Numbered .new where
  bound c s h := by cases h
  inj c c' s h := by cases h
  pushed p h := by cases h

theorem follows_new : Follows prost .new c [] := ⟨rfl, rfl, rfl⟩

/-- What one call does to a channel that follows its messages. -/
structure Delivers (prost : Prost) (m : AudioChannelManager) (c : UInt8) (past : List Message)
    (got : List (AudioFrame × Int)) (past' : List Message) (outs : List OutboundMessage)
    (m' : AudioChannelManager) : Prop where
  numbered : Numbered m'
  follows : Follows prost m' c past'
  pushes : m'.pushesTo c = m.pushesTo c ++ got.map (·.1)
  acks : outs.filter (isAck c) = got.map fun d => ackOf prost c d.2

theorem delivers_own (hcid : (directionOf cid).isSome) (ha : a.channel = cid.toU8) (hn : Numbered m)
    (hf : Follows prost m cid.toU8 past) :
    Delivers prost m cid.toU8 past (deliveries prost past [a]) (past ++ [a])
      (outsOf (m.handle prost a.channel a.msg_id a.body).1)
      (m.handle prost a.channel a.msg_id a.body).2 := by
  obtain ⟨st, m₁, he, hh⟩ := own_call prost m hcid ha
  have hsession : st.session = latestSession prost past := by
    rw [← hf.session, ← he.session, ha]
  have hacks := hh.acks
  rw [← ha] at hf hacks ⊢
  have hacc : (pushOf st a).map (·.2) = accepted prost past a := pushOf_accepted hf he
  refine ⟨numbered_call hn he hh, follows_own hf he hh, ?_, ?_⟩
  · rw [pushesTo_own hn hf he hh]
    cases hget : accepted prost past a <;> simp [deliveries, hget]
  · rw [hacks, hsession]
    cases hget : pushOf st a <;> simp [deliveries, ← hacc, hget]

theorem delivers_other (hc : cid.toU8 ≠ a.channel) (hn : Numbered m)
    (hf : Follows prost m cid.toU8 past) :
    Delivers prost m cid.toU8 past [] past
      (outsOf (m.handle prost a.channel a.msg_id a.body).1)
      (m.handle prost a.channel a.msg_id a.body).2 := by
  rcases handle_or prost m a with hnone | ⟨cid', st, m₁, he, hh⟩
  · rw [hnone]
    exact ⟨hn, hf, by simp, rfl⟩
  · refine ⟨numbered_call hn he hh, follows_other hf (Handled.others he hh hc), ?_, ?_⟩
    · rw [pushesTo_other hn he hh hc]
      simp
    · refine List.filter_eq_nil_iff.mpr ?_
      intro out hout
      have hout' : out.channel ≠ cid.toU8 := by
        rw [hh.replies out hout, he.toU8]
        exact hc.symm
      simp [isAck, hout']

/-- A whole sequence of calls delivers what the channel's own messages ask for. -/
theorem handleAll_delivers (hcid : (directionOf cid).isSome) (xs : List Call) (hn : Numbered m)
    (hf : Follows prost m cid.toU8 past) :
    Delivers prost m cid.toU8 past (deliveries prost past (onChannel cid.toU8 xs))
      (past ++ onChannel cid.toU8 xs) (handleAll prost m xs).1 (handleAll prost m xs).2 := by
  induction xs generalizing m past with
  | nil =>
    refine ⟨hn, ?_, ?_, rfl⟩
    · simpa [handleAll, onChannel] using hf
    · simp [handleAll, onChannel, deliveries]
  | cons x xs ih =>
    obtain ⟨a, push⟩ := x
    simp only [handleAll, handlePush_fst]
    -- The first call, and then the rest from the manager it leaves.
    have hjoin : ∀ {got past'}, Delivers prost m cid.toU8 past got past'
          (outsOf (m.handle prost a.channel a.msg_id a.body).1)
          (m.handle prost a.channel a.msg_id a.body).2 →
        Delivers prost m cid.toU8 past (got ++ deliveries prost past' (onChannel cid.toU8 xs))
          (past' ++ onChannel cid.toU8 xs)
          (outsOf (m.handle prost a.channel a.msg_id a.body).1 ++
            (handleAll prost (m.handle prost a.channel a.msg_id a.body).2 xs).1)
          (handleAll prost (m.handle prost a.channel a.msg_id a.body).2 xs).2 := by
      intro got past' hd
      have hrest := ih hd.numbered hd.follows
      refine ⟨hrest.numbered, hrest.follows, ?_, ?_⟩
      · rw [hrest.pushes, hd.pushes, List.map_append, List.append_assoc]
      · rw [List.filter_append, hd.acks, hrest.acks, List.map_append]
    by_cases ha : a.channel = cid.toU8
    · have hmsgs : onChannel cid.toU8 ((a, push) :: xs) = a :: onChannel cid.toU8 xs := by
        simp [onChannel, ha]
      have hown := hjoin (delivers_own hcid ha hn hf)
      rw [hmsgs]
      simpa [deliveries] using hown
    · have hmsgs : onChannel cid.toU8 ((a, push) :: xs) = onChannel cid.toU8 xs := by
        simp [onChannel, ha]
      rw [hmsgs]
      exact hjoin (delivers_other (Ne.symm ha) hn hf)

theorem onDataFrame_refused {with_timestamp : Bool}
    (hk : kindOf a.msg_id = if with_timestamp then .timed else .untimed)
    (hnot : pushOf st a = none) :
    outsOf (onDataFrame prost m cid st a.body with_timestamp).1 = [] ∧
      (onDataFrame prost m cid st a.body with_timestamp).2 = m := by
  have hframe := frameOf_decode hk
  unfold onDataFrame
  split
  · rename_i hstarted
    cases hsink : st.sink with
    | none => exact ⟨rfl, rfl⟩
    | some sink =>
      dsimp only
      cases hdec : decode a.body with_timestamp with
      | error e => exact ⟨rfl, rfl⟩
      | ok frame =>
        rw [hdec] at hframe
        simp [pushOf, hstarted, hsink, hframe, Except.toOption] at hnot
  · exact ⟨rfl, rfl⟩

/-- A data frame that is not taken is not answered, and leaves the manager as it was but for the
fresh state of a channel that has had no message. -/
theorem refused_same (hcid : (directionOf cid).isSome) (ha : a.channel = cid.toU8)
    (hf : Follows prost m cid.toU8 past)
    (hk : kindOf a.msg_id = .timed ∨ kindOf a.msg_id = .untimed)
    (hnot : accepted prost past a = none) :
    outsOf (m.handle prost a.channel a.msg_id a.body).1 = [] ∧
      ((m.handle prost a.channel a.msg_id a.body).2 = m ∨
        m.channels a.channel = none ∧ ∃ st : AudioChannelState, st.Fresh ∧
          (m.handle prost a.channel a.msg_id a.body).2 = m.set a.channel st) := by
  have htry : ChannelId.tryFrom a.channel = some cid := by rw [ha, ChannelId.tryFrom_toU8]
  obtain ⟨st, m₁, hs⟩ := ensureState_audio m htry hcid
  have he : Ensured m a.channel cid st m₁ := ensured hs
  rw [← ha] at hf
  have hpush : pushOf st a = none := by
    have hacc : (pushOf st a).map (·.2) = accepted prost past a := pushOf_accepted hf he
    rw [hnot] at hacc
    exact Option.map_eq_none_iff.mp hacc
  have hsame : outsOf (m.handle prost a.channel a.msg_id a.body).1 = [] ∧
      (m.handle prost a.channel a.msg_id a.body).2 = m₁ := by
    rw [handle_kind prost a.body hs]
    rcases hk with hk | hk
    · rw [hk]
      exact onDataFrame_refused hk hpush
    · rw [hk]
      exact onDataFrame_refused hk hpush
  refine ⟨hsame.1, ?_⟩
  rw [hsame.2]
  rcases he.old with ⟨-, hold⟩ | ⟨hnone, hset, hfresh⟩
  · exact .inl hold
  · exact .inr ⟨hnone, st, hfresh, hset⟩

/-- After a sequence of calls: the channel's state is what its messages ask for, the frames it took
are those pushed to its sink, in order, and those acknowledged, and a further data frame that is not
taken does nothing but create the fresh state of the channel. -/
structure InboundDelivered (prost : Prost) (c : UInt8) (xs : List Call) : Prop where
  follows : Follows prost (handleAll prost .new xs).2 c (onChannel c xs)
  pushes : (handleAll prost .new xs).2.pushesTo c =
    (deliveries prost [] (onChannel c xs)).map (·.1)
  acks : (handleAll prost .new xs).1.filter (isAck c) =
    (deliveries prost [] (onChannel c xs)).map fun d => ackOf prost c d.2
  refused : ∀ (a : Message) push, a.channel = c →
    kindOf a.msg_id = .timed ∨ kindOf a.msg_id = .untimed →
    accepted prost (onChannel c xs) a = none →
      let m := (handleAll prost .new xs).2
      let r := (m.handlePush prost push a.channel a.msg_id a.body).1
      outsOf r.1 = [] ∧ (r.2 = m ∨ m.channels a.channel = none ∧
        ∃ st : AudioChannelState, st.Fresh ∧ r.2 = m.set a.channel st)

/-- Whatever the channels receive and whatever the pushes return. -/
theorem inbound_delivery (prost : Prost) (cid : ChannelId) (hcid : (directionOf cid).isSome)
    (xs : List Call) : InboundDelivered prost cid.toU8 xs := by
  have hd := handleAll_delivers hcid xs numbered_new (@follows_new prost _)
  refine ⟨hd.follows, hd.pushes, hd.acks, ?_⟩
  intro a push ha hk hnot m r
  have hr : r = m.handle prost a.channel a.msg_id a.body := handlePush_fst
  rw [hr]
  exact refused_same hcid ha hd.follows hk hnot

/-- An open request and a frame whose push fails. -/
theorem inbound_delivery_speech :
    let xs : List Call :=
      [(⟨5, 0x8005, [0x08, 0x01]⟩, .ok ()), (⟨5, 0x0001, [1, 2]⟩, .error "closed")]
    InboundDelivered openBodies ChannelId.speechAudio.toU8 xs ∧
      deliveries openBodies [] (onChannel 5 xs) = [(⟨0, [1, 2]⟩, 0)] :=
  ⟨inbound_delivery openBodies .speechAudio rfl _, by decide⟩

/-- The first message of a channel creates its state, also when it is a frame that is not taken. -/
theorem first_frame_creates :
    ¬ ∀ (prost : Prost) (m : AudioChannelManager) (a : Message),
      a.channel = ChannelId.speechAudio.toU8 → kindOf a.msg_id = .untimed →
      m.isStarted a.channel = false →
      (m.handle prost a.channel a.msg_id a.body).2.channels = m.channels := by
  intro h
  have hsame := h emptyBodies .new ⟨5, 0x0001, []⟩ rfl (by decide) rfl
  have hstate := congrFun hsame 5
  revert hstate
  decide

end Aabox.Audio
