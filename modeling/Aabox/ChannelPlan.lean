import Aabox.Dispatch
import Aabox.Lib.Protobuf

/-!
# Opening the head unit's channels

The answer to a ServiceDiscoveryResponse as a plan over its descriptors, and the ids for which the
daemon follows it.
-/
namespace Aabox.ChannelPlan
open Aabox.Lib Aabox.Messages Aabox.Dispatch

structure ChannelOpenRequest where
  priority : Int
  channel_id : Int
  deriving DecidableEq, Repr

/-- `ChannelOpenRequest::decode` reads field 1 and field 2 as `int32`s and skips the rest. -/
def ReadsFields (decode : Bytes → Option ChannelOpenRequest) : Prop :=
  ∀ fs : List Protobuf.Field, (∀ f ∈ fs, f.Valid) →
    decode (fs.flatMap Protobuf.Field.encode) = some {
      priority := Protobuf.int32 (Protobuf.lastValue 1 fs)
      channel_id := Protobuf.int32 (Protobuf.lastValue 2 fs) }

/-- The ids that a frame's channel byte can name, but for the control channel's. -/
def IsServiceChannel (ch : ChannelDescriptor) : Prop :=
  1 ≤ ch.channel_id.toNat ∧ ch.channel_id.toNat ≤ 255

def Openable (prost : Prost) (ch : ChannelDescriptor) : Prop :=
  shouldOpen (classifyChannel prost ch) = true

instance (ch : ChannelDescriptor) : Decidable (IsServiceChannel ch) :=
  inferInstanceAs (Decidable (_ ∧ _))

instance (prost : Prost) (ch : ChannelDescriptor) : Decidable (Openable prost ch) :=
  inferInstanceAs (Decidable (_ = true))

/-- An open request for the descriptor's channel, on that channel. -/
structure Opens (decode : Bytes → Option ChannelOpenRequest) (ch : ChannelDescriptor)
    (out : OutboundMessage) : Prop where
  channel : out.channel.toNat = ch.channel_id.toNat
  message_id : out.message_id = ControlMessageId.channelOpenRequest.toU16
  body : decode out.payload = some ⟨0, ch.channel_id.toNat⟩

/-- Every descriptor in its turn: an open request and at most one setup message, or nothing. -/
inductive Plan (prost : Prost) (decode : Bytes → Option ChannelOpenRequest) :
    List ChannelDescriptor → List OutboundMessage → Prop
  | done : Plan prost decode [] []
  | opened {ch : ChannelDescriptor} {chs : List ChannelDescriptor} {out : OutboundMessage}
      {setup : Option OutboundMessage} {outs : List OutboundMessage}
      (openable : Openable prost ch) (service : IsServiceChannel ch) (opens : Opens decode ch out)
      (kind : setup = setupMessageFor ch.channel_id (classifyChannel prost ch))
      (channel : ∀ m ∈ setup, m.channel.toNat = ch.channel_id.toNat)
      (rest : Plan prost decode chs outs) :
      Plan prost decode (ch :: chs) (out :: setup.toList ++ outs)
  | skipped {ch : ChannelDescriptor} {chs : List ChannelDescriptor} {outs : List OutboundMessage}
      (other : ¬ (Openable prost ch ∧ IsServiceChannel ch)) (rest : Plan prost decode chs outs) :
      Plan prost decode (ch :: chs) outs

def statusMessages : List OutboundMessage :=
  [⟨ChannelId.control.toU8, 0x0017, [0x08, 0x64]⟩, ⟨ChannelId.control.toU8, 0x0018, [0x08, 0x00]⟩]

/-- The two status messages, and the plan behind them. -/
def FollowsPlan (prost : Prost) (decode : Bytes → Option ChannelOpenRequest)
    (chs : List ChannelDescriptor) (outs : List OutboundMessage) : Prop :=
  ∃ rest, outs = statusMessages ++ rest ∧ Plan prost decode chs rest

variable {prost : Prost} {decode : Bytes → Option ChannelOpenRequest} {ch : ChannelDescriptor}
  {chs : List ChannelDescriptor} {outs : List OutboundMessage} {m : OutboundMessage}
  {body : Bytes} {resp : ServiceDiscoveryResponse} {n v : Nat}

/-! ### The hand-encoded body -/

theorem encodeVarint_eq (h : v < 128 ^ (n + 1)) : encodeVarint (n + 1) v = Protobuf.varint v := by
  induction n generalizing v with
  | zero =>
    have hlt : v < 128 := by simpa using h
    rw [encodeVarint, Protobuf.varint, if_pos hlt, if_pos hlt]
  | succ n ih =>
    have hlt : v / 128 < 128 ^ (n + 1) := by
      rw [Nat.pow_succ] at h
      exact Nat.div_lt_of_lt_mul (by rwa [Nat.mul_comm])
    rw [encodeVarint, Protobuf.varint, ih hlt]

def openBody (ch : ChannelDescriptor) : Bytes :=
  [0x08, 0x00, 0x10] ++ encodeVarint 10 ch.channel_id.toNat

/-- The bytes are the two fields, the priority written out although it is 0. -/
theorem openBody_fields (ch : ChannelDescriptor) :
    openBody ch = [⟨1, 0⟩, ⟨2, ch.channel_id.toNat⟩].flatMap Protobuf.Field.encode := by
  have hid : ch.channel_id.toNat < 128 ^ 10 := by
    have := ch.channel_id.toNat_lt
    omega
  rw [openBody, encodeVarint_eq hid, List.flatMap_cons, List.flatMap_singleton,
    Protobuf.Field.encode, Protobuf.Field.encode, Protobuf.varint_of_lt (v := 8 * 1) (by decide),
    Protobuf.varint_of_lt (v := 0) (by decide), Protobuf.varint_of_lt (v := 8 * 2) (by decide)]
  rfl

theorem decode_openBody (hdecode : ReadsFields decode) (hservice : IsServiceChannel ch) :
    decode (openBody ch) = some ⟨0, ch.channel_id.toNat⟩ := by
  obtain ⟨_, hle⟩ := hservice
  have hvalid : ∀ f ∈ [⟨1, 0⟩, ⟨2, ch.channel_id.toNat⟩], Protobuf.Field.Valid f := by
    intro f hf
    rcases List.mem_pair.mp hf with rfl | rfl
    · exact ⟨by decide, by decide, by decide⟩
    · constructor <;> dsimp only <;> omega
  have hpriority : Protobuf.lastValue 1 [⟨1, 0⟩, ⟨2, ch.channel_id.toNat⟩] = 0 := rfl
  have hid : Protobuf.lastValue 2 [⟨1, 0⟩, ⟨2, ch.channel_id.toNat⟩] = ch.channel_id.toNat := rfl
  rw [openBody_fields, hdecode _ hvalid, hpriority, hid, Protobuf.int32_of_lt (by decide),
    Protobuf.int32_of_lt (by omega)]
  rfl

/-! ### One descriptor -/

theorem openMessages_openable (h : Openable prost ch) :
    openMessages prost ch =
      ⟨ch.channel_id.toUInt8, ControlMessageId.channelOpenRequest.toU16, openBody ch⟩ ::
        (setupMessageFor ch.channel_id (classifyChannel prost ch)).toList := by
  have hopen : shouldOpen (classifyChannel prost ch) = true := h
  unfold openMessages
  dsimp only
  rw [if_pos hopen]
  rfl

theorem openMessages_other (h : ¬ Openable prost ch) : openMessages prost ch = [] := by
  unfold openMessages
  dsimp only
  exact if_neg h

theorem toUInt8_toNat (h : IsServiceChannel ch) :
    ch.channel_id.toUInt8.toNat = ch.channel_id.toNat := by
  obtain ⟨_, hle⟩ := h
  rw [UInt32.toNat_toUInt8]
  omega

/-- A setup message is no open request. -/
theorem setup_not_open {kind : ChannelKind} {id : UInt32} (h : setupMessageFor id kind = some m) :
    m.message_id ≠ ControlMessageId.channelOpenRequest.toU16 := by
  unfold setupMessageFor at h
  split at h <;> cases h <;> dsimp only <;> decide

/-! ### The whole list -/

/-- With representable ids only, the messages are a plan. -/
theorem plan_openMessages (hdecode : ReadsFields decode)
    (h : ∀ ch ∈ chs, Openable prost ch → IsServiceChannel ch) :
    Plan prost decode chs (chs.flatMap (openMessages prost)) := by
  induction chs with
  | nil => exact .done
  | cons ch chs ih =>
    have hrest := ih (fun c hc => h c (List.mem_cons_of_mem _ hc))
    rw [List.flatMap_cons]
    by_cases hopen : Openable prost ch
    · have hservice := h ch (List.mem_cons_self ..) hopen
      have hbyte := toUInt8_toNat hservice
      rw [openMessages_openable hopen]
      refine .opened hopen hservice ⟨hbyte, rfl, decode_openBody hdecode hservice⟩ rfl ?_ hrest
      intro m hm
      rw [setupMessageFor_channel hm, hbyte]
    · rw [openMessages_other hopen, List.nil_append]
      exact .skipped (fun hboth => hopen hboth.1) hrest

def isOpen (m : OutboundMessage) : Bool :=
  m.message_id = ControlMessageId.channelOpenRequest.toU16

theorem countP_setup (id : UInt32) (kind : ChannelKind) :
    (setupMessageFor id kind).toList.countP isOpen = 0 := by
  rw [List.countP_eq_zero]
  intro m hm
  have := setup_not_open (Option.mem_toList.mp hm)
  simpa [isOpen] using this

/-- A plan opens no more channels than there are descriptors to open. -/
theorem plan_count_le (h : Plan prost decode chs outs) :
    outs.countP isOpen ≤ chs.countP fun ch => Openable prost ch := by
  induction h with
  | done => exact Nat.le_refl _
  | @opened ch chs out setup outs openable _ opens kind _ _ ih =>
    have hopen : isOpen out = true := decide_eq_true opens.message_id
    rw [List.cons_append, List.countP_cons_of_pos hopen, List.countP_append, kind, countP_setup,
      List.countP_cons_of_pos (by simpa using openable)]
    omega
  | skipped other rest ih =>
    rw [List.countP_cons]
    omega

/-- The daemon opens all of them. -/
theorem openMessages_count (prost : Prost) (chs : List ChannelDescriptor) :
    (chs.flatMap (openMessages prost)).countP isOpen = chs.countP fun ch => Openable prost ch := by
  induction chs with
  | nil => rfl
  | cons ch chs ih =>
    rw [List.flatMap_cons, List.countP_append, ih]
    by_cases hopen : Openable prost ch
    · rw [openMessages_openable hopen, List.countP_cons_of_pos (by rfl), countP_setup,
        List.countP_cons_of_pos (by simpa using hopen)]
      omega
    · rw [openMessages_other hopen, List.countP_cons_of_neg (by simpa using hopen)]
      simp

/-- An open request for any other id is one too many. -/
theorem service_of_plan (h : Plan prost decode chs outs)
    (houts : outs = chs.flatMap (openMessages prost)) :
    ∀ ch ∈ chs, Openable prost ch → IsServiceChannel ch := by
  induction h with
  | done =>
    intro ch hch
    cases hch
  | @opened ch chs out setup outs openable service opens kind _ _ ih =>
    rw [List.flatMap_cons, openMessages_openable openable, ← kind, List.cons_append,
      List.cons_append] at houts
    have hrest := List.append_cancel_left (List.cons.inj houts).2
    intro c hc hopen
    rcases List.mem_cons.mp hc with rfl | hc
    · exact service
    · exact ih hrest c hc hopen
  | @skipped ch chs outs other rest ih =>
    have hskip : ¬ Openable prost ch := by
      intro hopen
      have hle := plan_count_le rest
      rw [houts, openMessages_count, List.countP_cons_of_pos (by simpa using hopen)] at hle
      omega
    rw [List.flatMap_cons, openMessages_other hskip, List.nil_append] at houts
    intro c hc hopen
    rcases List.mem_cons.mp hc with rfl | hc
    · exact (hskip hopen).elim
    · exact ih houts c hc hopen

theorem dispatchControl_response (hresp : prost.serviceDiscoveryResponse body = some resp) :
    dispatchControl prost ControlMessageId.serviceDiscoveryResponse.toU16 body =
      .ok (statusMessages ++ resp.channels.flatMap (openMessages prost)) := by
  unfold dispatchControl
  rw [ControlMessageId.tryFrom_toU16]
  simp only [hresp]
  rfl

/-- The daemon follows the plan if every id that it opens a channel for is a service channel's. -/
theorem followsPlan_iff (hdecode : ReadsFields decode)
    (hresp : prost.serviceDiscoveryResponse body = some resp) :
    (∃ outs, dispatchControl prost ControlMessageId.serviceDiscoveryResponse.toU16 body = .ok outs ∧
      FollowsPlan prost decode resp.channels outs) ↔
      ∀ ch ∈ resp.channels, Openable prost ch → IsServiceChannel ch := by
  rw [dispatchControl_response hresp]
  constructor
  · rintro ⟨outs, hok, rest, houts, hplan⟩
    obtain rfl := Except.ok.inj hok
    exact service_of_plan hplan (List.append_cancel_left houts).symm
  · intro h
    exact ⟨_, rfl, _, rfl, plan_openMessages hdecode h⟩

/-- A decoder for bodies of varint fields. -/
def decodeChannelOpenRequest (bs : Bytes) : Option ChannelOpenRequest :=
  (Protobuf.fields bs).map fun fs =>
    { priority := Protobuf.int32 (Protobuf.lastValue 1 fs)
      channel_id := Protobuf.int32 (Protobuf.lastValue 2 fs) }

theorem decodeChannelOpenRequest_reads : ReadsFields decodeChannelOpenRequest := by
  intro fs hfs
  rw [decodeChannelOpenRequest, Protobuf.fields_flatMap hfs, Option.map_some]

def sensorOn (channel_id : UInt32) : ChannelDescriptor :=
  ⟨channel_id, true, none, false, false, false, false, false⟩

/-- Two responses with one sensor channel each, as they come: on channel 2 and on channel 256. -/
def sensorBodies : Prost :=
  { emptyBodies with
    serviceDiscoveryResponse := fun body =>
      if body = [0x0a, 4, 0x08, 2, 0x12, 0] then some ⟨[sensorOn 2]⟩
      else if body = [0x0a, 5, 0x08, 0x80, 2, 0x12, 0] then some ⟨[sensorOn 256]⟩
      else none }

theorem followsPlan_sensor : ∃ outs,
    dispatchControl sensorBodies ControlMessageId.serviceDiscoveryResponse.toU16
      [0x0a, 4, 0x08, 2, 0x12, 0] = .ok outs ∧
    FollowsPlan sensorBodies decodeChannelOpenRequest [sensorOn 2] outs := by
  have hresp : sensorBodies.serviceDiscoveryResponse [0x0a, 4, 0x08, 2, 0x12, 0] =
      some ⟨[sensorOn 2]⟩ := rfl
  exact (followsPlan_iff decodeChannelOpenRequest_reads hresp).mpr (by decide)

/-- The open request for channel 256 and its setup message go to the control channel. -/
theorem opened_on_control :
    dispatchControl sensorBodies ControlMessageId.serviceDiscoveryResponse.toU16
        [0x0a, 5, 0x08, 0x80, 2, 0x12, 0] =
      .ok (statusMessages ++ [⟨0, 0x0007, [0x08, 0, 0x10, 0x80, 2]⟩,
        ⟨0, 0x8001, [0x08, 0x0d, 0x10, 0]⟩]) ∧
    ¬ ∃ outs, dispatchControl sensorBodies ControlMessageId.serviceDiscoveryResponse.toU16
        [0x0a, 5, 0x08, 0x80, 2, 0x12, 0] = .ok outs ∧
      FollowsPlan sensorBodies decodeChannelOpenRequest [sensorOn 256] outs := by
  refine ⟨rfl, ?_⟩
  rintro ⟨outs, hok, rest, houts, hplan⟩
  rw [dispatchControl_response rfl] at hok
  obtain rfl := Except.ok.inj hok
  have hservice := service_of_plan hplan (List.append_cancel_left houts).symm
  exact absurd (hservice (sensorOn 256) (List.mem_singleton_self _) rfl) (by decide)

end Aabox.ChannelPlan
