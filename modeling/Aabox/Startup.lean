import Aabox.Control
import Aabox.Messages
import Aabox.WireLog

/-! The first exchange of `run`: the head unit's AuthComplete, then our ServiceDiscoveryRequest. -/
namespace Aabox.Startup
open Aabox.Lib Aabox.Framing Aabox.Control Aabox.Encrypted Aabox.SendEncrypted Aabox.Messages

structure PhoneInfo where
  instance_id : String
  connectivity_lifetime_id : String
  deriving DecidableEq, Repr

structure ServiceDiscoveryRequest where
  small_icon : Bytes
  medium_icon : Bytes
  large_icon : Bytes
  label_text : String
  device_name : String
  phone_info : Option PhoneInfo
  deriving DecidableEq, Repr

structure AuthCompleteIndication where
  status : Int

/-- The codecs with the two messages of the first exchange. -/
structure StartupProst extends Prost where
  authCompleteIndication : Bytes → Option AuthCompleteIndication
  serviceDiscoveryRequest : ServiceDiscoveryRequest → Bytes

def sdr : ServiceDiscoveryRequest :=
  { small_icon := [], medium_icon := [], large_icon := [], label_text := "Auto"
    device_name := "Pixel 6"
    phone_info := some
      { instance_id := "AABOX0123456789", connectivity_lifetime_id := "aabox-rock5bp-1" } }

inductive RunError
  | readAuthComplete (e : ReadError)
  | authCompleteTooShort (len : Nat)
  | expectedAuthComplete (hu_msg_id : UInt16)
  | decodeAuthComplete
  | rejected (status : Int)
  | sendServiceDiscoveryRequest (e : SendError)
  deriving DecidableEq, Repr

def RunError.message : RunError → String
  | .readAuthComplete _ => "read HU AuthComplete"
  | .authCompleteTooShort len => s!"HU AuthComplete frame too short ({len} bytes)"
  | .expectedAuthComplete hu_msg_id =>
    s!"expected AuthComplete (0x0004) from HU, got msg_id 0x{hex4 hu_msg_id}"
  | .decodeAuthComplete => "decode AuthComplete"
  | .rejected status => s!"HU rejected our cert: AuthComplete\x7bstatus={status}\x7d"
  | .sendServiceDiscoveryRequest _ => "send ServiceDiscoveryRequest"

variable {C : Type} {side : Side C} {fuel : Nat} {p : StartupProst} {conn conn' : C}
  {w w' : Writer} {src src' : Source} {frame : Frame}

def checkAuthComplete (p : StartupProst) (frame : Frame) : Except RunError Unit :=
  match frame.payload with
  | b₁ :: b₀ :: body =>
    let hu_msg_id := UInt16.ofNat (beValue [b₁, b₀])
    if hu_msg_id ≠ ControlMessageId.authComplete.toU16 then .error (.expectedAuthComplete hu_msg_id)
    else
      match p.authCompleteIndication body with
      | none => .error .decodeAuthComplete
      | some ind => if ind.status ≠ p.status_ok then .error (.rejected ind.status) else .ok ()
  | payload => .error (.authCompleteTooShort payload.length)

def sdrMessage (p : StartupProst) : OutboundMessage :=
  ⟨ChannelId.control.toU8, ControlMessageId.serviceDiscoveryRequest.toU16,
    p.serviceDiscoveryRequest sdr⟩

def sendRequest (side : Side C) (fuel : Nat) (p : StartupProst) (conn : C) (w : Writer) :
    Option (Except RunError Unit × C × Writer) :=
  match sendEncrypted side fuel conn w (sdrMessage p) with
  | none => none
  | some (.error e, conn, w) => some (.error (.sendServiceDiscoveryRequest e), conn, w)
  | some (.ok (), conn, w) => some (.ok (), conn, w)

/-- Steps A and A2 of `run`. The result is `none` while the read or the send has not returned. -/
def startup (side : Side C) (fuel : Nat) (p : StartupProst) (conn : C) (w : Writer) (src : Source) :
    Option (Except RunError Unit × C × Writer) :=
  match poll .start src with
  | (.pending _, _) => none
  | (.error e, _) => some (.error (.readAuthComplete e), conn, w)
  | (.done frame, _) =>
    match checkAuthComplete p frame with
    | .error e => some (.error e, conn, w)
    | .ok () => sendRequest side fuel p conn w

/-- The payload is message id 0x0004 and a body that decodes to status OK. -/
def AuthenticationOk (p : StartupProst) (payload : Bytes) : Prop :=
  ∃ body ind, payload = 0 :: 4 :: body ∧ p.authCompleteIndication body = some ind ∧
    ind.status = p.status_ok

/-- An unencrypted BULK frame on the control channel. -/
def PlainControl (frame : Frame) : Prop :=
  frame.encrypted = false ∧ frame.frame_type = .bulk ∧ frame.channel_id = ChannelId.control.toU8

/-- The first outbound message is the ServiceDiscoveryRequest, and all that is written is
encrypted frames on channel 0. -/
def SendsRequest (side : Side C) (fuel : Nat) (p : StartupProst) (conn : C) (w : Writer)
    (res : Option (Except RunError Unit × C × Writer)) : Prop :=
  res = sendRequest side fuel p conn w ∧
    ∀ r conn' w', res = some (r, conn', w') → ∃ as, w'.wire = w.wire ++ wireOf Frame.encode as ∧
      ∀ a ∈ as, Sealed ChannelId.control.toU8 a

/-- An error before anything has been encrypted or written. -/
def Refuses (conn : C) (w : Writer) (res : Option (Except RunError Unit × C × Writer)) : Prop :=
  ∃ e, res = some (.error e, conn, w) ∧ ∀ e', e ≠ .sendServiceDiscoveryRequest e'

/-- The request goes out for the frame expected, and every other frame is refused. -/
def Gated (side : Side C) (fuel : Nat) (p : StartupProst) (conn : C) (w : Writer) (src : Source)
    (frame : Frame) : Prop :=
  (SendsRequest side fuel p conn w (startup side fuel p conn w src) ↔
      PlainControl frame ∧ AuthenticationOk p frame.payload) ∧
    (¬ (PlainControl frame ∧ AuthenticationOk p frame.payload) →
      Refuses conn w (startup side fuel p conn w src))

theorem msgId_eq (b₁ b₀ : UInt8) :
    UInt16.ofNat (beValue [b₁, b₀]) = ControlMessageId.authComplete.toU16 ↔ b₁ = 0 ∧ b₀ = 4 := by
  have hlt : beValue [b₁, b₀] < 65536 := by simpa using beValue_lt [b₁, b₀]
  have hvalue : beValue [b₁, b₀] = b₀.toNat + 256 * b₁.toNat := by simp [beValue, leValue]
  have h₀ := b₀.toNat_lt
  rw [← UInt16.toNat_inj, UInt16.toNat_ofNat_of_lt' hlt, hvalue, ← UInt8.toNat_inj,
    ← UInt8.toNat_inj]
  change _ = 4 ↔ b₁.toNat = 0 ∧ b₀.toNat = 4
  omega

/-- The checks on the payload are all that `run` makes. -/
theorem checkAuthComplete_ok :
    checkAuthComplete p frame = .ok () ↔ AuthenticationOk p frame.payload := by
  unfold checkAuthComplete AuthenticationOk
  split
  · rename_i b₁ b₀ body hpayload
    rw [hpayload]
    dsimp only
    split
    · rename_i hid
      rw [ne_eq, msgId_eq] at hid
      constructor
      · intro h
        cases h
      · rintro ⟨body', ind, hbytes, -⟩
        cases hbytes
        exact (hid ⟨rfl, rfl⟩).elim
    · rename_i hid
      obtain ⟨rfl, rfl⟩ := (msgId_eq b₁ b₀).mp (not_not.mp hid)
      cases hdec : p.authCompleteIndication body with
      | none =>
        constructor
        · intro h
          cases h
        · rintro ⟨body', ind, hbytes, hsome, -⟩
          cases hbytes
          rw [hdec] at hsome
          cases hsome
      | some ind =>
        constructor
        · intro h
          dsimp only at h
          split at h
          · cases h
          · rename_i hstatus
            exact ⟨body, ind, rfl, hdec, not_not.mp hstatus⟩
        · rintro ⟨body', ind', hbytes, hsome, hstatus⟩
          cases hbytes
          obtain rfl := Option.some.inj (hdec.symm.trans hsome)
          dsimp only
          rw [if_neg (not_not.mpr hstatus)]
  · rename_i payload hshort
    constructor
    · intro h
      cases h
    · rintro ⟨body, ind, hbytes, -⟩
      exact (hshort _ _ _ hbytes).elim

/-- Whatever becomes of the request, the wire only gains encrypted frames on channel 0. -/
theorem sendRequest_frames {r : Except RunError Unit}
    (h : sendRequest side fuel p conn w = some (r, conn', w')) :
    ∃ as, w'.wire = w.wire ++ wireOf Frame.encode as ∧
      ∀ a ∈ as, Sealed ChannelId.control.toU8 a := by
  unfold sendRequest at h
  cases hsend : sendEncrypted side fuel conn w (sdrMessage p) with
  | none => simp [hsend] at h
  | some out =>
    obtain ⟨res, c, v⟩ := out
    have hlog := sendEncrypted_logged hsend
    rw [hsend] at h
    obtain e | ok := res <;> cases h <;> exact ⟨_, hlog.wire, fun a => sendAttempts_sealed⟩

theorem startup_done (h : poll .start src = (.done frame, src')) :
    startup side fuel p conn w src =
      match checkAuthComplete p frame with
      | .error e => some (.error e, conn, w)
      | .ok () => sendRequest side fuel p conn w := by
  rw [startup, h]

theorem sends_of_ok (side : Side C) (fuel : Nat) (conn : C) (w : Writer)
    (h : poll .start src = (.done frame, src')) (hok : AuthenticationOk p frame.payload) :
    SendsRequest side fuel p conn w (startup side fuel p conn w src) := by
  have heq : startup side fuel p conn w src = sendRequest side fuel p conn w := by
    rw [startup_done h, checkAuthComplete_ok.mpr hok]
  exact ⟨heq, fun r conn' w' hres => sendRequest_frames (heq ▸ hres)⟩

theorem checkAuthComplete_error {e : RunError} (h : checkAuthComplete p frame = .error e)
    (e' : SendError) : e ≠ .sendServiceDiscoveryRequest e' := by
  unfold checkAuthComplete at h
  rintro rfl
  split at h
  · dsimp only at h
    split at h
    · cases h
    · split at h
      · cases h
      · split at h <;> cases h
  · cases h

theorem refuses_of_not_ok (h : poll .start src = (.done frame, src'))
    (hnot : ¬ AuthenticationOk p frame.payload) :
    Refuses conn w (startup side fuel p conn w src) := by
  rw [startup_done h]
  cases hcheck : checkAuthComplete p frame with
  | ok u => exact (hnot (checkAuthComplete_ok.mp hcheck)).elim
  | error e => exact ⟨e, rfl, checkAuthComplete_error hcheck⟩

/-- A refusal is told from a request that failed by its error. -/
theorem not_sends_of_refuses {res : Option (Except RunError Unit × C × Writer)}
    (h : Refuses conn w res) : ¬ SendsRequest side fuel p conn w res := by
  obtain ⟨e, rfl, he⟩ := h
  rintro ⟨hres, -⟩
  unfold sendRequest at hres
  split at hres
  · cases hres
  · cases hres
    exact he _ rfl
  · cases hres

/-- The gate holds for exactly the frames that are unencrypted BULK frames on channel 0, or whose
payload is no successful AuthComplete: channel, flags and frame type are never looked at. -/
theorem gated_iff (side : Side C) (fuel : Nat) (p : StartupProst) (conn : C) (w : Writer)
    (h : poll .start src = (.done frame, src')) :
    Gated side fuel p conn w src frame ↔
      (AuthenticationOk p frame.payload → PlainControl frame) := by
  constructor
  · rintro ⟨hiff, -⟩ hok
    exact (hiff.mp (sends_of_ok side fuel conn w h hok)).1
  · intro hplain
    refine ⟨⟨?_, ?_⟩, ?_⟩
    · intro hsends
      by_contra hnot
      have hbad : ¬ AuthenticationOk p frame.payload := fun hok => hnot ⟨hplain hok, hok⟩
      exact not_sends_of_refuses (refuses_of_not_ok h hbad) hsends
    · rintro ⟨-, hok⟩
      exact sends_of_ok side fuel conn w h hok
    · intro hnot
      exact refuses_of_not_ok h fun hok => hnot ⟨hplain hok, hok⟩

/-- An AuthComplete whose body is the status field set to OK, and an empty request. -/
def okBodies : StartupProst :=
  { emptyBodies with
    authCompleteIndication := fun body => if body = [8, 0] then some ⟨0⟩ else none
    serviceDiscoveryRequest := fun _ => [] }

theorem okBodies_ok : AuthenticationOk okBodies [0, 4, 8, 0] := ⟨[8, 0], ⟨0⟩, rfl, rfl, rfl⟩

/-- The head unit's AuthComplete as it comes, in the clear on channel 0. -/
theorem gated_authComplete :
    Gated clearSide 3 okBodies ⟨[], [], []⟩ ⟨[], []⟩ ⟨[[0, 3, 0, 4, 0, 4, 8, 0]], .open⟩
      ⟨0, .bulk, false, false, none, [0, 4, 8, 0]⟩ :=
  (gated_iff clearSide 3 okBodies ⟨[], [], []⟩ ⟨[], []⟩ (by rfl)).mpr fun _ => ⟨rfl, rfl, rfl⟩

/-- A FIRST fragment with the encrypted flag on the sensor channel passes for the AuthComplete. -/
theorem encrypted_fragment_passes :
    ¬ ∀ (src src' : Source) (frame : Frame), poll .start src = (.done frame, src') →
      Gated clearSide 3 okBodies ⟨[], [], []⟩ ⟨[], []⟩ src frame := by
  intro h
  have hread : poll .start ⟨[[2, 9, 0, 4, 0, 0, 0, 9, 0, 4, 8, 0]], .open⟩ =
      (.done ⟨2, .first, false, true, some 9, [0, 4, 8, 0]⟩, ⟨[], .open⟩) := by rfl
  have hsends := sends_of_ok clearSide 3 ⟨[], [], []⟩ ⟨[], []⟩ hread okBodies_ok
  exact absurd ((h _ _ _ hread).1.mp hsends).1.1 (by decide)

end Aabox.Startup
