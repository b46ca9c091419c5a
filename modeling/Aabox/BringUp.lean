import Aabox.ControlLoop
import Aabox.TunnelPipe

/-!
# Bringing a session up

`usb_run` and `dhu_listen` from the first frame to the end of the message loop.
-/
namespace Aabox.BringUp
open Aabox.Lib Aabox.Framing Aabox.Control Aabox.Encrypted Aabox.SendEncrypted Aabox.HandleFrame
open Aabox.Startup Aabox.TlsTunnel Aabox.TunnelPipe

inductive Mode
  | usbRun | dhuListen
  deriving DecidableEq, Repr

def Mode.name : Mode → String
  | .usbRun => "usb-run"
  | .dhuListen => "dhu-listen"

def PROTOCOL_MAJOR : UInt16 := 1
def PROTOCOL_MINOR : UInt16 := 7

inductive VersionError
  | readRequest (e : ReadError)
  | channel (channel_id : UInt8)
  | tooShort (len : Nat)
  | msgId (msg_id : UInt16)
  | writeResponse
  deriving DecidableEq, Repr

def VersionError.message : VersionError → String
  | .readRequest _ => "read VersionRequest frame"
  | .channel channel_id => s!"expected control channel, got {channel_id}"
  | .tooShort len => s!"VersionRequest payload too short: {len}"
  | .msgId msg_id => s!"expected VersionRequest (0x0001), got 0x{hex4 msg_id}"
  | .writeResponse => "write VersionResponse"

/-- What ends a session before the message loop, and what `main` returns. -/
inductive SetupError
  | readFirst (e : ReadError)
  | firstTooShort (len : Nat)
  | versionRequestTooShort
  | unexpectedFirst (first_msg_id : UInt16)
  | writeVersionResponse
  | version (e : VersionError)
  | writeProbe
  | connection
  | preseedReadTls
  | preseedProcess
  deriving DecidableEq, Repr

/-- The text, where it is not the system's own. -/
def SetupError.message : SetupError → Option String
  | .readFirst e => some e.message
  | .firstTooShort len => some s!"first frame payload too short ({len} bytes)"
  | .versionRequestTooShort => some "VersionRequest payload too short"
  | .unexpectedFirst first_msg_id => some s!"unexpected first message id 0x{hex4 first_msg_id}"
  | .version e => some e.message
  | .writeProbe => some "write frame"
  | .preseedReadTls => some "pre-seed read_tls"
  | .preseedProcess => some "pre-seed process_new_packets"
  | .writeVersionResponse | .connection => none

/-- The big-endian word at an offset of the payload. -/
def word (payload : Bytes) (off : Nat) : UInt16 := UInt16.ofNat (beValue (slice payload off 2))

/-- The checks of `version_handshake_responder`. -/
def checkVersionRequest (req : Frame) : Except VersionError (UInt16 × UInt16) :=
  if req.channel_id ≠ ChannelId.control.toU8 then .error (.channel req.channel_id)
  else if req.payload.length < 6 then .error (.tooShort req.payload.length)
  else
    let msg_id := word req.payload 0
    if msg_id ≠ ControlMessageId.versionRequest.toU16 then .error (.msgId msg_id)
    else .ok (word req.payload 2, word req.payload 4)

/-- The first frame of `usb_run`: a version request, or the head unit's own kickoff. -/
inductive First
  | versionRequest (major minor : UInt16)
  | kickoff (preseed : Option Bytes)
  deriving DecidableEq, Repr

def MSG_VERSION_REQUEST : UInt16 := 0x0001
def MSG_SSL_HANDSHAKE : UInt16 := 0x0003

/-- Neither the channel nor the flags of the first frame are looked at. -/
def checkFirst (first : Frame) : Except SetupError First :=
  if first.payload.length < 2 then .error (.firstTooShort first.payload.length)
  else
    let first_msg_id := word first.payload 0
    if first_msg_id = MSG_VERSION_REQUEST then
      if first.payload.length < 6 then .error .versionRequestTooShort
      else .ok (.versionRequest (word first.payload 2) (word first.payload 4))
    else if first_msg_id = MSG_SSL_HANDSHAKE then
      let body := first.payload.drop 2
      .ok (.kickoff (if body.head? = some 0x16 then some body else none))
    else .error (.unexpectedFirst first_msg_id)

/-- `usb_run` writes its version response out byte by byte. -/
def versionResponse : Mode → Frame
  | .usbRun => .bulkControl 0 0x0002 [0, 1, 0, 6, 0, 0]
  | .dhuListen => .bulkControl ChannelId.control.toU8 ControlMessageId.versionResponse.toU16
      (beBytes 2 PROTOCOL_MAJOR.toNat ++ beBytes 2 PROTOCOL_MINOR.toNat)

example : (versionResponse .usbRun).encode = [0, 3, 0, 8, 0, 2, 0, 1, 0, 6, 0, 0] := rfl

/-- How a session ends. -/
inductive Outcome
  | setup (e : SetupError)
  | tlsFailed (e : TunnelError)
  | tlsTimedOut
  | loopFailed (message : String)
  | loopEnded
  deriving DecidableEq, Repr

/-- `auth` is the wait for AuthComplete, at the start of `control_channel::run`, with the driver
that has returned. -/
inductive Stage (C F : Type)
  | first
  | answer (major minor : UInt16)
  | kickoff (preseed : Option Bytes)
  | handshake (d : Driver C)
  | auth (d : Driver C)
  | control (s : ControlLoop.RunState C F)
  | ended (outcome : Outcome)

/-- `status` lists the lines written to the status file, each over the one before, and `log` the
frames handed to the transport. -/
structure Box (C F : Type) where
  stage : Stage C F
  status : List String
  log : List (Attempt Frame)

/-- What a session is started with: `fresh` is the new TLS connection, if there is one, and
`faults` are for the writes of the message loop. -/
structure Setup (C F : Type) where
  mode : Mode
  tls : Connection C
  prost : StartupProst
  floats : Sensor.Floats F
  fuel : Nat
  fresh : Option C
  handlers : Handlers F
  faults : List (Option Nat)

/-- A write that fails, or a timeout, leaves the first `cut` bytes of the frame in hand. -/
inductive Event
  | frame (r : Except ReadError Frame)
  | write (fault : Option Nat)
  | handshake (ev : DriverEvent) (cut : Nat)
  | timeout (cut : Nat)
  | control (turn : ControlLoop.Turn)
  deriving DecidableEq, Repr

variable {C F : Type}

def Box.report (b : Box C F) (mode : Mode) (line : String) : Box C F :=
  { b with status := b.status ++ [mode.name ++ ": " ++ line] }

def Box.ended (b : Box C F) (outcome : Outcome) : Box C F := { b with stage := .ended outcome }

def Box.wrote (b : Box C F) (frame : Frame) (fault : Option Nat) : Box C F :=
  { b with log := b.log ++ [⟨frame, fault⟩] }

def start (x : Setup C F) : Box C F :=
  let lines :=
    match x.mode with
    | .usbRun => ["opening /dev/usb_accessory", "peeking first control frame"]
    | .dhuListen => ["binding", "DHU connected"]
  { stage := .first, status := "starting" :: lines.map ((x.mode.name ++ ": ") ++ ·), log := [] }

/-- The first frame, read in `usb_run` itself or in `version_handshake_responder`. -/
def firstFrame (x : Setup C F) (b : Box C F) (r : Except ReadError Frame) : Box C F :=
  match x.mode, r with
  | .usbRun, .error e => b.ended (.setup (.readFirst e))
  | .usbRun, .ok first =>
    match checkFirst first with
    | .error e => b.ended (.setup e)
    | .ok (.versionRequest major minor) => { b with stage := .answer major minor }
    | .ok (.kickoff preseed) =>
      { b.report .usbRun "version OK (1.7)" with stage := .kickoff preseed }
  | .dhuListen, .error e => b.ended (.setup (.version (.readRequest e)))
  | .dhuListen, .ok req =>
    match checkVersionRequest req with
    | .error e => b.ended (.setup (.version e))
    | .ok (major, minor) => { b with stage := .answer major minor }

def beginHandshake (x : Setup C F) (b : Box C F) (conn : C) : Box C F :=
  let b :=
    match x.mode with
    | .usbRun => b.report .usbRun "starting TLS handshake"
    | .dhuListen => b
  { b with stage := .handshake (TlsTunnel.start conn) }

/-- The new connection, pre-seeded by a single call of `read_tls`. -/
def connect (x : Setup C F) (b : Box C F) (preseed : Option Bytes) : Box C F :=
  match x.fresh, preseed with
  | none, _ => b.ended (.setup .connection)
  | some conn, none => beginHandshake x b conn
  | some conn, some body =>
    match x.tls.tls_read_records conn body with
    | (.error _, _) => b.ended (.setup .preseedReadTls)
    | (.ok _, conn) =>
      match x.tls.tls_process_new_packets conn with
      | (.error _, _) => b.ended (.setup .preseedProcess)
      | (.ok (), conn) => beginHandshake x b conn

/-- After the version response `dhu_listen` sends a kickoff, `usb_run` does not. -/
def answered (x : Setup C F) (b : Box C F) (major minor : UInt16) : Option Nat → Box C F
  | some _ =>
    match x.mode with
    | .usbRun => b.ended (.setup .writeVersionResponse)
    | .dhuListen => b.ended (.setup (.version .writeResponse))
  | none =>
    match x.mode with
    | .usbRun => connect x (b.report .usbRun s!"version OK ({major}.{minor})") none
    | .dhuListen => { b.report .dhuListen "version OK" with stage := .kickoff none }

/-- The frame that the driver's next turn hands to the transport. -/
def handed (tls : Connection C) (d : Driver C) : Option Frame :=
  if d.pc = .draining ∧ tls.wants_write d.conn = true then
    match tls.tls_write_records d.conn with
    | (.ok (b :: bs), _) => some (sslHandshakeFrame (b :: bs))
    | _ => none
  else none

def handshakeWrites (tls : Connection C) (d : Driver C) (cut : Nat) :
    DriverEvent → List (Attempt Frame)
  | .turn => (handed tls d).toList.map (⟨·, none⟩)
  | .writeFails => (handed tls d).toList.map (⟨·, some cut⟩)
  | .receive _ => []

def handshakeStep (x : Setup C F) (b : Box C F) (d : Driver C) (ev : DriverEvent) (cut : Nat) :
    Option (Box C F) :=
  (serverNext x.tls x.fuel d ev).map fun d' =>
    let b := { b with log := b.log ++ handshakeWrites x.tls d cut ev }
    match d'.pc with
    | .returned (.ok ()) =>
      { (b.report x.mode "TLS OK").report x.mode "control loop running" with
        stage := .auth d' }
    | .returned (.error e) => (b.report x.mode ("TLS failed: " ++ e.message)).ended (.tlsFailed e)
    | _ => { b with stage := .handshake d' }

def loopFailed (x : Setup C F) (b : Box C F) (message : String) : Box C F :=
  (b.report x.mode ("control loop error: " ++ message)).ended (.loopFailed message)

/-- Step A of `run`. -/
def authFrame (x : Setup C F) (b : Box C F) (d : Driver C) : Except ReadError Frame → Box C F
  | .error e => loopFailed x b (RunError.readAuthComplete e).message
  | .ok frame =>
    match checkAuthComplete x.prost frame with
    | .error e => loopFailed x b e.message
    | .ok () =>
      { b with
        stage := .control (ControlLoop.start ⟨d.conn, ⟨wireOf Frame.encode b.log, x.faults⟩,
          x.handlers, []⟩) }

def controlStep (x : Setup C F) (b : Box C F) (s : ControlLoop.RunState C F)
    (turn : ControlLoop.Turn) : Option (Box C F) :=
  (ControlLoop.next x.tls.toSide x.prost x.floats x.fuel s turn).map fun s' =>
    let sent := ControlLoop.turnAttempts x.tls.toSide x.prost x.floats x.fuel s.session turn
    let b := { b with log := b.log ++ sent }
    match s.phase, s'.phase with
    | .starting, .returned => loopFailed x b "send ServiceDiscoveryRequest"
    | _, .returned => (b.report x.mode "control loop ended cleanly").ended .loopEnded
    | _, _ => { b with stage := .control s' }

def next (x : Setup C F) (b : Box C F) (e : Event) : Option (Box C F) :=
  match b.stage, e with
  | .first, .frame r => some (firstFrame x b r)
  | .answer major minor, .write fault =>
    some (answered x (b.wrote (versionResponse x.mode) fault) major minor fault)
  | .kickoff preseed, .write none => some (connect x (b.wrote (sslHandshakeFrame []) none) preseed)
  | .kickoff _, .write (some cut) =>
    some ((b.wrote (sslHandshakeFrame []) (some cut)).ended (.setup .writeProbe))
  | .handshake d, .handshake ev cut => handshakeStep x b d ev cut
  | .handshake d, .timeout cut =>
    let b := { b with log := b.log ++ handshakeWrites x.tls d cut .writeFails }
    some ((b.report x.mode "TLS timed out").ended .tlsTimedOut)
  | .auth d, .frame r => some (authFrame x b d r)
  | .control s, .control turn => controlStep x b s turn
  | _, _ => none

/-! ### What a run has done -/

/-- The TLS bytes that came with the head unit's kickoff. -/
def kickoffOf (x : Setup C F) : List Event → Bytes
  | .frame (.ok first) :: _ =>
    match x.mode, checkFirst first with
    | .usbRun, .ok (.kickoff preseed) => preseed.getD []
    | _, _ => []
  | _ => []

/-- The bodies of the frames that the handshake has read. -/
def bodies (xs : List Event) : Bytes :=
  xs.flatMap fun
    | .handshake ev _ => brought ev
    | _ => []

/-- What may go out before the handshake. -/
def openings : Mode → List (List Frame)
  | .usbRun => [[versionResponse .usbRun], [sslHandshakeFrame []]]
  | .dhuListen => [[versionResponse .dhuListen, sslHandshakeFrame []]]

def written (frames : List Frame) : List (Attempt Frame) := frames.map (⟨·, none⟩)

/-- The opening and the frames of the handshake, as far as they got; only the last one may be cut
short. -/
structure Plain (x : Setup C F) (log : List (Attempt Frame)) : Prop where
  frames : ∃ opening ∈ openings x.mode, ∃ pre shakes, log = pre ++ shakes ∧
    pre.map Attempt.item <+: opening ∧ (shakes ≠ [] → pre = written opening) ∧
    ∀ a ∈ shakes, ∃ body, body ≠ [] ∧ a.item = sslHandshakeFrame body
  gapless : Gapless Frame.encode log

/-- All that is plain has gone out whole. -/
structure Greeted (x : Setup C F) (produced : Bytes) (log : List (Attempt Frame)) : Prop where
  frames : ∃ opening ∈ openings x.mode, ∃ chunks : List Bytes, [] ∉ chunks ∧
    chunks.flatten = produced ∧ log = written (opening ++ chunks.map sslHandshakeFrame)

/-- What the connection has read: the kickoff's bytes, or the beginning of them, and then all that
the handshake frames carried. -/
def Heard (x : Setup C F) (seen : C → Bytes) (xs : List Event) (conn : C) : Prop :=
  ∃ c₀ taken, x.fresh = some c₀ ∧ taken <+: kickoffOf x xs ∧
    seen conn = seen c₀ ++ taken ++ bodies xs

/-- The head unit has accepted the certificate: the TLS handshake was over, and the frame that came
next says OK. -/
def Accepted (x : Setup C F) (xs : List Event) (d : Driver C) : Prop :=
  ∃ ys frame zs u, xs = ys ++ .frame (.ok frame) :: zs ∧ Run (Steps (next x)) (start x) ys u ∧
    u.stage = .auth d ∧ AuthenticationOk x.prost frame.payload

def Stage.driver : Stage C F → Option (Driver C)
  | .handshake d | .auth d => some d
  | _ => none

/-- The line that the status file ends with; an error before the handshake leaves it as it is. -/
def Stage.line (mode : Mode) : Stage C F → Option String
  | .first | .answer _ _ =>
    match mode with
    | .usbRun => some "peeking first control frame"
    | .dhuListen => some "DHU connected"
  | .kickoff _ =>
    match mode with
    | .usbRun => some "version OK (1.7)"
    | .dhuListen => some "version OK"
  | .handshake _ =>
    match mode with
    | .usbRun => some "starting TLS handshake"
    | .dhuListen => some "version OK"
  | .auth _ | .control _ => some "control loop running"
  | .ended (.setup _) => none
  | .ended (.tlsFailed e) => some ("TLS failed: " ++ e.message)
  | .ended .tlsTimedOut => some "TLS timed out"
  | .ended (.loopFailed message) => some ("control loop error: " ++ message)
  | .ended .loopEnded => some "control loop ended cleanly"

def Told (x : Setup C F) (b : Box C F) : Prop :=
  ∀ line ∈ b.stage.line x.mode, b.status.getLast? = some (x.mode.name ++ ": " ++ line)

/-- Plain frames, and encrypted ones only after all of the former have gone out whole and the head
unit has accepted. -/
def Orderly (x : Setup C F) (xs : List Event) (log : List (Attempt Frame)) : Prop :=
  ∃ plain sealed, log = plain ++ sealed ∧ Plain x plain ∧ (∀ a ∈ sealed, a.item.encrypted = true) ∧
    (sealed ≠ [] → ∃ d, Accepted x xs d ∧ Greeted x d.produced.flatten plain)

/-- The message loop has come to `s` from where the handshake left the connection and the wire. -/
def Loops (x : Setup C F) (plain : List (Attempt Frame)) (d : Driver C)
    (s : ControlLoop.RunState C F) : Prop :=
  ∃ turns, Run (Steps (ControlLoop.next x.tls.toSide x.prost x.floats x.fuel))
    (ControlLoop.start ⟨d.conn, ⟨wireOf Frame.encode plain, x.faults⟩, x.handlers, []⟩) turns s

def StageInv (x : Setup C F) (seen : C → Bytes) (xs : List Event) (b : Box C F) : Prop :=
  match b.stage with
  | .first => xs = [] ∧ b.log = []
  | .answer _ _ => b.log = [] ∧ kickoffOf x xs = [] ∧ bodies xs = []
  | .kickoff preseed => preseed.getD [] = kickoffOf x xs ∧ bodies xs = [] ∧
      ∃ frames, b.log = written frames ∧ frames ++ [sslHandshakeFrame []] ∈ openings x.mode
  | .handshake d => Greeted x d.produced.flatten b.log ∧ Heard x seen xs d.conn
  | .auth d => Greeted x d.produced.flatten b.log ∧ Heard x seen xs d.conn
  | .control s => ∃ plain d, b.log = plain ++ s.log ∧ Greeted x d.produced.flatten plain ∧
      Accepted x xs d ∧ (∀ a ∈ s.log, a.item.encrypted = true) ∧ Loops x plain d s
  | .ended _ => Orderly x xs b.log

variable {x : Setup C F} {b b' : Box C F} {xs : List Event} {e : Event} {seen : C → Bytes}
  {d d' : Driver C} {ev : DriverEvent} {cut : Nat} {log more : List (Attempt Frame)}
  {produced : Bytes} {opening frames : List Frame} {body : Bytes} {r : Except ReadError Frame}

theorem gapless_written (frames : List Frame) (h : more = [] ∨ ∃ a, more = [a]) :
    Gapless Frame.encode (written frames ++ more) := by
  refine gapless_append ?_ ?_ (.inr ?_)
  · rcases h with rfl | ⟨a, rfl⟩
    · trivial
    · exact ⟨.inr rfl, trivial⟩
  · induction frames with
    | nil => trivial
    | cons f frames ih => exact ⟨.inl (Attempt.complete_of_no_fault rfl), ih⟩
  · intro a ha
    obtain ⟨f, -, rfl⟩ := List.mem_map.mp ha
    exact Attempt.complete_of_no_fault rfl

theorem item_written (frames : List Frame) : (written frames).map Attempt.item = frames := by
  simp [written, Function.comp_def]

theorem plain_opening (hmem : opening ∈ openings x.mode) {fault : Option Nat} {frame : Frame}
    (h : frames ++ [frame] <+: opening) : Plain x (written frames ++ [⟨frame, fault⟩]) := by
  refine ⟨⟨opening, hmem, _, [], (List.append_nil _).symm, ?_, by simp, by simp⟩,
    gapless_written frames (.inr ⟨_, rfl⟩)⟩
  rwa [List.map_append, item_written]

theorem plain_whole (hmem : opening ∈ openings x.mode) (h : frames <+: opening) :
    Plain x (written frames) := by
  refine ⟨⟨opening, hmem, _, [], (List.append_nil _).symm, ?_, by simp, by simp⟩, ?_⟩
  · rwa [item_written]
  · simpa using gapless_written frames (.inl rfl)

theorem plain_nil (x : Setup C F) : Plain x [] := by
  have hsome : ∃ opening, opening ∈ openings x.mode := by
    cases hm : x.mode <;> exact ⟨_, List.mem_cons_self ..⟩
  obtain ⟨opening, hmem⟩ := hsome
  exact plain_whole hmem List.nil_prefix

theorem Greeted.plain (h : Greeted x produced log)
    (hmore : more = [] ∨ ∃ body fault, body ≠ [] ∧ more = [⟨sslHandshakeFrame body, fault⟩]) :
    Plain x (log ++ more) := by
  obtain ⟨opening, hmem, chunks, hne, -, rfl⟩ := h.frames
  refine ⟨⟨opening, hmem, written opening, written (chunks.map sslHandshakeFrame) ++ more, ?_,
    by rw [item_written], fun _ => rfl, ?_⟩, gapless_written _ ?_⟩
  · simp [written]
  · intro a ha
    rcases List.mem_append.mp ha with ha | ha
    · obtain ⟨f, hf, rfl⟩ := List.mem_map.mp ha
      obtain ⟨body, hbody, rfl⟩ := List.mem_map.mp hf
      exact ⟨body, fun hnil => hne (hnil ▸ hbody), rfl⟩
    · rcases hmore with rfl | ⟨body, fault, hbody, rfl⟩
      · cases ha
      · rw [List.mem_singleton.mp ha]
        exact ⟨body, hbody, rfl⟩
  · rcases hmore with rfl | ⟨body, fault, -, rfl⟩
    · exact .inl rfl
    · exact .inr ⟨_, rfl⟩

theorem Greeted.whole (h : Greeted x produced log) : Plain x log := by
  simpa using h.plain (.inl rfl)

theorem orderly_plain (h : Plain x log) : Orderly x xs log :=
  ⟨log, [], (List.append_nil _).symm, h, by simp, by simp⟩

theorem greeted_opening (hmem : opening ∈ openings x.mode) : Greeted x [] (written opening) :=
  ⟨opening, hmem, [], by simp, rfl, by simp⟩

theorem stageInv_ended {outcome : Outcome} (h : Orderly x xs b.log) :
    StageInv x seen xs (b.ended outcome) := h

theorem beginHandshake_inv {c₀ conn : C} {taken : Bytes} (hmem : opening ∈ openings x.mode)
    (hlog : b.log = written opening) (hfresh : x.fresh = some c₀)
    (htaken : taken <+: kickoffOf x xs) (hseen : seen conn = seen c₀ ++ taken)
    (hbodies : bodies xs = []) : StageInv x seen xs (beginHandshake x b conn) := by
  have hsame : (beginHandshake x b conn).log = b.log := by
    unfold beginHandshake
    cases x.mode <;> rfl
  refine ⟨?_, c₀, taken, hfresh, htaken, ?_⟩
  · rw [hsame, hlog]
    exact greeted_opening hmem
  · rw [hbodies, List.append_nil]
    exact hseen

theorem connect_inv (hin : Input x.tls seen) {preseed : Option Bytes}
    (hmem : opening ∈ openings x.mode) (hlog : b.log = written opening)
    (hkickoff : preseed.getD [] = kickoffOf x xs) (hbodies : bodies xs = []) :
    StageInv x seen xs (connect x b preseed) := by
  have hplain : Orderly x xs b.log := by
    rw [hlog]
    exact orderly_plain (greeted_opening hmem).whole
  unfold connect
  split
  · exact stageInv_ended hplain
  · rename_i c₀ hfresh
    exact beginHandshake_inv hmem hlog hfresh List.nil_prefix (List.append_nil _).symm hbodies
  · rename_i c₀ body hfresh
    split
    · exact stageInv_ended hplain
    · rename_i n conn hread
      split
      · exact stageInv_ended hplain
      · rename_i conn' hprocess
        have htaken : body.take n <+: kickoffOf x xs := by
          rw [← hkickoff]
          exact List.take_prefix n body
        refine beginHandshake_inv hmem hlog hfresh htaken ?_ hbodies
        rw [hin.process hprocess, hin.read hread]

theorem log_report (b : Box C F) (mode : Mode) (line : String) : (b.report mode line).log = b.log :=
  rfl

theorem answered_inv (hin : Input x.tls seen) {major minor : UInt16} {fault : Option Nat}
    (hlog : b.log = [⟨versionResponse x.mode, fault⟩]) (hkickoff : kickoffOf x xs = [])
    (hbodies : bodies xs = []) : StageInv x seen xs (answered x b major minor fault) := by
  have hopening : ∃ opening ∈ openings x.mode, [] ++ [versionResponse x.mode] <+: opening := by
    cases x.mode with
    | usbRun => exact ⟨_, List.mem_cons_self .., List.prefix_rfl⟩
    | dhuListen => exact ⟨_, List.mem_cons_self .., [sslHandshakeFrame []], rfl⟩
  obtain ⟨opening, hmem, hprefix⟩ := hopening
  cases fault with
  | some cut =>
    have hplain : Orderly x xs b.log := by
      rw [hlog]
      exact orderly_plain (plain_opening hmem hprefix)
    unfold answered
    cases x.mode <;> exact stageInv_ended hplain
  | none =>
    unfold answered
    cases hm : x.mode with
    | usbRun =>
      rw [hm] at hlog
      have hmem : [versionResponse .usbRun] ∈ openings x.mode := by
        rw [hm]
        exact List.mem_cons_self ..
      exact connect_inv hin hmem hlog hkickoff.symm hbodies
    | dhuListen =>
      refine ⟨hkickoff.symm, hbodies, [versionResponse .dhuListen], ?_, ?_⟩
      · rw [log_report, hlog, hm]
        rfl
      · rw [hm]
        exact List.mem_cons_self ..

theorem firstFrame_inv (hlog : b.log = []) :
    StageInv x seen [.frame r] (firstFrame x b r) := by
  have hplain : Orderly x [.frame r] b.log := by
    rw [hlog]
    exact orderly_plain (plain_nil x)
  unfold firstFrame
  cases hm : x.mode with
  | usbRun =>
    cases r with
    | error e => exact stageInv_ended hplain
    | ok first =>
      dsimp only
      cases hfirst : checkFirst first with
      | error e => exact stageInv_ended hplain
      | ok res =>
        cases res with
        | versionRequest major minor => exact ⟨hlog, by simp [kickoffOf, hm, hfirst], rfl⟩
        | kickoff preseed =>
          refine ⟨by simp [kickoffOf, hm, hfirst], rfl, [], hlog, ?_⟩
          rw [hm]
          exact List.mem_cons_of_mem _ (List.mem_cons_self ..)
  | dhuListen =>
    cases r with
    | error e => exact stageInv_ended hplain
    | ok req =>
      dsimp only
      split
      · exact stageInv_ended hplain
      · exact ⟨hlog, by simp [kickoffOf, hm], rfl⟩

theorem handed_some {frame : Frame} {tls : Connection C} (h : handed tls d = some frame) :
    ∃ body, body ≠ [] ∧ frame = sslHandshakeFrame body := by
  unfold handed at h
  split at h
  · split at h <;> cases h
    exact ⟨_, List.cons_ne_nil _ _, rfl⟩
  · cases h

theorem handshakeWrites_cases (tls : Connection C) (d : Driver C) (cut : Nat) (ev : DriverEvent) :
    handshakeWrites tls d cut ev = [] ∨ ∃ body fault, body ≠ [] ∧
      handshakeWrites tls d cut ev = [⟨sslHandshakeFrame body, fault⟩] := by
  cases hframe : handed tls d with
  | none => cases ev <;> exact .inl (by simp [handshakeWrites, hframe])
  | some frame =>
    obtain ⟨body, hbody, rfl⟩ := handed_some hframe
    cases ev with
    | turn => exact .inr ⟨body, none, hbody, by simp [handshakeWrites, hframe]⟩
    | writeFails => exact .inr ⟨body, some cut, hbody, by simp [handshakeWrites, hframe]⟩
    | receive r => exact .inl rfl

theorem serverNext_greets (cut : Nat) {tls : Connection C} {fuel : Nat}
    (h : serverNext tls fuel d ev = some d') (hlive : ¬ Failed d') :
    ∃ chunks : List Bytes, [] ∉ chunks ∧
      d'.produced.flatten = d.produced.flatten ++ chunks.flatten ∧
      handshakeWrites tls d cut ev = written (chunks.map sslHandshakeFrame) := by
  have hquiet : handed tls d = none → d'.produced = d.produced → (ev = .turn ∨ ev = .writeFails) →
      ∃ chunks : List Bytes, [] ∉ chunks ∧
        d'.produced.flatten = d.produced.flatten ++ chunks.flatten ∧
        handshakeWrites tls d cut ev = written (chunks.map sslHandshakeFrame) := by
    intro hnone hproduced hev
    refine ⟨[], by simp, by simp [hproduced], ?_⟩
    rcases hev with rfl | rfl <;> simp [handshakeWrites, hnone, written]
  unfold serverNext at h
  split at h
  · rename_i hpc
    have hnone : handed tls d = none := by simp [handed, hpc]
    split at h <;> cases h <;> exact hquiet hnone rfl (.inl rfl)
  · rename_i hpc
    split at h
    · rename_i hwants
      unfold TlsTunnel.drain at h
      split at h
      · cases h
        exact (hlive ⟨_, rfl⟩).elim
      · rename_i conn hwrite
        cases h
        exact ⟨[], by simp, by simp, by simp [handshakeWrites, handed, hwrite, written]⟩
      · rename_i b bs conn hwrite
        cases h
        refine ⟨[b :: bs], by simp, by simp, ?_⟩
        simp [handshakeWrites, handed, hpc, hwants, hwrite, written]
    · rename_i hwants
      cases h
      exact hquiet (by simp [handed, hwants]) rfl (.inl rfl)
  · split at h
    · unfold TlsTunnel.drain at h
      split at h
      · cases h
        exact (hlive ⟨_, rfl⟩).elim
      · cases h
      · cases h
        exact (hlive ⟨_, rfl⟩).elim
    · cases h
  · obtain ⟨hproduced, -⟩ := Handshake.receive_cases h
    exact ⟨[], by simp, by simp [hproduced], rfl⟩
  · cases h

theorem Greeted.append (h : Greeted x produced log) {chunks : List Bytes} (hne : [] ∉ chunks) :
    Greeted x (produced ++ chunks.flatten) (log ++ written (chunks.map sslHandshakeFrame)) := by
  obtain ⟨opening, hmem, before, hbefore, rfl, rfl⟩ := h.frames
  refine ⟨opening, hmem, before ++ chunks, ?_, by simp, by simp [written]⟩
  rw [List.mem_append]
  exact fun hor => hor.elim hbefore hne

theorem kickoffOf_append (h : xs ≠ []) (ys : List Event) :
    kickoffOf x (xs ++ ys) = kickoffOf x xs := by
  cases xs with
  | nil => exact (h rfl).elim
  | cons e xs =>
    cases e with
    | frame r => cases r <;> rfl
    | _ => rfl

theorem bodies_append (xs ys : List Event) : bodies (xs ++ ys) = bodies xs ++ bodies ys := by
  simp [bodies]

/-- A step of the driver that does not end it in an error. -/
theorem heard_step (hin : Input x.tls seen) (hxs : xs ≠ []) (h : Heard x seen xs d.conn)
    (hstep : serverNext x.tls x.fuel d ev = some d') (hlive : ¬ Failed d') :
    Heard x seen (xs ++ [.handshake ev cut]) d'.conn := by
  obtain ⟨c₀, taken, hfresh, htaken, hseen⟩ := h
  obtain ⟨got, rest, hbrought, hgot, hnil⟩ := (server_moves hin hstep).read
  obtain rfl := hnil hlive
  refine ⟨c₀, taken, hfresh, by rwa [kickoffOf_append hxs], ?_⟩
  rw [hgot, hseen, bodies_append, List.append_assoc _ (bodies xs)]
  simp [bodies, hbrought]

theorem handshakeStep_inv (hin : Input x.tls seen) (hxs : xs ≠ [])
    (hgreeted : Greeted x d.produced.flatten b.log) (hheard : Heard x seen xs d.conn)
    (hstep : handshakeStep x b d ev cut = some b') :
    StageInv x seen (xs ++ [.handshake ev cut]) b' := by
  obtain ⟨d', hnext, rfl⟩ := Option.map_eq_some_iff.mp hstep
  have hlive : ¬ Failed d' → Greeted x d'.produced.flatten
      (b.log ++ handshakeWrites x.tls d cut ev) ∧
        Heard x seen (xs ++ [.handshake ev cut]) d'.conn := by
    intro hlive
    obtain ⟨chunks, hne, hproduced, hwrites⟩ := serverNext_greets cut hnext hlive
    rw [hproduced, hwrites]
    exact ⟨hgreeted.append hne, heard_step hin hxs hheard hnext hlive⟩
  cases hpc : d'.pc with
  | returned res =>
    cases res with
    | ok _ =>
      exact hlive (not_failed hpc (by simp))
    | error e =>
      exact stageInv_ended (orderly_plain (hgreeted.plain (handshakeWrites_cases _ _ _ _)))
  | test | draining | reading =>
    exact hlive (not_failed hpc (by simp))

theorem Accepted.append (h : Accepted x xs d) (e : Event) : Accepted x (xs ++ [e]) d := by
  obtain ⟨ys, frame, zs, u, rfl, hrun, hstage, hok⟩ := h
  exact ⟨ys, frame, zs ++ [e], u, by simp, hrun, hstage, hok⟩

theorem authFrame_inv (hrun : Run (Steps (next x)) (start x) xs b) (hstage : b.stage = .auth d)
    (hgreeted : Greeted x d.produced.flatten b.log) :
    StageInv x seen (xs ++ [.frame r]) (authFrame x b d r) := by
  have hplain : Orderly x (xs ++ [.frame r]) b.log := orderly_plain hgreeted.whole
  unfold authFrame
  cases r with
  | error e => exact stageInv_ended hplain
  | ok frame =>
    dsimp only
    split
    · exact stageInv_ended hplain
    · rename_i hok
      refine ⟨b.log, d, ?_, hgreeted, ?_, ?_, [], .refl⟩
      · simp [ControlLoop.start]
      · exact ⟨xs, frame, [], b, rfl, hrun, hstage, checkAuthComplete_ok.mp hok⟩
      · simp [ControlLoop.start]

theorem sendAllAttempts_encrypted {side : Side C} {fuel : Nat} {session : Session C F}
    {outs : List OutboundMessage} :
    ∀ a ∈ ControlLoop.sendAllAttempts side fuel session outs, a.item.encrypted = true := by
  induction outs generalizing session with
  | nil => simp [ControlLoop.sendAllAttempts]
  | cons out outs ih =>
    intro a ha
    rw [ControlLoop.sendAllAttempts] at ha
    rcases List.mem_append.mp ha with ha | ha
    · exact (sendAttempts_sealed ha).1
    · split at ha
      · exact ih a ha
      · cases ha

theorem turnAttempts_encrypted {side : Side C} {p : StartupProst} {fl : Sensor.Floats F}
    {fuel : Nat} {session : Session C F} {turn : ControlLoop.Turn} :
    ∀ a ∈ ControlLoop.turnAttempts side p fl fuel session turn, a.item.encrypted = true := by
  intro a ha
  unfold ControlLoop.turnAttempts at ha
  split at ha
  · cases ha
  · exact sendAllAttempts_encrypted a ha

theorem controlStep_inv {s : ControlLoop.RunState C F} {turn : ControlLoop.Turn}
    (hstage : b.stage = .control s) (h : StageInv x seen xs b)
    (hstep : controlStep x b s turn = some b') :
    StageInv x seen (xs ++ [.control turn]) b' := by
  obtain ⟨s', hnext, rfl⟩ := Option.map_eq_some_iff.mp hstep
  rw [StageInv, hstage] at h
  obtain ⟨plain, d, hlog, hgreeted, haccepted, hsealed, turns, hloop⟩ := h
  obtain ⟨hlog', -⟩ := ControlLoop.next_logged hnext
  have haccepted' := haccepted.append (.control turn)
  have hsealed' : ∀ a ∈ s'.log, a.item.encrypted = true := by
    rw [hlog']
    exact List.forall_mem_append.mpr ⟨hsealed, turnAttempts_encrypted⟩
  have hall : b.log ++
      ControlLoop.turnAttempts x.tls.toSide x.prost x.floats x.fuel s.session turn =
        plain ++ s'.log := by
    rw [hlog, hlog', List.append_assoc]
  have horderly : Orderly x (xs ++ [.control turn]) (plain ++ s'.log) :=
    ⟨plain, s'.log, rfl, hgreeted.whole, hsealed', fun _ => ⟨d, haccepted', hgreeted⟩⟩
  rw [← hall] at horderly
  have hgoes : StageInv x seen (xs ++ [.control turn]) { b with
      log := b.log ++
        ControlLoop.turnAttempts x.tls.toSide x.prost x.floats x.fuel s.session turn
      stage := .control s' } :=
    ⟨plain, d, hall, hgreeted, haccepted', hsealed', turns ++ [turn],
      hloop.trans (.stepL hnext .refl)⟩
  dsimp only
  split
  · exact stageInv_ended horderly
  · exact stageInv_ended horderly
  · exact hgoes

/-- What holds of a state and of the events that led to it. -/
structure Inv (x : Setup C F) (seen : C → Bytes) (b : Box C F) (xs : List Event) : Prop where
  run : Run (Steps (next x)) (start x) xs b
  stage : StageInv x seen xs b

theorem Inv.begun (h : Inv x seen b xs) (hstage : ¬ b.stage matches .first) : xs ≠ [] := by
  rintro rfl
  cases h.run
  exact hstage rfl

theorem inv_step (hin : Input x.tls seen) (h : Inv x seen b xs) (hstep : next x b e = some b') :
    Inv x seen b' (xs ++ [e]) := by
  refine ⟨h.run.trans (.stepL hstep .refl), ?_⟩
  have hinv := h.stage
  have hbegun := h.begun
  rw [StageInv] at hinv
  unfold next at hstep
  split at hstep
  · rename_i hstage
    rw [hstage] at hinv
    obtain ⟨rfl, hlog⟩ := hinv
    cases hstep
    exact firstFrame_inv hlog
  · rename_i major minor fault hstage
    rw [hstage] at hinv hbegun
    obtain ⟨hlog, hkickoff, hbodies⟩ := hinv
    cases hstep
    refine answered_inv hin ?_ ?_ ?_
    · rw [Box.wrote, hlog]
      rfl
    · rw [kickoffOf_append (hbegun (by simp)), hkickoff]
    · rw [bodies_append, hbodies]
      rfl
  · rename_i preseed hstage
    rw [hstage] at hinv hbegun
    obtain ⟨hkickoff, hbodies, frames, hlog, hmem⟩ := hinv
    cases hstep
    refine connect_inv hin hmem ?_ ?_ ?_
    · rw [Box.wrote, hlog]
      simp [written]
    · rw [kickoffOf_append (hbegun (by simp)), hkickoff]
    · rw [bodies_append, hbodies]
      rfl
  · rename_i preseed cut hstage
    rw [hstage] at hinv
    obtain ⟨-, -, frames, hlog, hmem⟩ := hinv
    cases hstep
    refine stageInv_ended (orderly_plain ?_)
    rw [Box.wrote, hlog]
    exact plain_opening hmem List.prefix_rfl
  · rename_i d ev cut hstage
    rw [hstage] at hinv hbegun
    exact handshakeStep_inv hin (hbegun (by simp)) hinv.1 hinv.2 hstep
  · rename_i d cut hstage
    rw [hstage] at hinv
    cases hstep
    exact stageInv_ended (orderly_plain (hinv.1.plain (handshakeWrites_cases _ _ _ _)))
  · rename_i d r hstage
    rw [hstage] at hinv
    cases hstep
    exact authFrame_inv h.run hstage hinv.1
  · rename_i s turn hstage
    exact controlStep_inv hstage h.stage hstep
  · cases hstep

/-- A stage that has the line of the one before it. -/
theorem Told.congr (h : Told x b) (hstatus : b'.status = b.status)
    (hline : b'.stage.line x.mode = b.stage.line x.mode) : Told x b' := by
  rw [Told, hstatus, hline]
  exact h

theorem inv_start (x : Setup C F) (seen : C → Bytes) : Inv x seen (start x) [] :=
  ⟨.refl, rfl, rfl⟩

end Aabox.BringUp
