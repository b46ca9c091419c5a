import Aabox.Channels
import Aabox.Control
import Aabox.Encrypted

/-!
# The TLS handshake in SslHandshake frames

Each driver is a loop over its connection: `test` is the `while is_handshaking`, `draining` the
inner loop over `wants_write`, `reading` the wait in `read_frame`. `produced` lists what `write_tls`
gave.
-/
namespace Aabox.TlsTunnel
open Aabox.Lib Aabox.Framing Aabox.Control Aabox.Encrypted

/-- A connection as the drivers see it: `read_tls`, `write_tls` and `process_new_packets` are the
ones the record layer uses. -/
structure Connection (C : Type) extends Side C where
  is_handshaking : C → Bool
  wants_write : C → Bool

inductive BodyError
  | channel (channel_id : UInt8)
  | tooShort
  | msgId (msg_id : UInt16)
  deriving DecidableEq, Repr

def BodyError.message : BodyError → String
  | .channel channel_id => s!"not a control-channel frame (got channel {channel_id})"
  | .tooShort => "control payload too short"
  | .msgId msg_id => s!"expected SSL_HANDSHAKE (0x0003), got 0x{hex4 msg_id}"

def sslHandshakeFrame (body : Bytes) : Frame :=
  .bulkControl ChannelId.control.toU8 ControlMessageId.sslHandshake.toU16 body

def sslHandshakeBody (frame : Frame) : Except BodyError Bytes :=
  if frame.channel_id ≠ ChannelId.control.toU8 then .error (.channel frame.channel_id)
  else
    match frame.payload with
    | b₁ :: b₀ :: body =>
      let msg_id := UInt16.ofNat (beValue [b₁, b₀])
      if msg_id ≠ ControlMessageId.sslHandshake.toU16 then .error (.msgId msg_id) else .ok body
    | _ => .error .tooShort

inductive TunnelError
  | writeTls
  | writeFrame
  | readFrame (e : ReadError)
  | body (e : BodyError)
  | readTls
  | processNewPackets
  deriving DecidableEq, Repr

def TunnelError.message : TunnelError → String
  | .writeTls => "write_tls"
  | .writeFrame => "write SslHandshake frame"
  | .readFrame _ => "read SslHandshake frame"
  | .body _ => "extract SslHandshake body"
  | .readTls => "read_tls"
  | .processNewPackets => "process_new_packets"

inductive Pc
  | test | draining | reading
  | returned (res : Except TunnelError Unit)
  deriving DecidableEq, Repr

structure Driver (C : Type) where
  conn : C
  pc : Pc
  produced : List Bytes
  sent : List Frame

/-- `receive` is the end of `read_frame`, `writeFails` a turn whose `write_frame` fails. -/
inductive DriverEvent
  | turn
  | writeFails
  | receive (r : Except ReadError Frame)
  deriving DecidableEq, Repr

variable {C : Type}

/-- `while cursor.position() < body.len()`: the body is fed to `read_tls` until it is used up. -/
def feedLoop (side : Side C) (fuel : Nat) (conn : C) (body : Bytes) :
    Option (Except CryptError Unit × C) := loop (feedTurn side) fuel (body, conn)

/-- A frame taken apart, fed to the connection and processed. -/
def takeFrame (side : Connection C) (fuel : Nat) (conn : C) (frame : Frame) :
    Option (Except TunnelError Unit × C) :=
  match sslHandshakeBody frame with
  | .error e => some (.error (.body e), conn)
  | .ok body =>
    match feedLoop side.toSide fuel conn body with
    | none => none
    | some (.error _, conn) => some (.error .readTls, conn)
    | some (.ok (), conn) =>
      match side.tls_process_new_packets conn with
      | (.error _, conn) => some (.error .processNewPackets, conn)
      | (.ok (), conn) => some (.ok (), conn)

/-- One turn of `while wants_write`; an empty buffer is not sent. -/
def drain (side : Connection C) (d : Driver C) (written : Bool) : Option (Driver C) :=
  match side.tls_write_records d.conn with
  | (.error _, conn) => some { d with conn, pc := .returned (.error .writeTls) }
  | (.ok [], conn) => if written then some { d with conn, produced := d.produced ++ [[]] } else none
  | (.ok (b :: bs), conn) =>
    let d := { d with conn, produced := d.produced ++ [b :: bs] }
    if written then some { d with sent := d.sent ++ [sslHandshakeFrame (b :: bs)] }
    else some { d with pc := .returned (.error .writeFrame) }

/-- The frame that `read_frame` returns; `pc` is where the loop goes on. -/
def receive (side : Connection C) (fuel : Nat) (d : Driver C) (pc : Pc) :
    Except ReadError Frame → Option (Driver C)
  | .error e => some { d with pc := .returned (.error (.readFrame e)) }
  | .ok frame =>
    match takeFrame side fuel d.conn frame with
    | none => none
    | some (.error e, conn) => some { d with conn, pc := .returned (.error e) }
    | some (.ok (), conn) => some { d with conn, pc }

/-- `client_handshake`: drain, then read if still handshaking. -/
def clientNext (side : Connection C) (fuel : Nat) (d : Driver C) (ev : DriverEvent) :
    Option (Driver C) :=
  match d.pc, ev with
  | .test, .turn =>
    some { d with pc := if side.is_handshaking d.conn then .draining else .returned (.ok ()) }
  | .draining, .turn =>
    if side.wants_write d.conn then drain side d true
    else some { d with pc := if side.is_handshaking d.conn then .reading else .test }
  | .draining, .writeFails => if side.wants_write d.conn then drain side d false else none
  | .reading, .receive r => receive side fuel d .test r
  | _, _ => none

/-- `server_handshake`: read if there is nothing to write, then drain. -/
def serverNext (side : Connection C) (fuel : Nat) (d : Driver C) (ev : DriverEvent) :
    Option (Driver C) :=
  match d.pc, ev with
  | .test, .turn =>
    if side.is_handshaking d.conn then
      some { d with
        pc := if side.is_handshaking d.conn && !side.wants_write d.conn then .reading else .draining }
    else some { d with pc := .returned (.ok ()) }
  | .draining, .turn =>
    if side.wants_write d.conn then drain side d true else some { d with pc := .test }
  | .draining, .writeFails => if side.wants_write d.conn then drain side d false else none
  | .reading, .receive r => receive side fuel d .draining r
  | _, _ => none

def start (conn : C) : Driver C := ⟨conn, .test, [], []⟩

end Aabox.TlsTunnel
