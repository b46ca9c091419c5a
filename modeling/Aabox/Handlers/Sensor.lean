import Aabox.Channels
import Aabox.Messages

/-! The sensor channel: every GPS record goes to the navigation queue and to the NDJSON log. -/
namespace Aabox.Sensor
open Aabox.Lib Aabox.Messages

def MSG_SENSOR_START_REQUEST : UInt16 := 0x8001
def MSG_SENSOR_START_RESPONSE : UInt16 := 0x8002
def MSG_SENSOR_EVENT_INDICATION : UInt16 := 0x8003

/-- Floating point: `scaled n d` is `n as f64 / d`, and `decimals k x` prints `x` with `k` decimals.
-/
structure Floats (F : Type) where
  scaled : Int → Nat → F
  decimals : Nat → F → String

structure PositionFix (F : Type) where
  timestamp_ms : Int
  lat : F
  lon : F
  bearing_deg : F
  speed_mps : F
  accuracy_m : F
  deriving DecidableEq, Repr

/-- The bounded queue to the navigation runner. -/
structure GpsSink (F : Type) where
  queue : List (PositionFix F)
  capacity : Nat
  closed : Bool
  deriving DecidableEq, Repr

/-- Whether the log file opens, and whether a write to it succeeds, at one call. -/
structure LogOutcome where
  opens : Bool
  writes : Bool
  deriving DecidableEq, Repr

/-- `appended` lists the calls of `append_gps`; the n-th finds the log as `outcome n` says. -/
structure SensorHandler (F : Type) where
  gps_sink : Option (GpsSink F)
  file_open : Bool
  log : List String
  outcome : Nat → LogOutcome
  appended : List GpsLocation

variable {F : Type}

def GpsSink.trySend (sink : GpsSink F) (fix : PositionFix F) : GpsSink F :=
  if sink.closed then sink
  else if sink.capacity ≤ sink.queue.length then sink
  else { sink with queue := sink.queue ++ [fix] }

def positionFix (fl : Floats F) (loc : GpsLocation) : PositionFix F :=
  { timestamp_ms := loc.timestamp
    lat := fl.scaled loc.latitude 10000000
    lon := fl.scaled loc.longitude 10000000
    bearing_deg := fl.scaled loc.bearing 1000000
    speed_mps := fl.scaled loc.speed 1000
    accuracy_m := fl.scaled loc.accuracy 1000 }

def logLine (fl : Floats F) (loc : GpsLocation) : String :=
  let lat := fl.decimals 7 (fl.scaled loc.latitude 10000000)
  let lon := fl.decimals 7 (fl.scaled loc.longitude 10000000)
  let alt_m := fl.decimals 3 (fl.scaled loc.altitude 1000)
  let speed_mps := fl.decimals 3 (fl.scaled loc.speed 1000)
  let bearing_deg := fl.decimals 3 (fl.scaled loc.bearing 1000000)
  let accuracy_m := fl.decimals 3 (fl.scaled loc.accuracy 1000)
  s!"\x7b\"ts\":{loc.timestamp},\"lat\":{lat},\"lon\":{lon},\"alt\":{alt_m}," ++
    s!"\"speed_mps\":{speed_mps},\"bearing_deg\":{bearing_deg},\"accuracy_m\":{accuracy_m}\x7d\n"

/-- The file stays open once it has been opened; a line that cannot be written is dropped. -/
def appendGps (fl : Floats F) (h : SensorHandler F) (loc : GpsLocation) : SensorHandler F :=
  let outcome := h.outcome h.appended.length
  let file_open := h.file_open || outcome.opens
  { h with
    appended := h.appended ++ [loc]
    gps_sink := h.gps_sink.map fun sink => sink.trySend (positionFix fl loc)
    file_open
    log := if file_open && outcome.writes then h.log ++ [logLine fl loc] else h.log }

def handle (prost : Prost) (fl : Floats F) (h : SensorHandler F) (msg_id : UInt16) (payload : Bytes) :
    Except HandlerError (List OutboundMessage) × SensorHandler F :=
  if msg_id = MSG_SENSOR_START_REQUEST then
    match prost.sensorStartRequest payload with
    | none => (.error .sensorStartRequest, h)
    | some () =>
      (.ok [⟨ChannelId.sensor.toU8, MSG_SENSOR_START_RESPONSE,
        prost.sensorStartResponse prost.status_ok⟩], h)
  else if msg_id = MSG_SENSOR_EVENT_INDICATION then
    match prost.sensorEventIndication payload with
    | none => (.error .sensorEventIndication, h)
    | some ev => (.ok [], ev.gps_location.foldl (appendGps fl) h)
  else (.ok [], h)

variable {fl : Floats F} {h : SensorHandler F}

theorem appended_foldl (locs : List GpsLocation) :
    (locs.foldl (appendGps fl) h).appended = h.appended ++ locs := by
  induction locs generalizing h with
  | nil => simp
  | cons loc locs ih =>
    rw [List.foldl_cons, ih]
    simp [appendGps]

end Aabox.Sensor
