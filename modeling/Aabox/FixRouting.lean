import Aabox.HandleFrame

/-! What becomes of the GPS fixes in a sensor event on their way through the receive path. -/
namespace Aabox.FixRouting
open Aabox.Lib Aabox.Framing Aabox.Encrypted Aabox.Messages Aabox.HandleFrame Aabox.Sensor

variable {C F : Type} {side : Side C} {prost : Prost} {fl : Floats F} {fuel : Nat}
  {s : Session C F} {frame : Frame} {conn : C} {body : Bytes} {ev : SensorEventIndication}

/-- A sensor event on the sensor channel. -/
def sensorEvent (body : Bytes) : Message :=
  ⟨ChannelId.sensor.toU8, MSG_SENSOR_EVENT_INDICATION, body⟩

/-- `append_gps` has been called once for each record, in order. -/
def EachAppended (fl : Floats F) (records : List GpsLocation) (before after : SensorHandler F) :
    Prop := after = records.foldl (appendGps fl) before

theorem route_sensorEvent (h : Handlers F) (body : Bytes) :
    (route prost fl h (sensorEvent body)) = (.ok [], h) := by
  have hdispatch : Dispatch.dispatch prost fl h.sensor ChannelId.sensor.toU8 0x8003 body =
      (.ok [], h.sensor) := Dispatch.dispatch_setupResponse
  have hchan : ChannelId.tryFrom ChannelId.sensor.toU8 = some .sensor := by decide
  have hcross : isCrossChannelControl 0x8003 = false := by decide
  have hvideo : intercept h.video ChannelId.sensor.toU8 0x8003 = h.video := by
    rw [intercept_eq]
    rfl
  simp only [route, sensorEvent, MSG_SENSOR_EVENT_INDICATION, hdispatch, hchan, hcross, hvideo]
  rfl

/-- The setup-response intercept takes every sensor event: no record is appended. -/
theorem handleFrame_sensorEvent
    (hopen : openFrame side fuel s.conn frame = some (.ok (sensorEvent body), conn)) :
    handleFrame side prost fl fuel s frame =
      some (.ok (), { s with conn, acted := s.acted ++ [sensorEvent body] }) := by
  rw [handleFrame_ok hopen (route_sensorEvent s.handlers body)]
  rfl

/-- The fixes of a sensor event are appended exactly when it has none. -/
theorem each_appended_iff
    (hopen : openFrame side fuel s.conn frame = some (.ok (sensorEvent body), conn))
    (_hdec : prost.sensorEventIndication body = some ev) :
    ∃ s', handleFrame side prost fl fuel s frame = some (.ok (), s') ∧
      (EachAppended fl ev.gps_location s.handlers.sensor s'.handlers.sensor ↔
        ev.gps_location = []) := by
  refine ⟨_, handleFrame_sensorEvent hopen, ?_⟩
  constructor
  · intro h
    have happended := congrArg SensorHandler.appended h
    rw [appended_foldl] at happended
    simpa using happended
  · intro h
    rw [EachAppended, h]
    rfl

def wholeUnits : Floats Int where
  scaled n d := n / d
  decimals _ x := toString x

/-- A session that has just begun, with a navigation queue of one slot. -/
def freshSession : Session SendEncrypted.ClearConn Int where
  conn := ⟨[], [], []⟩
  writer := ⟨[], []⟩
  handlers := {
    sensor := { gps_sink := some ⟨[], 1, false⟩, file_open := false, log := []
                outcome := fun _ => ⟨true, true⟩, appended := [] }
    audio := .new
    video := .new Video.VIDEO_MAX_UNACKED }
  acted := []

theorem empty_event_appended :
    ∃ s', handleFrame SendEncrypted.clearSide emptyBodies wholeUnits 1 freshSession
        (.bulkControl 2 0x8003 []) = some (.ok (), s') ∧
      EachAppended wholeUnits [] freshSession.handlers.sensor s'.handlers.sensor := by
  have hopen : openFrame SendEncrypted.clearSide 1 freshSession.conn (.bulkControl 2 0x8003 []) =
      some (.ok (sensorEvent []), freshSession.conn) := rfl
  have hdec : emptyBodies.sensorEventIndication [] = some ⟨[]⟩ := rfl
  obtain ⟨s', hrun, hiff⟩ := each_appended_iff hopen hdec
  exact ⟨s', hrun, hiff.mpr rfl⟩

/-- One fix in a sensor event, and nothing is appended. -/
theorem fix_swallowed :
    ¬ ∀ (prost : Prost) (s s' : Session SendEncrypted.ClearConn Int) (frame : Frame) (body : Bytes)
        (ev : SensorEventIndication) (conn : SendEncrypted.ClearConn),
      openFrame SendEncrypted.clearSide 1 s.conn frame = some (.ok (sensorEvent body), conn) →
      prost.sensorEventIndication body = some ev →
      handleFrame SendEncrypted.clearSide prost wholeUnits 1 s frame = some (.ok (), s') →
      EachAppended wholeUnits ev.gps_location s.handlers.sensor s'.handlers.sensor := by
  intro h
  let fix : GpsLocation := ⟨0, 0, 0, 0, 0, 0, 0⟩
  let body : Bytes := [0x0a, 0x00]
  let oneFix : Prost := { emptyBodies with
    sensorEventIndication := fun b => if b = body then some ⟨[fix]⟩ else some ⟨[]⟩ }
  have hrun : handleFrame SendEncrypted.clearSide oneFix wholeUnits 1 freshSession
      (.bulkControl 2 0x8003 body) =
        some (.ok (), { freshSession with acted := [sensorEvent body] }) := rfl
  have happended :=
    congrArg (fun x => x.appended.length) (h oneFix _ _ _ body ⟨[fix]⟩ _ rfl rfl hrun)
  exact absurd happended (by decide)

end Aabox.FixRouting
