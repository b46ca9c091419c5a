import Aabox.FixRouting
import Aabox.Lib.Run
import Aabox.Startup

/-!
# What the loop writes

Every place that sends: the first request, the replies to a frame, navigation, audio and video. An
error ends the first of these and is logged by the others.
-/
namespace Aabox.ControlLoop
open Aabox.Lib Aabox.Framing Aabox.Encrypted Aabox.SendEncrypted Aabox.HandleFrame Aabox.Startup
open Aabox.Nav

inductive Phase
  | starting | looping | returned
  deriving DecidableEq, Repr

/-- `log` are the frames handed to the transport so far. -/
structure RunState (C F : Type) where
  phase : Phase
  session : Session C F
  log : List (Attempt Frame)

inductive Turn
  | request
  | frame (frame : Frame)
  | closed
  | nav (instr : NavInstruction)
  | audio (out : OutboundMessage)
  | video (out : OutboundMessage)
  deriving DecidableEq, Repr

variable {C F : Type}

def sendAllAttempts (side : Side C) (fuel : Nat) (s : Session C F) :
    List OutboundMessage → List (Attempt Frame)
  | [] => []
  | out :: outs =>
    sendAttempts side fuel s.conn s.writer out ++
      match sendEncrypted side fuel s.conn s.writer out with
      | some (.ok (), conn, writer) => sendAllAttempts side fuel { s with conn, writer } outs
      | _ => []

/-- What a turn has to send, and the session it sends it from. -/
def turnMessages (side : Side C) (p : StartupProst) (fl : Sensor.Floats F) (fuel : Nat)
    (s : Session C F) : Turn → Option (Session C F × List OutboundMessage)
  | .request => some (s, [sdrMessage p])
  | .frame frame =>
    match openFrame side fuel s.conn frame with
    | none => none
    | some (.error _, conn) => some ({ s with conn }, [])
    | some (.ok m, conn) =>
      let (res, handlers) := route p.toProst fl s.handlers m
      some ({ s with conn, handlers, acted := s.acted ++ [m] }, res.toOption.getD [])
  | .closed => some (s, [])
  | .nav instr => some (s, encodeInstruction instr)
  | .audio out | .video out => some (s, [out])

def turnAttempts (side : Side C) (p : StartupProst) (fl : Sensor.Floats F) (fuel : Nat)
    (s : Session C F) (turn : Turn) : List (Attempt Frame) :=
  match turnMessages side p fl fuel s turn with
  | none => []
  | some (s, outs) => sendAllAttempts side fuel s outs

/-- A sequence of sends stops at the first error, which only the first request returns. -/
def next (side : Side C) (p : StartupProst) (fl : Sensor.Floats F) (fuel : Nat)
    (s : RunState C F) (turn : Turn) : Option (RunState C F) :=
  let log := s.log ++ turnAttempts side p fl fuel s.session turn
  match s.phase, turn with
  | .starting, .request =>
    match sendAll side fuel s.session [sdrMessage p] with
    | none => none
    | some (.error _, session) => some ⟨.returned, session, log⟩
    | some (.ok (), session) => some ⟨.looping, session, log⟩
  | .looping, .frame frame =>
    (handleFrame side p.toProst fl fuel s.session frame).map fun (_, session) =>
      ⟨.looping, session, log⟩
  | .looping, .closed => some { s with phase := .returned }
  | .looping, .nav instr =>
    (sendAll side fuel s.session (encodeInstruction instr)).map fun (_, session) =>
      ⟨.looping, session, log⟩
  | .looping, .audio out | .looping, .video out =>
    (sendAll side fuel s.session [out]).map fun (_, session) => ⟨.looping, session, log⟩
  | _, _ => none

def start (session : Session C F) : RunState C F := ⟨.starting, session, []⟩

/-- Of the next writes, those that come after a failed one fail before their first byte. -/
def FailStop (w : Writer) (writes : Nat) : Prop :=
  ∀ j < writes, ∀ i < j, (w.faultAt i).isSome → w.faultAt j = some 0

instance (w : Writer) (writes : Nat) : Decidable (FailStop w writes) :=
  inferInstanceAs (Decidable (∀ j < writes, ∀ i < j, _))

variable {side : Side C} {p : StartupProst} {fl : Sensor.Floats F} {fuel : Nat}
  {session s₁ s₂ : Session C F} {s t : RunState C F} {turn : Turn} {turns : List Turn}
  {frame : Frame} {outs : List OutboundMessage} {res : Except FrameError Unit}

theorem sendAll_logged (h : sendAll side fuel s₁ outs = some (res, s₂)) :
    Logged s₁.writer s₂.writer (sendAllAttempts side fuel s₁ outs) := by
  induction outs generalizing s₁ with
  | nil =>
    cases h
    exact logged_nil _
  | cons out outs ih =>
    rw [sendAll] at h
    rw [sendAllAttempts]
    cases hsend : sendEncrypted side fuel s₁.conn s₁.writer out with
    | none => simp [hsend] at h
    | some sent =>
      obtain ⟨e | ok, conn, writer⟩ := sent
      · rw [hsend] at h
        cases h
        simpa using sendEncrypted_logged hsend
      · rw [hsend] at h
        exact (sendEncrypted_logged hsend).append (ih h)

/-- Handling a frame is opening and routing it, then sending what it has to send. -/
theorem handleFrame_messages
    (h : handleFrame side p.toProst fl fuel s₁ frame = some (res, s₂)) :
    ∃ s outs res', turnMessages side p fl fuel s₁ (.frame frame) = some (s, outs) ∧
      s.writer = s₁.writer ∧ sendAll side fuel s outs = some (res', s₂) := by
  unfold handleFrame at h
  cases hopen : openFrame side fuel s₁.conn frame with
  | none => simp [hopen] at h
  | some opened =>
    rw [hopen] at h
    obtain ⟨e | m, conn⟩ := opened
    · cases h
      exact ⟨{ s₁ with conn }, [], .ok (), by simp only [turnMessages, hopen], rfl, rfl⟩
    · cases hroute : route p.toProst fl s₁.handlers m with
      | mk r handlers =>
        have hmsgs : turnMessages side p fl fuel s₁ (.frame frame) =
            some ({ s₁ with conn, handlers, acted := s₁.acted ++ [m] }, r.toOption.getD []) := by
          simp only [turnMessages, hopen, hroute]
        simp only [hroute] at h
        obtain e | outs := r
        · cases h
          exact ⟨_, [], .ok (), hmsgs, rfl, rfl⟩
        · exact ⟨_, outs, res, hmsgs, rfl, h⟩

theorem turn_logged (hmsgs : turnMessages side p fl fuel session turn = some (s₁, outs))
    (hw : s₁.writer = session.writer) (hsend : sendAll side fuel s₁ outs = some (res, s₂)) :
    Logged session.writer s₂.writer (turnAttempts side p fl fuel session turn) := by
  have hlog := sendAll_logged hsend
  rwa [hw, show sendAllAttempts side fuel s₁ outs = turnAttempts side p fl fuel session turn by
    rw [turnAttempts, hmsgs]] at hlog

/-- Every turn adds to the log what it hands to the transport. -/
theorem next_logged (h : next side p fl fuel s turn = some t) :
    t.log = s.log ++ turnAttempts side p fl fuel s.session turn ∧
      Logged s.session.writer t.session.writer (turnAttempts side p fl fuel s.session turn) := by
  obtain ⟨phase, session, log⟩ := s
  unfold next at h
  dsimp only at h ⊢
  split at h
  · split at h <;> rename_i hsend <;> cases h
    · exact ⟨rfl, turn_logged rfl rfl hsend⟩
    · exact ⟨rfl, turn_logged rfl rfl hsend⟩
  · obtain ⟨⟨res, session'⟩, hframe, rfl⟩ := Option.map_eq_some_iff.mp h
    obtain ⟨s₁, outs, res', hmsgs, hw, hsend⟩ := handleFrame_messages hframe
    exact ⟨rfl, turn_logged hmsgs hw hsend⟩
  · cases h
    exact ⟨by simp [turnAttempts, turnMessages, sendAllAttempts], logged_nil _⟩
  · obtain ⟨⟨res, session'⟩, hsend, rfl⟩ := Option.map_eq_some_iff.mp h
    exact ⟨rfl, turn_logged rfl rfl hsend⟩
  · obtain ⟨⟨res, session'⟩, hsend, rfl⟩ := Option.map_eq_some_iff.mp h
    exact ⟨rfl, turn_logged rfl rfl hsend⟩
  · obtain ⟨⟨res, session'⟩, hsend, rfl⟩ := Option.map_eq_some_iff.mp h
    exact ⟨rfl, turn_logged rfl rfl hsend⟩
  · cases h

/-- The log is what a run has done to the transport. -/
theorem run_logged {session : Session C F}
    (h : Run (Steps (next side p fl fuel)) (start session) turns s) :
    Logged session.writer s.session.writer s.log := by
  refine h.invariant (I := fun s => Logged session.writer s.session.writer s.log) ?_
    (logged_nil session.writer)
  intro s turn t hs hstep
  obtain ⟨hlog, hturn⟩ := next_logged hstep
  rw [hlog]
  exact hs.append hturn

theorem encode_ne_nil (f : Frame) : f.encode ≠ [] := List.cons_ne_nil _ _

/-- A write of which nothing is taken has failed before its first byte. -/
theorem written_eq_nil {a : Attempt Frame} : a.written Frame.encode = [] ↔ a.fault = some 0 := by
  unfold Attempt.written
  cases a.fault with
  | none => simp [encode_ne_nil]
  | some n => simp [encode_ne_nil]

theorem stopsAtCut_of_failStop {w w' : Writer} {log : List (Attempt Frame)} (h : Logged w w' log)
    (hstop : FailStop w log.length) : StopsAtCut Frame.encode log := by
  refine List.pairwise_iff_getElem.mpr ?_
  intro i j hi hj hlt
  cases hfault : log[i].fault with
  | none => exact .inl (Attempt.complete_of_no_fault hfault)
  | some n =>
    right
    have hi' := h.fault i _ (List.getElem?_eq_getElem hi)
    have hj' := h.fault j _ (List.getElem?_eq_getElem hj)
    rw [written_eq_nil, hj']
    exact hstop j hj i hlt (by rw [← hi', hfault]; rfl)

theorem failStop_of_stopsAtCut {w w' : Writer} {log : List (Attempt Frame)} (h : Logged w w' log)
    (hfail : ∀ a ∈ log, a.fault.isSome → ¬ a.Complete Frame.encode)
    (hcut : StopsAtCut Frame.encode log) : FailStop w log.length := by
  intro j hj i hlt hsome
  have hi := hlt.trans hj
  have hi' := h.fault i _ (List.getElem?_eq_getElem hi)
  have hj' := h.fault j _ (List.getElem?_eq_getElem hj)
  rw [← hi'] at hsome
  rw [← hj', ← written_eq_nil]
  have hpair := List.pairwise_iff_getElem.mp hcut i j hi hj hlt
  exact hpair.resolve_left (hfail _ (List.getElem_mem hi) hsome)

/-- Nothing follows a frame that was cut short, and the wire carries a prefix of what was produced,
when the transport stays dead from its first failure on; and only then, where a write that fails has
left something of its frame. -/
theorem gapless_run (session : Session C F)
    (h : Run (Steps (next side p fl fuel)) (start session) turns s) :
    s.session.writer.wire = session.writer.wire ++ wireOf Frame.encode s.log ∧
    (FailStop session.writer s.log.length →
      StopsAtCut Frame.encode s.log ∧
        wireOf Frame.encode s.log <+: produced Frame.encode s.log) ∧
    ((∀ a ∈ s.log, a.fault.isSome → ¬ a.Complete Frame.encode) →
      StopsAtCut Frame.encode s.log → FailStop session.writer s.log.length) := by
  have hlog := run_logged h
  refine ⟨hlog.wire, fun hstop => ?_, failStop_of_stopsAtCut hlog⟩
  have hcut := stopsAtCut_of_failStop hlog hstop
  exact ⟨hcut, hcut.wireOf_prefix⟩

def pingFrame : Frame := .bulkControl 0 0x000b []

/-- A transport on which the second write fails after three bytes. -/
def faulty (later : List (Option Nat)) : Session ClearConn Int :=
  { FixRouting.freshSession with writer := ⟨[], none :: some 3 :: later⟩ }

/-- The reply to a ping is cut short, and the pipe stays dead: the loop goes on to answer the second
ping, but nothing of that is taken. -/
theorem gapless_twoPings : ∃ s : RunState ClearConn Int, s.log.length = 3 ∧
    StopsAtCut Frame.encode s.log ∧
    wireOf Frame.encode s.log <+: produced Frame.encode s.log ∧
    wireOf Frame.encode s.log ≠ produced Frame.encode s.log := by
  obtain ⟨s, hexec, hlen, hstop, hs⟩ :
      ∃ s ∈ [Turn.request, .frame pingFrame, .frame pingFrame].foldlM
      (next clearSide okBodies FixRouting.wholeUnits 8) (start (faulty [some 0])),
      s.log.length = 3 ∧ FailStop (faulty [some 0]).writer s.log.length ∧
        wireOf Frame.encode s.log ≠ produced Frame.encode s.log := by decide +kernel
  obtain ⟨-, hholds, -⟩ := gapless_run (faulty [some 0]) (run_iff_foldlM.mpr hexec)
  obtain ⟨hcut, hprefix⟩ := hholds hstop
  exact ⟨s, hlen, hcut, hprefix, hs⟩

/-- The loop goes on to answer the second ping after the reply to the first was cut short. -/
theorem gap_after_ping :
    ¬ ∀ (turns : List Turn) (s : RunState ClearConn Int),
      Run (Steps (next clearSide okBodies FixRouting.wholeUnits 8)) (start (faulty [])) turns s →
      wireOf Frame.encode s.log <+: produced Frame.encode s.log := by
  intro h
  obtain ⟨s, hexec, hs⟩ : ∃ s ∈ [Turn.request, .frame pingFrame, .frame pingFrame].foldlM
      (next clearSide okBodies FixRouting.wholeUnits 8) (start (faulty [])),
      ¬ wireOf Frame.encode s.log <+: produced Frame.encode s.log := by decide
  exact hs (h _ s (run_iff_foldlM.mpr hexec))

end Aabox.ControlLoop
