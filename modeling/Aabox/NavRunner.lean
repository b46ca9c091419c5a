import Aabox.Channels
import Aabox.Handlers.Sensor
import Aabox.Lib.Mpsc
import Aabox.Lib.Run
import Aabox.Lib.Text

/-!
# The navigation runner

`run` wires a destination feed, the GPS fixes and the navigation queue to one task that owns the
source. `calls` lists the destinations the source was given, `arrived` those the caller's feed got.
-/
namespace Aabox.NavRunner
open Aabox.Lib Aabox.Nav

structure Destination (F : Type) where
  lat : F
  lon : F
  label : String
  deriving DecidableEq, Repr

structure NavInstructionSource (N F : Type) where
  set_destination : N → Destination F → Except Unit (Option NavInstruction) × N
  update_position : N → Sensor.PositionFix F → Except Unit (Option NavInstruction) × N
  current_instruction : N → Option NavInstruction

structure NavRunnerConfig where
  emit_initial : Bool

structure ControlLoopConfig (N F : Type) where
  nav_source : Option N
  initial_destination : Option (Destination F)
  destination_rx : Option (Mpsc (Destination F))

/-- How floats are read and printed. -/
structure FloatText (F : Type) where
  parse : String → Option F
  fixed4 : F → String

def parseCli {F : Type} (text : FloatText F) (s : String) : Option (Destination F) :=
  match (splitn 3 ',' s.toList).map fun p => String.ofList (trim p) with
  | lat :: lon :: rest => do
    some { lat := ← text.parse lat, lon := ← text.parse lon, label := rest.head?.getD "" }
  | _ => none

def intoDestination {F : Type} (text : FloatText F) (df : Destination F) : Destination F :=
  if df.label.isEmpty then { df with label := text.fixed4 df.lat ++ "," ++ text.fixed4 df.lon }
  else df

structure NavOptions where
  destination : Option String
  destination_file : String
  osrm_base_url : String

/-- The file that the daemon watches when the command line names none. -/
def defaultDestinationFile : String := "/data/local/tmp/aabox-nav-destination.json"

/-- `osrm` makes the source from its base URL. -/
def buildNavConfig {N F : Type} (text : FloatText F) (osrm : String → N) (nav : NavOptions) :
    ControlLoopConfig N F :=
  let cli_dest := (nav.destination.bind (parseCli text)).map (intoDestination text)
  let dest_rx := if nav.destination_file.isEmpty then none else some (.new 4)
  if cli_dest.isSome ∨ dest_rx.isSome then
    { nav_source := some (osrm nav.osrm_base_url)
      initial_destination := cli_dest
      destination_rx := dest_rx }
  else { nav_source := none, initial_destination := none, destination_rx := none }

/-- The source that answers every call with the same instruction. -/
structure StaticDemoSource (F : Type) where
  last_dest : Option (Destination F)
  update_count : UInt64

def straightAhead : NavInstruction where
  status_text := "Continue straight".toUTF8.toList
  turn_id := 1
  distance_m := 0

def StaticDemoSource.calls {F : Type} : NavInstructionSource (StaticDemoSource F) F where
  set_destination src dest := (.ok (some straightAhead), { src with last_dest := some dest })
  update_position src _ :=
    (.ok (some straightAhead), { src with update_count := src.update_count + 1 })
  current_instruction _ := some straightAhead

/-- Before the first instruction, in the `select!`, awaiting room for an instruction, returned. -/
inductive RunnerPc
  | starting | waiting
  | sending (instr : NavInstruction)
  | returned
  deriving DecidableEq, Repr

/-- `fed` says whether the runner's receiver is the caller's. -/
structure NavState (N F : Type) where
  source : N
  pc : RunnerPc
  dest : Mpsc (Destination F)
  gps : Mpsc (Sensor.PositionFix F)
  nav : Mpsc NavInstruction
  fed : Bool
  calls : List (Destination F)
  arrived : List (Destination F)

inductive NavEvent (F : Type)
  | arrive (d : Destination F) | closeDest
  | fix (f : Sensor.PositionFix F) | closeGps
  | drain | closeNav
  | emitInitial | recvDest | recvFix | send | sendFails | exit

variable {N F : Type}

/-- Step B of `run`. The caller's receiver takes the place of the local one, which is dropped; the
initial destination is offered to the local sender, and the result ignored. -/
def wire (cfg : ControlLoopConfig N F) : Option (NavState N F) :=
  let localDest : Mpsc (Destination F) := .new 4
  let localDest := if cfg.destination_rx.isSome then localDest.dropRx else localDest
  match cfg.nav_source with
  | none => none
  | some source =>
    let localDest :=
      match cfg.initial_destination with
      | some d => (localDest.trySend d).getD localDest
      | none => localDest
    let dest := cfg.destination_rx.getD localDest
    some {
      source, pc := .starting, dest, gps := .new 8, nav := .new 8
      fed := cfg.destination_rx.isSome, calls := []
      arrived := (cfg.destination_rx.map Mpsc.queue).getD [] }

/-- An instruction is sent on, anything else leads back to the `select!`. -/
def afterCall : Except Unit (Option NavInstruction) → RunnerPc
  | .ok (some instr) => .sending instr
  | .ok none | .error () => .waiting

/-- The task returns, and its receivers go. -/
def NavState.finish (s : NavState N F) : NavState N F :=
  { s with pc := .returned, dest := s.dest.dropRx, gps := s.gps.dropRx }

def next (src : NavInstructionSource N F) (cfg : NavRunnerConfig) (s : NavState N F) :
    NavEvent F → Option (NavState N F)
  | .arrive d =>
    if s.fed ∧ s.dest.tx_alive then
      (s.dest.trySend d).map fun dest => { s with dest, arrived := s.arrived ++ [d] }
    else none
  | .closeDest => some { s with dest := s.dest.dropTx }
  | .fix f => if s.gps.tx_alive then (s.gps.trySend f).map fun gps => { s with gps } else none
  | .closeGps => some { s with gps := s.gps.dropTx }
  | .drain => s.nav.recv.map fun (_, nav) => { s with nav }
  | .closeNav => some { s with nav := s.nav.dropRx }
  | .emitInitial =>
    if s.pc = .starting then
      match src.current_instruction s.source with
      | some instr => some { s with pc := if cfg.emit_initial then .sending instr else .waiting }
      | none => some { s with pc := .waiting }
    else none
  | .recvDest =>
    if s.pc = .waiting then
      s.dest.recv.map fun (d, dest) =>
        let (res, source) := src.set_destination s.source d
        { s with source, dest, pc := afterCall res, calls := s.calls ++ [d] }
    else none
  | .recvFix =>
    if s.pc = .waiting then
      s.gps.recv.map fun (f, gps) =>
        let (res, source) := src.update_position s.source f
        { s with source, gps, pc := afterCall res }
    else none
  | .send =>
    match s.pc with
    | .sending instr => (s.nav.trySend instr).map fun nav => { s with nav, pc := .waiting }
    | _ => none
  | .sendFails =>
    match s.pc with
    | .sending _ => if s.nav.rx_alive then none else some s.finish
    | _ => none
  | .exit =>
    if s.pc = .waiting ∧ s.dest.Ended ∧ s.gps.Ended then some s.finish else none

variable {src : NavInstructionSource N F} {rc : NavRunnerConfig} {cfg : ControlLoopConfig N F}
  {s s₀ t u : NavState N F} {e : NavEvent F} {es : List (NavEvent F)} {d : Destination F}
  {instr : NavInstruction}

theorem afterCall_ne_returned (res : Except Unit (Option NavInstruction)) :
    afterCall res ≠ .returned := by
  rcases res with ⟨⟨⟩⟩ | _ | instr <;> intro h <;> cases h

/-- What a step does to the two ends of the destination feed and to the calls. -/
theorem next_feed (h : next src rc s e = some t) : t.fed = s.fed ∧
    ((t.calls = s.calls ∧ t.dest.queue = s.dest.queue ∧ t.arrived = s.arrived) ∨
      (∃ d, s.fed = true ∧ t.calls = s.calls ∧ t.dest.queue = s.dest.queue ++ [d] ∧
        t.arrived = s.arrived ++ [d]) ∨
      ∃ d, t.calls = s.calls ++ [d] ∧ s.dest.queue = d :: t.dest.queue ∧ t.arrived = s.arrived) := by
  cases e with
  | arrive d =>
    simp only [next] at h
    split at h
    · rename_i hfed
      obtain ⟨dest, hdest, rfl⟩ := Option.map_eq_some_iff.mp h
      obtain ⟨-, -, rfl⟩ := Mpsc.trySend_some hdest
      exact ⟨rfl, .inr (.inl ⟨d, hfed.1, rfl, rfl, rfl⟩)⟩
    · cases h
  | recvDest =>
    simp only [next] at h
    split at h
    · obtain ⟨⟨d, dest⟩, hdest, rfl⟩ := Option.map_eq_some_iff.mp h
      exact ⟨rfl, .inr (.inr ⟨d, rfl, (Mpsc.recv_some hdest).1, rfl⟩)⟩
    · cases h
  | fix f =>
    simp only [next] at h
    split at h
    · obtain ⟨_, -, rfl⟩ := Option.map_eq_some_iff.mp h
      exact ⟨rfl, .inl ⟨rfl, rfl, rfl⟩⟩
    · cases h
  | recvFix =>
    simp only [next] at h
    split at h
    · obtain ⟨_, -, rfl⟩ := Option.map_eq_some_iff.mp h
      exact ⟨rfl, .inl ⟨rfl, rfl, rfl⟩⟩
    · cases h
  | drain =>
    obtain ⟨_, -, rfl⟩ := Option.map_eq_some_iff.mp h
    exact ⟨rfl, .inl ⟨rfl, rfl, rfl⟩⟩
  | emitInitial =>
    simp only [next] at h
    split at h
    · split at h <;> cases h <;> exact ⟨rfl, .inl ⟨rfl, rfl, rfl⟩⟩
    · cases h
  | send =>
    simp only [next] at h
    split at h
    · obtain ⟨_, -, rfl⟩ := Option.map_eq_some_iff.mp h
      exact ⟨rfl, .inl ⟨rfl, rfl, rfl⟩⟩
    · cases h
  | sendFails =>
    simp only [next] at h
    split at h
    · split at h <;> cases h
      exact ⟨rfl, .inl ⟨rfl, rfl, rfl⟩⟩
    · cases h
  | exit =>
    simp only [next] at h
    split at h <;> cases h
    exact ⟨rfl, .inl ⟨rfl, rfl, rfl⟩⟩
  | closeDest | closeGps | closeNav =>
    cases h
    exact ⟨rfl, .inl ⟨rfl, rfl, rfl⟩⟩

/-- What the runner was given and what waits for it are `init` and then all that arrived. -/
def Ledger (init : List (Destination F)) (s : NavState N F) : Prop :=
  s.calls ++ s.dest.queue = init ++ s.arrived ∧ (s.fed = false → s.arrived = [])

theorem ledger_step {init : List (Destination F)} (h : Ledger init s)
    (hstep : Steps (next src rc) s e t) : Ledger init t := by
  obtain ⟨hsum, hlocal⟩ := h
  obtain ⟨hfed, ⟨hc, hq, ha⟩ | ⟨d, hf, hc, hq, ha⟩ | ⟨d, hc, hq, ha⟩⟩ := next_feed hstep
  · exact ⟨by rw [hc, hq, ha, hsum], by rw [hfed, ha]; exact hlocal⟩
  · refine ⟨by rw [hc, hq, ha, ← List.append_assoc, hsum, List.append_assoc], ?_⟩
    intro hnot
    rw [hfed, hf] at hnot
    cases hnot
  · refine ⟨?_, by rw [hfed, ha]; exact hlocal⟩
    rw [hq] at hsum
    rw [hc, ha, List.append_assoc, List.singleton_append, hsum]

/-- The initial destination waits in the queue that the runner reads, if it reads the local one. -/
theorem wire_some (h : wire cfg = some s₀) : s₀.pc = .starting ∧ s₀.nav = .new 8 ∧
    Ledger (if cfg.destination_rx.isSome then [] else cfg.initial_destination.toList) s₀ := by
  unfold wire at h
  cases hsrc : cfg.nav_source with
  | none => simp [hsrc] at h
  | some source =>
    simp only [hsrc, Option.some.injEq] at h
    subst h
    refine ⟨rfl, rfl, ?_⟩
    cases hrx : cfg.destination_rx with
    | some rx => exact ⟨rfl, fun hf => by cases hf⟩
    | none =>
      cases hd : cfg.initial_destination with
      | none => exact ⟨rfl, fun _ => rfl⟩
      | some d => exact ⟨rfl, fun _ => rfl⟩

theorem ledger_run (h : wire cfg = some s₀) (hrun : Run (Steps (next src rc)) s₀ es s) :
    Ledger (if cfg.destination_rx.isSome then [] else cfg.initial_destination.toList) s :=
  hrun.invariant (fun _ _ _ => ledger_step) (wire_some h).2.2

/-- The task returns only once its output is closed or its feed has ended. -/
structure Live (s : NavState N F) : Prop where
  room : 0 < s.nav.capacity
  returned : s.pc = .returned → s.nav.rx_alive = false ∨ s.dest.Ended

theorem live_step (h : Live s) (hstep : Steps (next src rc) s e t) : Live t := by
  obtain ⟨hroom, hret⟩ := h
  refine ⟨?_, ?_⟩ <;> cases e <;>
    grind [Steps, next, afterCall_ne_returned, NavState.finish, Mpsc.Ended, Mpsc.trySend,
      Mpsc.recv, Mpsc.dropTx, Mpsc.dropRx]

theorem live_run (h : wire cfg = some s₀) (hrun : Run (Steps (next src rc)) s₀ es s) : Live s := by
  obtain ⟨hpc, hnav, -⟩ := wire_some h
  refine hrun.invariant (fun _ _ _ => live_step) ⟨?_, ?_⟩
  · rw [hnav]
    exact Nat.succ_pos _
  · simp [hpc]

/-- `t` has the feed, the calls and the open output of `s`. -/
structure SameFeed (s t : NavState N F) : Prop where
  calls : t.calls = s.calls
  dest : t.dest = s.dest
  arrived : t.arrived = s.arrived
  output : t.nav.rx_alive = s.nav.rx_alive
  room : t.nav.capacity = s.nav.capacity

variable (src rc) in
/-- An open output is drained until the instruction fits. -/
theorem sent (hpc : s.pc = .sending instr) (hopen : s.nav.rx_alive = true)
    (hroom : 0 < s.nav.capacity) :
    ∃ es t, Run (Steps (next src rc)) s es t ∧ t.pc = .waiting ∧ SameFeed s t := by
  obtain ⟨queue, hq⟩ : ∃ queue, s.nav.queue = queue := ⟨_, rfl⟩
  induction queue generalizing s with
  | nil =>
    have hsend : next src rc s .send =
        some { s with nav := { s.nav with queue := s.nav.queue ++ [instr] }, pc := .waiting } := by
      simp [next, hpc, Mpsc.trySend, hopen, hroom, hq]
    exact ⟨[.send], _, .stepL hsend .refl, rfl, rfl, rfl, rfl, rfl, rfl⟩
  | cons a queue ih =>
    have hdrain : next src rc s .drain = some { s with nav := { s.nav with queue } } := by
      simp [next, Mpsc.recv_cons hq]
    obtain ⟨es, t, hrun, hwait, hsame⟩ := ih (s := { s with nav := { s.nav with queue } })
      hpc hopen hroom rfl
    exact ⟨.drain :: es, t, .stepL hdrain hrun, hwait, hsame.calls, hsame.dest, hsame.arrived,
      hsame.output, hsame.room⟩

variable (src rc) in
/-- A runner with an open output gets back to its `select!`. -/
theorem waits (hpc : s.pc ≠ .returned) (hopen : s.nav.rx_alive = true)
    (hroom : 0 < s.nav.capacity) :
    ∃ es t, Run (Steps (next src rc)) s es t ∧ t.pc = .waiting ∧ SameFeed s t := by
  cases h : s.pc with
  | returned => exact (hpc h).elim
  | waiting => exact ⟨[], s, .refl, h, rfl, rfl, rfl, rfl, rfl⟩
  | sending instr => exact sent src rc h hopen hroom
  | starting =>
    cases hcur : src.current_instruction s.source with
    | none =>
      have hemit : next src rc s .emitInitial = some { s with pc := .waiting } := by
        simp [next, h, hcur]
      exact ⟨[.emitInitial], _, .stepL hemit .refl, rfl, rfl, rfl, rfl, rfl, rfl⟩
    | some instr =>
      have hemit : next src rc s .emitInitial =
          some { s with pc := if rc.emit_initial then .sending instr else .waiting } := by
        simp [next, h, hcur]
      cases hrc : rc.emit_initial with
      | false =>
        rw [hrc] at hemit
        exact ⟨[.emitInitial], _, .stepL hemit .refl, rfl, rfl, rfl, rfl, rfl, rfl⟩
      | true =>
        rw [hrc] at hemit
        obtain ⟨es, t, hrun, hwait, hsame⟩ := sent src rc
          (s := { s with pc := .sending instr }) rfl hopen hroom
        exact ⟨.emitInitial :: es, t, .stepL hemit hrun, hwait, hsame.calls, hsame.dest,
          hsame.arrived, hsame.output, hsame.room⟩

variable (src rc) in
theorem recvDest_next {queue : List (Destination F)} (hwait : s.pc = .waiting)
    (hq : s.dest.queue = d :: queue) :
    ∃ t, next src rc s .recvDest = some t ∧ t.pc ≠ .returned ∧ t.nav = s.nav ∧
      t.calls = s.calls ++ [d] ∧ t.dest.queue = queue ∧ t.arrived = s.arrived := by
  have hrecv := Mpsc.recv_cons hq
  refine ⟨{ s with
      source := (src.set_destination s.source d).2
      dest := { s.dest with queue }
      pc := afterCall (src.set_destination s.source d).1
      calls := s.calls ++ [d] }, ?_, afterCall_ne_returned _, rfl, rfl, rfl, rfl⟩
  simp only [next, hwait, if_true, hrecv, Option.map_some]

/-- Every destination that waits is given to the source, in the order of the queue. -/
theorem delivered (hpc : s.pc ≠ .returned) (hopen : s.nav.rx_alive = true)
    (hroom : 0 < s.nav.capacity) :
    ∃ es t, Run (Steps (next src rc)) s es t ∧ t.calls = s.calls ++ s.dest.queue ∧
      t.dest.queue = [] ∧ t.arrived = s.arrived := by
  obtain ⟨queue, hq⟩ : ∃ queue, s.dest.queue = queue := ⟨_, rfl⟩
  induction queue generalizing s with
  | nil => exact ⟨[], s, .refl, by rw [hq, List.append_nil], hq, rfl⟩
  | cons d queue ih =>
    obtain ⟨es, t, hrun, hwait, hsame⟩ := waits src rc hpc hopen hroom
    obtain ⟨u, hrecv, hpc', hnav, hcalls, hqueue, harr⟩ :=
      recvDest_next src rc hwait (hsame.dest ▸ hq)
    obtain ⟨es', v, hrun', hcalls', hempty, harr'⟩ := ih hpc'
      (by rw [hnav, hsame.output, hopen]) (by rw [hnav, hsame.room]; exact hroom) hqueue
    refine ⟨es ++ .recvDest :: es', v, hrun.trans (.stepL hrecv hrun'), ?_, hempty,
      harr'.trans (harr.trans hsame.arrived)⟩
    rw [hcalls', hcalls, hqueue, hsame.calls, hq, List.append_assoc, List.singleton_append]

/-- The source's calls and what waits are the arrivals in order, with the initial destination once.
-/
def Keeps (cfg : ControlLoopConfig N F) (s : NavState N F) : Prop :=
  ∃ pre post, pre ++ post = s.arrived ∧
    s.calls ++ s.dest.queue = pre ++ cfg.initial_destination.toList ++ post

/-- Nothing is lost or repeated, and while the output is open all that waits can be delivered. -/
def Delivers (src : NavInstructionSource N F) (rc : NavRunnerConfig) (cfg : ControlLoopConfig N F)
    (s : NavState N F) : Prop :=
  Keeps cfg s ∧ (s.nav.rx_alive = true → ∃ es t, Run (Steps (next src rc)) s es t ∧
    t.calls = s.calls ++ s.dest.queue ∧ t.dest.queue = [] ∧ t.arrived = s.arrived)

theorem delivers_run (h : wire cfg = some s₀) (hrun : Run (Steps (next src rc)) s₀ es s)
    (hcfg : cfg.initial_destination = none ∨ cfg.destination_rx = none) :
    Delivers src rc cfg s := by
  obtain ⟨hsum, -⟩ := ledger_run h hrun
  obtain ⟨hroom, hret⟩ := live_run h hrun
  refine ⟨⟨[], s.arrived, rfl, ?_⟩, ?_⟩
  · rw [hsum, List.nil_append]
    rcases hcfg with hcfg | hcfg <;> simp [hcfg]
  · intro hopen
    by_cases hpc : s.pc = .returned
    · rcases hret hpc with hclosed | hended
      · rw [hopen] at hclosed
        cases hclosed
      · exact ⟨[], s, .refl, by rw [hended.1, List.append_nil], hended.1, rfl⟩
    · exact delivered hpc hopen hroom

/-- With both feeds configured no run ever gives the initial destination to the source. -/
theorem initial_lost (h : wire cfg = some s₀) (hrun : Run (Steps (next src rc)) s₀ es s)
    (hd : cfg.initial_destination = some d) (hrx : cfg.destination_rx.isSome) : ¬ Keeps cfg s := by
  rintro ⟨pre, post, harr, hsum⟩
  have hlost := (ledger_run h hrun).1
  rw [if_pos hrx, hsum, hd, ← harr] at hlost
  have hlen := congrArg List.length hlost
  simp at hlen

/-- Every run gives every destination to the source exactly if not both feeds are configured. -/
theorem delivers_iff (src : NavInstructionSource N F) (rc : NavRunnerConfig)
    (h : wire cfg = some s₀) :
    (∀ es s, Run (Steps (next src rc)) s₀ es s → Delivers src rc cfg s) ↔
      (cfg.initial_destination = none ∨ cfg.destination_rx = none) := by
  constructor
  · intro hall
    by_contra hcfg
    obtain ⟨hd, hrx⟩ := not_or.mp hcfg
    obtain ⟨d, hd⟩ := Option.ne_none_iff_exists'.mp hd
    have hrun : Run (Steps (next src rc)) s₀ [] s₀ := .refl
    exact initial_lost h hrun hd (Option.isSome_iff_ne_none.mpr hrx) (hall [] s₀ hrun).1
  · intro hcfg es s hrun
    exact delivers_run h hrun hcfg

/-- Only `--nav-destination` is given, and the file is disabled. -/
theorem delivers_cli : ∃ s₀ : NavState (StaticDemoSource Nat) Nat,
    wire ⟨some ⟨none, 0⟩, some ⟨1, 2, "a"⟩, none⟩ = some s₀ ∧
      ∀ es s, Run (Steps (next StaticDemoSource.calls ⟨true⟩)) s₀ es s →
        Delivers StaticDemoSource.calls ⟨true⟩ ⟨some ⟨none, 0⟩, some ⟨1, 2, "a"⟩, none⟩ s :=
  ⟨_, rfl, (delivers_iff StaticDemoSource.calls ⟨true⟩ rfl).mpr (.inr rfl)⟩

/-- `--nav-destination` is given, and the file is the default one. -/
theorem cli_lost : ¬ ∀ (nav : NavOptions) (s₀ : NavState (StaticDemoSource Unit) Unit) es s,
    wire (buildNavConfig ⟨fun _ => some (), fun _ => ""⟩ (fun _ => ⟨none, 0⟩) nav) = some s₀ →
    Run (Steps (next StaticDemoSource.calls ⟨true⟩)) s₀ es s →
    Delivers StaticDemoSource.calls ⟨true⟩
      (buildNavConfig ⟨fun _ => some (), fun _ => ""⟩ (fun _ => ⟨none, 0⟩) nav) s := by
  intro h
  have hrun {s : NavState (StaticDemoSource Unit) Unit} :
      Run (Steps (next StaticDemoSource.calls ⟨true⟩)) s [] s := .refl
  have hlost := h ⟨some "37.7749,-122.4194,Apple HQ", defaultDestinationFile, ""⟩ _ [] _ rfl hrun
  exact initial_lost rfl hrun rfl rfl hlost.1

end Aabox.NavRunner
