import Aabox.DestinationWatch
import Aabox.Lib.Fifo
import Aabox.Osrm

/-!
# From the destination file to the car

`build_nav_config` starts the watcher and keeps the other end of its queue for the runner, and the
loop takes what the runner sends off a second queue. The steps of all three fall in any order.
-/
namespace Aabox.NavPipeline
open Aabox.Lib Aabox.Nav Aabox.NavRunner Aabox.DestinationWatch

/-- `issued` lists the instructions that the source gave, each with the destination it had last been
given, and `taken` those that the loop has taken. Both tasks hold an end of the first queue. -/
structure Pipeline (N F : Type) where
  watch : WatchState F
  runner : NavState N F
  issued : List (Option (Destination F) × NavInstruction)
  taken : List NavInstruction

/-- The writer's steps, the watcher's, a destination sent and one received, the runner's, and those
of its other neighbours. -/
inductive Event (F : Type)
  | write (mtime : Nat) (content : List UInt8) | delete
  | stat | statFails | openFile | read (got : List UInt8) | readFails | watchSendFails | watchExit
  | push | take
  | emitInitial | recvFix | send | sendFails | exit
  | fix (f : Sensor.PositionFix F) | closeGps | recvNav | closeNav

variable {N F : Type}

def Event.watch : Event F → Option WatchEvent
  | .write mtime content => some (.write mtime content)
  | .delete => some .delete
  | .stat => some .stat
  | .statFails => some .statFails
  | .openFile => some .openFile
  | .read got => some (.read got)
  | .readFails => some .readFails
  | .watchSendFails => some .sendFails
  | .watchExit => some .exit
  | .push => some .send
  | .take => some .recv
  | .sendFails | .exit => some .dropRx
  | _ => none

/-- What arrives at the runner is what the watcher sends. -/
def Event.runner (pc : WatchPc F) : Event F → Option (NavEvent F)
  | .push =>
    match pc with
    | .sending d => some (.arrive d)
    | _ => none
  | .take => some .recvDest
  | .watchExit => some .closeDest
  | .emitInitial => some .emitInitial
  | .recvFix => some .recvFix
  | .send => some .send
  | .sendFails => some .sendFails
  | .exit => some .exit
  | .fix f => some (.fix f)
  | .closeGps => some .closeGps
  | .recvNav => some .drain
  | .closeNav => some .closeNav
  | _ => none

def pending : RunnerPc → List NavInstruction
  | .sending instr => [instr]
  | _ => []

/-- The instructions that the source gives in a step of the runner. -/
def given (runner : NavState N F) :
    Option (NavEvent F) → List (Option (Destination F) × NavInstruction)
  | some .emitInitial | some .recvDest | some .recvFix =>
    (pending runner.pc).map fun instr => (runner.calls.getLast?, instr)
  | _ => []

def takes (runner : NavState N F) : Option (NavEvent F) → List NavInstruction
  | some .drain => runner.nav.queue.take 1
  | _ => []

def next (json : List UInt8 → Option (Destination F)) (text : FloatText F)
    (src : NavInstructionSource N F) (rc : NavRunnerConfig) (s : Pipeline N F) (e : Event F) :
    Option (Pipeline N F) :=
  let runs := e.runner s.watch.pc
  (side (DestinationWatch.next json text) s.watch e.watch).bind fun watch =>
    (side (NavRunner.next src rc) s.runner runs).map fun runner =>
      { watch, runner, issued := s.issued ++ given runner runs
        taken := s.taken ++ takes s.runner runs }

/-- `build_nav_config` and step B of `run`, when a file is watched. -/
def start (text : FloatText F) (osrm : String → N) (nav : NavOptions) : Option (Pipeline N F) :=
  let cfg := buildNavConfig text osrm nav
  cfg.destination_rx.bind fun rx => (wire cfg).map fun runner => ⟨.new rx, runner, [], []⟩

variable {json : List UInt8 → Option (Destination F)} {text : FloatText F}
  {src : NavInstructionSource N F} {rc : NavRunnerConfig} {s t s₀ : Pipeline N F} {e : Event F}
  {es : List (Event F)} {osrm : String → N} {nav : NavOptions}

/-- When each step of the runner can happen, and what it leaves. -/
inductive RunnerStep (src : NavInstructionSource N F) (rc : NavRunnerConfig) (n : NavState N F) :
    NavEvent F → NavState N F → Prop
  | arrive {d : Destination F} {dest : Mpsc (Destination F)} : n.fed = true →
    n.dest.trySend d = some dest →
    RunnerStep src rc n (.arrive d) { n with dest, arrived := n.arrived ++ [d] }
  | closeDest : RunnerStep src rc n .closeDest { n with dest := n.dest.dropTx }
  | fix {f : Sensor.PositionFix F} {gps : Mpsc (Sensor.PositionFix F)} :
    n.gps.trySend f = some gps → RunnerStep src rc n (.fix f) { n with gps }
  | closeGps : RunnerStep src rc n .closeGps { n with gps := n.gps.dropTx }
  | drain {instr : NavInstruction} {nav : Mpsc NavInstruction} : n.nav.recv = some (instr, nav) →
    RunnerStep src rc n .drain { n with nav }
  | closeNav : RunnerStep src rc n .closeNav { n with nav := n.nav.dropRx }
  | emit {instr : NavInstruction} : n.pc = .starting →
    src.current_instruction n.source = some instr →
    RunnerStep src rc n .emitInitial
      { n with pc := if rc.emit_initial then .sending instr else .waiting }
  | silent : n.pc = .starting → src.current_instruction n.source = none →
    RunnerStep src rc n .emitInitial { n with pc := .waiting }
  | recvDest {d : Destination F} {dest : Mpsc (Destination F)} : n.pc = .waiting →
    n.dest.recv = some (d, dest) →
    RunnerStep src rc n .recvDest { n with
      source := (src.set_destination n.source d).2, dest
      pc := afterCall (src.set_destination n.source d).1, calls := n.calls ++ [d] }
  | recvFix {f : Sensor.PositionFix F} {gps : Mpsc (Sensor.PositionFix F)} : n.pc = .waiting →
    n.gps.recv = some (f, gps) →
    RunnerStep src rc n .recvFix { n with
      source := (src.update_position n.source f).2, gps
      pc := afterCall (src.update_position n.source f).1 }
  | send {instr : NavInstruction} {nav : Mpsc NavInstruction} : n.pc = .sending instr →
    n.nav.trySend instr = some nav → RunnerStep src rc n .send { n with nav, pc := .waiting }
  | sendFails {instr : NavInstruction} : n.pc = .sending instr → n.nav.rx_alive = false →
    RunnerStep src rc n .sendFails n.finish
  | exit : n.pc = .waiting → n.dest.Ended → RunnerStep src rc n .exit n.finish

theorem runner_cases {n n' : NavState N F} {a : NavEvent F}
    (h : NavRunner.next src rc n a = some n') : RunnerStep src rc n a n' := by
  cases a with
  | arrive d =>
    simp only [NavRunner.next] at h
    split at h
    · rename_i hfed
      obtain ⟨dest, hdest, rfl⟩ := Option.map_eq_some_iff.mp h
      exact .arrive hfed.1 hdest
    · cases h
  | closeDest =>
    cases h
    exact .closeDest
  | fix f =>
    simp only [NavRunner.next] at h
    split at h
    · obtain ⟨gps, hgps, rfl⟩ := Option.map_eq_some_iff.mp h
      exact .fix hgps
    · cases h
  | closeGps =>
    cases h
    exact .closeGps
  | drain =>
    obtain ⟨⟨instr, nav⟩, hnav, rfl⟩ := Option.map_eq_some_iff.mp h
    exact .drain hnav
  | closeNav =>
    cases h
    exact .closeNav
  | emitInitial =>
    simp only [NavRunner.next] at h
    split at h
    · rename_i hpc
      split at h <;> cases h
      · rename_i instr hcur
        exact .emit hpc hcur
      · rename_i hcur
        exact .silent hpc hcur
    · cases h
  | recvDest =>
    simp only [NavRunner.next] at h
    split at h
    · rename_i hpc
      obtain ⟨⟨d, dest⟩, hdest, rfl⟩ := Option.map_eq_some_iff.mp h
      exact .recvDest hpc hdest
    · cases h
  | recvFix =>
    simp only [NavRunner.next] at h
    split at h
    · rename_i hpc
      obtain ⟨⟨f, gps⟩, hgps, rfl⟩ := Option.map_eq_some_iff.mp h
      exact .recvFix hpc hgps
    · cases h
  | send =>
    simp only [NavRunner.next] at h
    split at h
    · rename_i instr hpc
      obtain ⟨nav, hnav, rfl⟩ := Option.map_eq_some_iff.mp h
      exact .send hpc hnav
    · cases h
  | sendFails =>
    simp only [NavRunner.next] at h
    split at h
    · rename_i instr hpc
      split at h <;> cases h
      rename_i hrx
      exact .sendFails hpc (Bool.eq_false_iff.mpr hrx)
    · cases h
  | exit =>
    simp only [NavRunner.next] at h
    split at h <;> cases h
    rename_i hends
    exact .exit hends.1 hends.2.1

/-- The steps of the watcher that leave its queue alone. -/
def ownWatch : WatchEvent → Bool
  | .recv | .dropRx | .send | .exit => false
  | _ => true

theorem watch_own {w w' : WatchState F} {a : WatchEvent} (ha : ownWatch a)
    (h : DestinationWatch.next json text w a = some w') :
    w'.tx = w.tx ∧ w'.pushed = w.pushed ∧ (w'.pc = .returned ↔ w.pc = .returned) := by
  cases next_cases h with
  | recv | dropRx | send | exit => cases ha
  | write => exact ⟨rfl, rfl, by cases hpc : w.pc <;> simp [WatchPc.tear]⟩
  | delete => exact ⟨rfl, rfl, Iff.rfl⟩
  | stat hp =>
    have hpc : w.pc ≠ .returned := by
      intro hpc
      simp [WatchState.polls, hpc] at hp
    unfold WatchState.stat
    split
    · exact ⟨rfl, rfl, by simp [hpc]⟩
    · split <;> exact ⟨rfl, rfl, by simp [hpc]⟩
  | statFails hp =>
    have hpc : w.pc ≠ .returned := by
      intro hpc
      simp [WatchState.polls, hpc] at hp
    exact ⟨rfl, rfl, by simp [hpc]⟩
  | missing hpc | openFile hpc | sendFails hpc => exact ⟨rfl, rfl, by simp [hpc]⟩
  | @read held got torn hpc =>
    refine ⟨rfl, rfl, ?_⟩
    rcases hres : readFrom json (some got) with ⟨⟩ | _ | df <;> simp [afterRead, hpc]
  | readFails hpc =>
    rcases hpc with hpc | ⟨held, torn, hpc⟩ <;> exact ⟨rfl, rfl, by simp [hpc]⟩

/-- The steps of the runner that leave the destinations alone. -/
def ownRunner : NavEvent F → Bool
  | .arrive _ | .closeDest | .recvDest | .sendFails | .exit => false
  | _ => true

theorem runner_own {n n' : NavState N F} {a : NavEvent F} (ha : ownRunner a)
    (h : RunnerStep src rc n a n') : n'.dest = n.dest ∧ n'.arrived = n.arrived ∧
      (n'.pc = .returned ↔ n.pc = .returned) ∧
      (n.nav.rx_alive = false → n'.nav.rx_alive = false) := by
  cases h with
  | arrive | closeDest | recvDest | sendFails | exit => cases ha
  | fix | closeGps => exact ⟨rfl, rfl, Iff.rfl, id⟩
  | closeNav => exact ⟨rfl, rfl, Iff.rfl, fun _ => rfl⟩
  | drain hnav =>
    refine ⟨rfl, rfl, Iff.rfl, fun hrx => ?_⟩
    rw [(Mpsc.recv_some hnav).2]
    exact hrx
  | emit hpc => exact ⟨rfl, rfl, by cases rc.emit_initial <;> simp [hpc], id⟩
  | silent hpc => exact ⟨rfl, rfl, by simp [hpc], id⟩
  | recvFix hpc => exact ⟨rfl, rfl, by simp [hpc, afterCall_ne_returned], id⟩
  | send hpc hnav =>
    refine ⟨rfl, rfl, by simp [hpc], fun hrx => ?_⟩
    obtain ⟨halive, -, -⟩ := Mpsc.trySend_some hnav
    rw [hrx] at halive
    cases halive

theorem next_parts (h : next json text src rc s e = some t) :
    side (DestinationWatch.next json text) s.watch e.watch = some t.watch ∧
      side (NavRunner.next src rc) s.runner (e.runner s.watch.pc) = some t.runner ∧
      t.issued = s.issued ++ given t.runner (e.runner s.watch.pc) ∧
      t.taken = s.taken ++ takes s.runner (e.runner s.watch.pc) := by
  obtain ⟨watch, hwatch, h⟩ := Option.bind_eq_some_iff.mp h
  obtain ⟨runner, hrunner, rfl⟩ := Option.map_eq_some_iff.mp h
  exact ⟨hwatch, hrunner, rfl, rfl⟩

/-- The two ends are those of one queue, and each task goes only after its receiver. -/
structure Joined (w : WatchState F) (n : NavState N F) : Prop where
  queue : n.dest.queue = w.tx.queue
  capacity : n.dest.capacity = w.tx.capacity
  rx : n.dest.rx_alive = w.tx.rx_alive
  tx : n.dest.tx_alive = true ∨ w.pc = .returned
  watching : w.pc = .returned → w.tx.rx_alive = false
  gone : w.tx.rx_alive = false → n.pc = .returned
  closed : n.pc = .returned → n.nav.rx_alive = false
  arrived : n.arrived = w.pushed.map Push.dest

variable {w w' : WatchState F} {n n' : NavState N F}

theorem joined_watch {a : WatchEvent} (h : Joined w n) (ha : ownWatch a)
    (hw : DestinationWatch.next json text w a = some w') : Joined w' n := by
  obtain ⟨htx, hpushed, hret⟩ := watch_own ha hw
  refine ⟨?_, ?_, ?_, h.tx.imp id hret.mpr, ?_, ?_, h.closed, ?_⟩
  · rw [htx, h.queue]
  · rw [htx, h.capacity]
  · rw [htx, h.rx]
  · rw [htx]
    exact fun hpc => h.watching (hret.mp hpc)
  · rw [htx]
    exact h.gone
  · rw [hpushed, h.arrived]

theorem joined_runner {a : NavEvent F} (h : Joined w n) (ha : ownRunner a)
    (hn : RunnerStep src rc n a n') : Joined w n' := by
  obtain ⟨hdest, harrived, hret, hopen⟩ := runner_own ha hn
  refine ⟨?_, ?_, ?_, ?_, h.watching, fun hrx => hret.mpr (h.gone hrx),
    fun hpc => hopen (h.closed (hret.mp hpc)), ?_⟩
  · rw [hdest, h.queue]
  · rw [hdest, h.capacity]
  · rw [hdest, h.rx]
  · rw [hdest]
    exact h.tx
  · rw [harrived, h.arrived]

theorem joined_push {d : Destination F} (h : Joined w n) (hpc : w.pc = .sending d)
    (hw : WatchStep json text w .send w') (hn : RunnerStep src rc n (.arrive d) n') :
    Joined w' n' := by
  cases hw with
  | send hpc' htx =>
  cases hn with
  | arrive _ hdest =>
    obtain rfl := WatchPc.sending.inj (hpc.symm.trans hpc')
    obtain ⟨hrx, -, rfl⟩ := Mpsc.trySend_some htx
    obtain ⟨-, -, rfl⟩ := Mpsc.trySend_some hdest
    refine ⟨?_, h.capacity, h.rx, .inl ?_, ?_, h.gone, h.closed, ?_⟩
    · simp only [h.queue]
    · rcases h.tx with htx | hret
      · exact htx
      · rw [hpc] at hret
        cases hret
    · intro hret
      cases hret
    · simp [h.arrived]

theorem joined_take (h : Joined w n) (hw : WatchStep json text w .recv w')
    (hn : RunnerStep src rc n .recvDest n') : Joined w' n' := by
  cases hw with
  | recv htx =>
  cases hn with
  | recvDest hpc hdest =>
    obtain ⟨hq, hc⟩ := Mpsc.recv_some htx
    obtain ⟨hq', hc'⟩ := Mpsc.recv_some hdest
    have hqueues := (List.cons.inj ((hq'.symm.trans h.queue).trans hq)).2
    refine ⟨hqueues, ?_, ?_, ?_, ?_, ?_, ?_, h.arrived⟩
    · rw [hc, hc']
      exact h.capacity
    · rw [hc, hc']
      exact h.rx
    · rw [hc']
      exact h.tx
    · rw [hc]
      exact h.watching
    · rw [hc]
      intro hrx
      have hret := h.gone hrx
      rw [hpc] at hret
      cases hret
    · exact fun hret => (afterCall_ne_returned _ hret).elim

/-- When the runner returns, it has found its output closed. -/
theorem joined_finish {a : NavEvent F} (h : Joined w n) (hw : WatchStep json text w .dropRx w')
    (ha : a = .sendFails ∨ a = .exit) (hn : RunnerStep src rc n a n') : Joined w' n' := by
  have hfinish : n' = n.finish ∧ n.nav.rx_alive = false := by
    rcases ha with rfl | rfl
    · cases hn with
      | sendFails _ hrx => exact ⟨rfl, hrx⟩
    · cases hn with
      | exit hpc hended =>
        -- the feed ends only with the watcher, which waits for the runner to go
        rcases h.tx with htx | hret
        · rw [hended.2] at htx
          cases htx
        · have hgone := h.gone (h.watching hret)
          rw [hpc] at hgone
          cases hgone
  obtain ⟨rfl, hrx⟩ := hfinish
  cases hw with
  | dropRx =>
    exact ⟨h.queue, h.capacity, rfl, h.tx, fun _ => rfl, fun _ => rfl, fun _ => hrx, h.arrived⟩

theorem joined_exit (h : Joined w n) (hw : WatchStep json text w .exit w') :
    Joined w' { n with dest := n.dest.dropTx } := by
  cases hw with
  | exit _ hrx =>
    exact ⟨h.queue, h.capacity, h.rx, .inr rfl, fun _ => hrx, h.gone, h.closed, h.arrived⟩

theorem joined_step (h : Joined s.watch s.runner) (hstep : next json text src rc s e = some t) :
    Joined t.watch t.runner := by
  obtain ⟨hw, hn, -, -⟩ := next_parts hstep
  generalize t.watch = w' at hw ⊢
  generalize t.runner = n' at hn ⊢
  cases e with
  | write | delete | stat | statFails | openFile | read | readFails | watchSendFails =>
    simp only [Event.watch, Event.runner, side, Option.some.injEq] at hw hn
    rw [← hn]
    exact joined_watch h rfl hw
  | emitInitial | recvFix | send | fix | closeGps | recvNav | closeNav =>
    simp only [Event.watch, Event.runner, side, Option.some.injEq] at hw hn
    rw [← hw]
    exact joined_runner h rfl (runner_cases hn)
  | push =>
    have hsend : WatchStep json text s.watch .send w' := next_cases hw
    obtain ⟨d, hpc⟩ : ∃ d, s.watch.pc = .sending d := by
      cases hsend with
      | send hpc => exact ⟨_, hpc⟩
    rw [hpc] at hn
    have hrunner : RunnerStep src rc s.runner (.arrive d) n' := runner_cases hn
    exact joined_push h hpc hsend hrunner
  | take =>
    have hrecv : WatchStep json text s.watch .recv w' := next_cases hw
    have hrunner : RunnerStep src rc s.runner .recvDest n' := runner_cases hn
    exact joined_take h hrecv hrunner
  | watchExit =>
    have hexit : WatchStep json text s.watch .exit w' := next_cases hw
    rw [← Option.some.inj hn]
    exact joined_exit h hexit
  | sendFails =>
    have hdrop : WatchStep json text s.watch .dropRx w' := next_cases hw
    have hrunner : RunnerStep src rc s.runner .sendFails n' := runner_cases hn
    exact joined_finish h hdrop (.inl rfl) hrunner
  | exit =>
    have hdrop : WatchStep json text s.watch .dropRx w' := next_cases hw
    have hrunner : RunnerStep src rc s.runner .exit n' := runner_cases hn
    exact joined_finish h hdrop (.inr rfl) hrunner

/-- What the source gave has been taken, waits in the queue or is in the runner's hand, in this
order; only a runner that returns drops what it has in hand. -/
structure Output (n : NavState N F) (issued : List (Option (Destination F) × NavInstruction))
    (taken : List NavInstruction) : Prop where
  order : taken ++ n.nav.queue ++ pending n.pc <+: issued.map Prod.snd
  all : n.pc ≠ .returned → taken ++ n.nav.queue ++ pending n.pc = issued.map Prod.snd

variable {issued : List (Option (Destination F) × NavInstruction)} {taken : List NavInstruction}
  {a : NavEvent F}

theorem given_snd (n : NavState N F) :
    ((pending n.pc).map fun instr => (n.calls.getLast?, instr)).map Prod.snd = pending n.pc := by
  simp [Function.comp_def]

/-- A step of the source before which nothing is in hand. -/
theorem output_given (h : Output n issued taken) (hpc : pending n.pc = [])
    (hrun : n.pc ≠ .returned) (hnav : n'.nav.queue = n.nav.queue) :
    Output n' (issued ++ (pending n'.pc).map fun instr => (n'.calls.getLast?, instr)) taken := by
  have hall := h.all hrun
  rw [hpc, List.append_nil] at hall
  refine ⟨?_, fun _ => ?_⟩
  · rw [List.map_append, given_snd, hnav, hall]
  · rw [List.map_append, given_snd, hnav, hall]

theorem output_runner (h : Output n issued taken) (hstep : RunnerStep src rc n a n') :
    Output n' (issued ++ given n' (some a)) (taken ++ takes n (some a)) := by
  cases hstep with
  | arrive | closeDest | fix | closeGps | closeNav =>
    simp only [given, takes, List.append_nil]
    exact ⟨h.order, h.all⟩
  | drain hnav =>
    obtain ⟨horder, hall⟩ := h
    rw [(Mpsc.recv_some hnav).1] at horder hall
    simp only [given, takes, List.append_nil, (Mpsc.recv_some hnav).1]
    refine ⟨?_, ?_⟩
    · simpa using horder
    · simpa using hall
  | emit hpc | silent hpc | recvDest hpc | recvFix hpc =>
    simp only [takes, List.append_nil]
    exact output_given h (by rw [hpc]; rfl) (by rw [hpc]; simp) rfl
  | @send instr nav hpc hnav =>
    obtain ⟨-, -, rfl⟩ := Mpsc.trySend_some hnav
    have hall := h.all (by simp [hpc])
    rw [hpc, pending] at hall
    simp only [given, takes, List.append_nil]
    refine ⟨?_, fun _ => ?_⟩
    · simp [← hall, pending]
    · simp [← hall, pending]
  | sendFails hpc | exit hpc =>
    simp only [given, takes, List.append_nil]
    refine ⟨?_, fun hret => (hret rfl).elim⟩
    refine List.IsPrefix.trans ?_ h.order
    simp [NavState.finish, pending]

theorem output_step (h : Output s.runner s.issued s.taken)
    (hstep : next json text src rc s e = some t) : Output t.runner t.issued t.taken := by
  obtain ⟨-, hn, hissued, htaken⟩ := next_parts hstep
  rw [hissued, htaken]
  cases hruns : e.runner s.watch.pc with
  | none =>
    rw [hruns] at hn
    rw [← Option.some.inj hn]
    simpa [given, takes] using h
  | some a =>
    rw [hruns] at hn
    have hrunner : RunnerStep src rc s.runner a t.runner := runner_cases hn
    exact output_runner h hrunner

theorem feed_step (h : Ledger [] s.runner) (hstep : next json text src rc s e = some t) :
    Ledger [] t.runner := by
  obtain ⟨-, hn, -, -⟩ := next_parts hstep
  cases hruns : e.runner s.watch.pc with
  | none =>
    rw [hruns] at hn
    rwa [← Option.some.inj hn]
  | some a =>
    rw [hruns] at hn
    have hrunner : Steps (NavRunner.next src rc) s.runner a t.runner := hn
    exact ledger_step h hrunner

/-- The runner's feed is the caller's, and the queues are those that `build_nav_config` and `run`
make. -/
structure Sized (n : NavState N F) : Prop where
  fed : n.fed = true
  dest : n.dest.capacity = 4
  nav : n.nav.capacity = 8

theorem sized_runner (h : Sized n) (hstep : RunnerStep src rc n a n') : Sized n' := by
  obtain ⟨hfed, hdest, hnav⟩ := h
  cases hstep with
  | arrive _ htx =>
    obtain ⟨-, -, rfl⟩ := Mpsc.trySend_some htx
    exact ⟨hfed, hdest, hnav⟩
  | drain hrx =>
    rw [(Mpsc.recv_some hrx).2]
    exact ⟨hfed, hdest, hnav⟩
  | recvDest _ hrx =>
    rw [(Mpsc.recv_some hrx).2]
    exact ⟨hfed, hdest, hnav⟩
  | send _ htx =>
    obtain ⟨-, -, rfl⟩ := Mpsc.trySend_some htx
    exact ⟨hfed, hdest, hnav⟩
  | _ => exact ⟨hfed, hdest, hnav⟩

/-- A step of the pipeline is, for the runner, one of its own or none. -/
theorem next_runner (h : next json text src rc s e = some t) :
    t.runner = s.runner ∨
      ∃ a, e.runner s.watch.pc = some a ∧ RunnerStep src rc s.runner a t.runner := by
  obtain ⟨-, hn, -, -⟩ := next_parts h
  cases hruns : e.runner s.watch.pc with
  | none =>
    rw [hruns] at hn
    exact .inl (Option.some.inj hn).symm
  | some a =>
    rw [hruns] at hn
    exact .inr ⟨a, rfl, runner_cases hn⟩

/-- What every step of the pipeline keeps. -/
structure Inv (s : Pipeline N F) : Prop where
  joined : Joined s.watch s.runner
  feed : Ledger [] s.runner
  output : Output s.runner s.issued s.taken
  sized : Sized s.runner

theorem inv_step (h : Inv s) (hstep : Steps (next json text src rc) s e t) : Inv t := by
  refine ⟨joined_step h.joined hstep, feed_step h.feed hstep, output_step h.output hstep, ?_⟩
  rcases next_runner hstep with heq | ⟨a, -, hrunner⟩
  · exact heq ▸ h.sized
  · exact sized_runner h.sized hrunner

/-- A watched file takes the place of the local feed, so both tasks start with an empty queue. -/
theorem start_some (h : start text osrm nav = some s₀) : s₀ =
    { watch := .new (.new 4)
      runner :=
        { source := osrm nav.osrm_base_url, pc := .starting, dest := .new 4, gps := .new 8
          nav := .new 8, fed := true, calls := [], arrived := [] }
      issued := [], taken := [] } := by
  cases hfile : nav.destination_file.isEmpty with
  | true =>
    have hnone : (buildNavConfig text osrm nav).destination_rx = none := by
      unfold buildNavConfig
      simp only [hfile, if_true]
      split <;> rfl
    rw [start, hnone] at h
    cases h
  | false =>
    have hcfg : buildNavConfig text osrm nav =
        { nav_source := some (osrm nav.osrm_base_url)
          initial_destination := (nav.destination.bind (parseCli text)).map (intoDestination text)
          destination_rx := some (.new 4) } := by
      simp [buildNavConfig, hfile]
    rw [start, hcfg] at h
    cases h
    rfl

theorem inv_start (h : start text osrm nav = some s₀) : Inv s₀ := by
  rw [start_some h]
  refine ⟨⟨rfl, rfl, rfl, .inl rfl, ?_, ?_, ?_, rfl⟩, ⟨rfl, fun _ => rfl⟩,
    ⟨List.prefix_refl _, fun _ => rfl⟩, ⟨rfl, rfl, rfl⟩⟩ <;> intro h <;> cases h

theorem inv_run (h : start text osrm nav = some s₀)
    (hrun : Run (Steps (next json text src rc)) s₀ es s) : Inv s :=
  hrun.invariant (fun _ _ _ => inv_step) (inv_start h)

/-- The source has been given the beginning of what the watcher sent, and the rest waits. -/
theorem sent_eq (h : Inv s) :
    s.watch.pushed.map Push.dest = s.runner.calls ++ s.runner.dest.queue := by
  rw [← h.joined.arrived]
  exact h.feed.1.symm

/-! ### The two queues -/

theorem pushed_grows (hstep : Steps (next json text src rc) s e t) :
    s.watch.pushed.map Push.dest <+: t.watch.pushed.map Push.dest := by
  obtain ⟨hw, -, -, -⟩ := next_parts hstep
  cases hl : e.watch with
  | none =>
    rw [hl] at hw
    rw [← Option.some.inj hw]
  | some a =>
    rw [hl] at hw
    generalize t.watch = w' at hw ⊢
    cases ha : ownWatch a with
    | true => rw [(watch_own ha hw).2.1]
    | false =>
      cases next_cases hw with
      | recv | dropRx | exit => exact List.prefix_refl _
      | send => simp
      | _ => cases ha

theorem calls_grow (hstep : Steps (next json text src rc) s e t) :
    s.runner.calls <+: t.runner.calls := by
  obtain ⟨-, hn, -, -⟩ := next_parts hstep
  cases hl : e.runner s.watch.pc with
  | none =>
    rw [hl] at hn
    rw [← Option.some.inj hn]
  | some a =>
    rw [hl] at hn
    obtain ⟨-, ⟨hc, -⟩ | ⟨d, -, hc, -⟩ | ⟨d, hc, -⟩⟩ := next_feed hn
    · rw [hc]
    · rw [hc]
    · rw [hc]
      exact List.prefix_append _ _

variable (json text src rc) in
/-- The feed of destinations is a queue between the watcher and the source. -/
theorem feed_refines : Refines (Steps (next json text src rc)) Fifo.Step fun s q =>
    Inv s ∧ q.pushed = s.watch.pushed.map Push.dest ∧ q.popped = s.runner.calls :=
  Fifo.refines (fun _ _ _ => inv_step) (fun _ _ _ _ => pushed_grows) (fun _ _ _ _ => calls_grow)
    fun _ hs => ⟨_, (sent_eq hs).symm⟩

variable (json text src rc) in
/-- The navigation queue is one between the source and the loop. -/
theorem output_refines : Refines (Steps (next json text src rc)) Fifo.Step fun s q =>
    Inv s ∧ q.pushed = s.issued.map Prod.snd ∧ q.popped = s.taken := by
  refine Fifo.refines (fun _ _ _ => inv_step) ?_ ?_ ?_
  · intro s e t _ hstep
    rw [(next_parts hstep).2.2.1, List.map_append]
    exact List.prefix_append _ _
  · intro s e t _ hstep
    rw [(next_parts hstep).2.2.2]
    exact List.prefix_append _ _
  · intro s hs
    refine List.IsPrefix.trans ?_ hs.output.order
    rw [List.append_assoc]
    exact List.prefix_append _ _

/-- In every order of the steps, the destinations go from the file to the source, and the
instructions from the source to the loop, as through two queues. A runner that has returned has
found its output closed. -/
theorem pipeline_in_order (h : start text osrm nav = some s₀)
    (hrun : Run (Steps (next json text src rc)) s₀ es s) :
    (∃ q, Reachable Fifo.Step .empty q ∧ q.pushed = s.watch.pushed.map Push.dest ∧
      q.popped = s.runner.calls ∧ q.pushed = q.popped ++ s.runner.dest.queue) ∧
    (∃ q, Reachable Fifo.Step .empty q ∧ q.pushed = s.issued.map Prod.snd ∧ q.popped = s.taken ∧
      (s.runner.pc ≠ .returned →
        q.pushed = q.popped ++ s.runner.nav.queue ++ pending s.runner.pc)) ∧
    (s.runner.pc = .returned → s.runner.nav.rx_alive = false) := by
  have hs := inv_run h hrun
  have hinv := inv_start h
  have hstart := start_some h
  obtain ⟨q, hq, -, hpushed, hpopped⟩ := (feed_refines json text src rc).reachable
    (u := .empty) ⟨hinv, by rw [hstart]; rfl, by rw [hstart]; rfl⟩ ⟨es, hrun⟩
  obtain ⟨r, hr, -, hissued, htaken⟩ := (output_refines json text src rc).reachable
    (u := .empty) ⟨hinv, by rw [hstart]; rfl, by rw [hstart]; rfl⟩ ⟨es, hrun⟩
  refine ⟨⟨q, hq, hpushed, hpopped, ?_⟩, ⟨r, hr, hissued, htaken, fun hpc => ?_⟩, hs.joined.closed⟩
  · rw [hpushed, hpopped, sent_eq hs]
  · rw [hissued, htaken, hs.output.all hpc]

/-- The pipeline of a source that always goes straight ahead, with nothing done yet. -/
def demoStart : Pipeline (StaticDemoSource Nat) Nat where
  watch := .new (.new 4)
  runner :=
    { source := ⟨none, 0⟩, pc := .starting, dest := .new 4, gps := .new 8, nav := .new 8
      fed := true, calls := [], arrived := [] }
  issued := []
  taken := []

theorem demoStart_eq : start noText (fun _ => (⟨none, 0⟩ : StaticDemoSource Nat))
    ⟨none, defaultDestinationFile, ""⟩ = some demoStart := rfl

/-- The file is written and read, and the source is given what it says. -/
theorem pipeline_in_order_first : ∃ s : Pipeline (StaticDemoSource Nat) Nat,
    s.taken.length = 2 ∧
      (∃ q : Fifo (Destination Nat), Reachable Fifo.Step .empty q ∧ q.popped = [⟨1, 0, "x"⟩]) ∧
      ∃ q, Reachable Fifo.Step .empty q ∧ q.popped = s.taken ∧ q.pushed = q.popped := by
  have hrun : Run (Steps (next latByte noText StaticDemoSource.calls ⟨true⟩)) demoStart
      [.write 5 [1], .emitInitial, .stat, .openFile, .read [1], .push, .send, .take, .recvNav,
        .send, .recvNav] _ := run_iff_foldlM.mpr rfl
  obtain ⟨⟨q, hq, -, hpopped, -⟩, ⟨r, hr, -, htaken, hall⟩, -⟩ :=
    pipeline_in_order demoStart_eq hrun
  refine ⟨_, rfl, ⟨q, hq, hpopped⟩, r, hr, htaken, ?_⟩
  simpa [pending] using hall (by simp)

/-! ### The last destination -/

/-- Neither a step of the writer nor a failed read. -/
def Event.quiet (e : Event F) : Bool := e.watch.all WatchEvent.quiet

theorem watch_run
    (hrun : Run (Guard (Steps (next json text src rc)) fun _ e => e.quiet) s es t) :
    Run (Quiet json text) s.watch (es.filterMap Event.watch) t.watch := by
  refine hrun.part Pipeline.watch fun s e t hstep => ?_
  obtain ⟨hw, -, -, -⟩ := next_parts hstep.1
  have hquiet : e.watch.all WatchEvent.quiet := hstep.2
  cases hl : e.watch with
  | none =>
    rw [hl] at hw
    exact (Option.some.inj hw).symm
  | some a =>
    rw [hl] at hw hquiet
    exact ⟨hw, hquiet⟩

/-- A destination written at a new time is the last one that the source is given, once a later poll
has ended and nothing waits. -/
theorem last_of_settled {mtime : Nat} {content : List UInt8} {df : Destination F} (hs : Inv s)
    (hu : Unseen mtime content s.watch)
    (hrun : Run (Guard (Steps (next json text src rc)) fun _ e => e.quiet) s es t)
    (hlook : .stat ∈ es) (hpc : t.watch.pc = .ticking) (hrx : t.watch.tx.rx_alive)
    (hq : t.runner.dest.queue = []) (hjson : json content = some df) :
    t.runner.calls.getLast? = some (intoDestination text df) := by
  have ht : Inv t := (hrun.mono fun _ _ _ h => h.1).invariant (fun _ _ _ => inv_step) hs
  have hmem : WatchEvent.stat ∈ es.filterMap Event.watch := List.mem_filterMap.mpr ⟨_, hlook, rfl⟩
  have hc := (seen_run hjson hu (watch_run hrun) hmem).carries
  rw [Carries, hpc] at hc
  have hsent := sent_eq ht
  rw [hq, List.append_nil] at hsent
  rw [← hsent, List.getLast?_map]
  exact hc hrx

/-! ### The way there -/

/-- The steps by which a poll ends and what is under way comes through. -/
def Event.inner : Event F → Bool
  | .openFile | .read _ | .push | .take | .emitInitial | .send | .recvNav => true
  | _ => false

def watchRank : WatchPc F → Nat
  | .changed => 6
  | .reading .. => 5
  | .sending _ => 4
  | _ => 0

def runnerRank : RunnerPc → Nat
  | .starting => 3
  | .sending _ => 2
  | _ => 0

/-- A bound on the inner steps still to come. -/
def rank (s : Pipeline N F) : Nat :=
  watchRank s.watch.pc + 3 * s.runner.dest.queue.length + runnerRank s.runner.pc +
    s.runner.nav.queue.length

/-- No poll is under way, and all destinations have been taken. -/
def Idle (s : Pipeline N F) : Prop :=
  (s.watch.pc = .starting ∨ s.watch.pc = .ticking) ∧ s.runner.dest.queue = [] ∧
    s.runner.pc = .waiting

theorem next_of (hw : side (DestinationWatch.next json text) s.watch e.watch = some w')
    (hn : side (NavRunner.next src rc) s.runner (e.runner s.watch.pc) = some n') :
    next json text src rc s e = some ⟨w', n', s.issued ++ given n' (e.runner s.watch.pc),
      s.taken ++ takes s.runner (e.runner s.watch.pc)⟩ := by
  simp [next, hw, hn]

variable (json text src rc) in
/-- A step of the pipeline that goes on, with the same output open. -/
def Ready (s : Pipeline N F) : Prop :=
  ∃ e t, Steps (next json text src rc) s e t ∧ e.inner ∧
    t.runner.nav.rx_alive = s.runner.nav.rx_alive ∧ rank t < rank s

theorem emit_ready (hpc : s.runner.pc = .starting) : Ready json text src rc s := by
  cases hcur : src.current_instruction s.runner.source with
  | none =>
    have hemit : NavRunner.next src rc s.runner .emitInitial =
        some { s.runner with pc := .waiting } := by
      simp [NavRunner.next, hpc, hcur]
    refine ⟨.emitInitial, _, next_of rfl hemit, rfl, rfl, ?_⟩
    simp [rank, hpc, runnerRank]
  | some instr =>
    have hemit : NavRunner.next src rc s.runner .emitInitial =
        some { s.runner with pc := if rc.emit_initial then .sending instr else .waiting } := by
      simp [NavRunner.next, hpc, hcur]
    refine ⟨.emitInitial, _, next_of rfl hemit, rfl, rfl, ?_⟩
    cases rc.emit_initial <;> simp [rank, hpc, runnerRank]

theorem runnerRank_afterCall (res : Except Unit (Option NavInstruction)) :
    runnerRank (afterCall res) ≤ 2 := by
  rcases res with ⟨⟩ | _ | instr <;> simp [afterCall, runnerRank]

/-- Where the queue is full, the loop makes room. -/
theorem send_ready {instr : NavInstruction} (hs : Inv s) (hopen : s.runner.nav.rx_alive = true)
    (hpc : s.runner.pc = .sending instr) : Ready json text src rc s := by
  have hcap := hs.sized.nav
  by_cases hroom : s.runner.nav.queue.length < s.runner.nav.capacity
  · have hsend : NavRunner.next src rc s.runner .send = some { s.runner with
        nav := { s.runner.nav with queue := s.runner.nav.queue ++ [instr] }, pc := .waiting } := by
      simp [NavRunner.next, hpc, Mpsc.trySend, hopen, hroom]
    refine ⟨.send, _, next_of rfl hsend, rfl, rfl, ?_⟩
    simp [rank, hpc, runnerRank]
    omega
  · obtain ⟨first, queue, hq⟩ : ∃ first queue, s.runner.nav.queue = first :: queue := by
      cases hq : s.runner.nav.queue with
      | nil => simp [hq, hcap] at hroom
      | cons first queue => exact ⟨first, queue, rfl⟩
    have hdrain : NavRunner.next src rc s.runner .drain =
        some { s.runner with nav := { s.runner.nav with queue } } := by
      simp [NavRunner.next, Mpsc.recv_cons hq]
    refine ⟨.recvNav, _, next_of rfl hdrain, rfl, rfl, ?_⟩
    simp [rank, hq]

theorem take_ready {d : Destination F} {queue : List (Destination F)} (hs : Inv s)
    (hpc : s.runner.pc = .waiting) (hq : s.runner.dest.queue = d :: queue) :
    Ready json text src rc s := by
  obtain ⟨n', hrecv, -, hnav, -, hqueue, -⟩ := recvDest_next src rc hpc hq
  have hw : DestinationWatch.next json text s.watch .recv =
      some { s.watch with tx := { s.watch.tx with queue } } := by
    simp [DestinationWatch.next, Mpsc.recv_cons (hs.joined.queue ▸ hq)]
  refine ⟨.take, _, next_of hw hrecv, rfl, by rw [hnav], ?_⟩
  have hle : runnerRank n'.pc ≤ 2 := by
    have hrunner : RunnerStep src rc s.runner .recvDest n' := runner_cases hrecv
    cases hrunner with
    | recvDest => exact runnerRank_afterCall _
  have hzero : runnerRank .waiting = 0 := rfl
  simp only [rank, hpc, hq, hqueue, hnav, List.length_cons]
  omega

/-- A poll under way ends, since there is room for what it sends. -/
theorem poll_ready (hs : Inv s) (hpc : s.runner.pc = .waiting) (hq : s.runner.dest.queue = [])
    (hpoll : s.watch.pc.busy) : Ready json text src rc s := by
  cases hw : s.watch.pc with
  | starting | ticking | returned => simp [hw, WatchPc.busy] at hpoll
  | changed =>
    cases hf : s.watch.file with
    | none =>
      have hopen : DestinationWatch.next json text s.watch .openFile =
          some { s.watch with pc := .ticking } := by
        simp [DestinationWatch.next, hw, hf, readFrom, afterRead]
      refine ⟨.openFile, _, next_of hopen rfl, rfl, rfl, ?_⟩
      simp [rank, hw, watchRank]
    | some file =>
      have hopen : DestinationWatch.next json text s.watch .openFile =
          some { s.watch with pc := .reading file.content false } := by
        simp [DestinationWatch.next, hw, hf]
      refine ⟨.openFile, _, next_of hopen rfl, rfl, rfl, ?_⟩
      simp [rank, hw, watchRank]
  | reading held torn =>
    have hread : DestinationWatch.next json text s.watch (.read held) =
        some { s.watch with pc := afterRead text (readFrom json (some held)) } := by
      simp [DestinationWatch.next, hw]
    refine ⟨.read held, _, next_of hread rfl, rfl, rfl, ?_⟩
    rcases hres : readFrom json (some held) with ⟨⟩ | _ | df <;>
      simp [rank, hw, afterRead, watchRank]
  | sending d =>
    have hrx : s.watch.tx.rx_alive = true := by
      by_contra hgone
      have hret := hs.joined.gone (by simpa using hgone)
      rw [hpc] at hret
      cases hret
    have hq' : s.watch.tx.queue = [] := hs.joined.queue ▸ hq
    have hcap : s.watch.tx.capacity = 4 := by rw [← hs.joined.capacity, hs.sized.dest]
    have htx : s.runner.dest.tx_alive = true := by
      rcases hs.joined.tx with htx | hret
      · exact htx
      · rw [hw] at hret
        cases hret
    have hsend : DestinationWatch.next json text s.watch .send = some { s.watch with
        tx := { s.watch.tx with queue := [d] }, pc := .ticking
        pushed := s.watch.pushed ++ [⟨d, s.watch.looked, s.watch.changes⟩] } := by
      simp [DestinationWatch.next, hw, Mpsc.trySend, hrx, hq', hcap]
    have harrive : NavRunner.next src rc s.runner (.arrive d) = some { s.runner with
        dest := { s.runner.dest with queue := [d] }, arrived := s.runner.arrived ++ [d] } := by
      simp [NavRunner.next, hs.sized.fed, htx, Mpsc.trySend, hs.joined.rx, hrx, hq,
        hs.sized.dest]
    have hruns : Event.push.runner s.watch.pc = some (.arrive d) := by
      rw [hw]
      rfl
    change side (NavRunner.next src rc) s.runner (some (.arrive d)) = _ at harrive
    rw [← hruns] at harrive
    refine ⟨.push, _, next_of hsend harrive, rfl, rfl, ?_⟩
    simp [rank, hw, hq, watchRank]

variable (json text src rc) in
/-- Unless the pipeline is idle, it can go on by itself. -/
theorem idle_or_ready (hs : Inv s) (hopen : s.runner.nav.rx_alive = true) :
    Idle s ∨ Ready json text src rc s := by
  cases hpc : s.runner.pc with
  | returned =>
    have hclosed := hs.joined.closed hpc
    rw [hopen] at hclosed
    cases hclosed
  | starting => exact .inr (emit_ready hpc)
  | sending instr => exact .inr (send_ready hs hopen hpc)
  | waiting =>
    cases hq : s.runner.dest.queue with
    | cons d queue => exact .inr (take_ready hs hpc hq)
    | nil =>
      cases hw : s.watch.pc with
      | starting => exact .inl ⟨.inl hw, hq, hpc⟩
      | ticking => exact .inl ⟨.inr hw, hq, hpc⟩
      | changed | reading held torn | sending d =>
        exact .inr (poll_ready hs hpc hq (by rw [hw]; rfl))
      | returned =>
        have hret := hs.joined.gone (hs.joined.watching hw)
        rw [hpc] at hret
        cases hret

variable (json text src rc) in
/-- A pipeline whose output is open comes to rest by itself. -/
theorem comes_to_rest (hs : Inv s) (hopen : s.runner.nav.rx_alive = true) :
    ∃ es t, Run (Guard (Steps (next json text src rc)) fun _ e => e.inner) s es t ∧
      (Inv t ∧ t.runner.nav.rx_alive = true) ∧ Idle t := by
  refine exists_run_of_rank rank ?_ ⟨hs, hopen⟩
  rintro s ⟨hs, hopen⟩
  rcases idle_or_ready json text src rc hs hopen with
    hidle | ⟨e, t, hstep, hinner, hrx, hlt⟩
  · exact .inl hidle
  · exact .inr ⟨e, t, ⟨hstep, hinner⟩, ⟨inv_step hs hstep, hrx.trans hopen⟩, hlt⟩

theorem inner_quiet (h : e.inner) : e.quiet ∧ e.watch ≠ some .stat := by
  cases e with
  | openFile | read | push | take | emitInitial | send | recvNav => exact ⟨rfl, by simp [Event.watch]⟩
  | _ => cases h

theorem unseen_inner {mtime : Nat} {content : List UInt8} (h : Unseen mtime content s.watch)
    (hstep : Guard (Steps (next json text src rc)) (fun _ e => e.inner) s e t) :
    Unseen mtime content t.watch := by
  obtain ⟨hquiet, hlook⟩ := inner_quiet hstep.2
  obtain ⟨hw, -, -, -⟩ := next_parts hstep.1
  rw [Event.quiet] at hquiet
  cases hl : e.watch with
  | none =>
    rw [hl] at hw
    rwa [← Option.some.inj hw]
  | some a =>
    rw [hl] at hw hquiet hlook
    have hstep' : DestinationWatch.Quiet json text s.watch a t.watch := ⟨hw, hquiet⟩
    exact unseen_step h hstep' fun ha => hlook (congrArg some ha)

variable (json text src rc) in
/-- An idle pipeline looks at the file. -/
theorem stat_ready (hs : Inv s) (hidle : Idle s) :
    ∃ t, Steps (next json text src rc) s .stat t ∧ t.runner = s.runner := by
  obtain ⟨hpc, -, hwait⟩ := hidle
  have hrx : s.watch.tx.rx_alive = true := by
    by_contra hgone
    have hret := hs.joined.gone (by simpa using hgone)
    rw [hwait] at hret
    cases hret
  have hpolls : s.watch.polls = true := by
    rcases hpc with hpc | hpc
    · simp [WatchState.polls, hpc]
    · simp [WatchState.polls, hpc, hrx]
  have hstat : DestinationWatch.next json text s.watch .stat = some s.watch.stat := by
    simp [DestinationWatch.next, hpolls]
  exact ⟨_, next_of hstat rfl, rfl⟩

/-- The steps that the pipeline takes by itself. -/
def Event.own (e : Event F) : Bool := e.inner || e.watch == some .stat

theorem inner_own (h : e.inner) : e.own := by
  simp [Event.own, h]

theorem own_quiet (h : e.own) : e.quiet := by
  rcases Bool.or_eq_true_iff.mp h with hinner | hstat
  · exact (inner_quiet hinner).1
  · rw [Event.quiet, beq_iff_eq.mp hstat]
    rfl

/-- Neither queue ever blocks the other for good: while the loop takes instructions, what has been
written at a new time can become the last destination that the source is given. -/
theorem pipeline_settles {mtime : Nat} {content : List UInt8} {df : Destination F}
    (h : start text osrm nav = some s₀) (hrun : Run (Steps (next json text src rc)) s₀ es s)
    (hopen : s.runner.nav.rx_alive = true) (hu : Unseen mtime content s.watch)
    (hjson : json content = some df) :
    ∃ es' t, Run (Guard (Steps (next json text src rc)) fun _ e => e.own) s es' t ∧ Idle t ∧
      t.runner.calls.getLast? = some (intoDestination text df) := by
  have hs := inv_run h hrun
  obtain ⟨es₁, t₁, hrun₁, ⟨ht₁, hopen₁⟩, hidle₁⟩ := comes_to_rest json text src rc hs hopen
  have hu₁ : Unseen mtime content t₁.watch :=
    hrun₁.invariant (I := fun s => Unseen mtime content s.watch) (fun _ _ _ => unseen_inner) hu
  obtain ⟨t₂, hstat, hrunner⟩ := stat_ready json text src rc ht₁ hidle₁
  have hopen₂ : t₂.runner.nav.rx_alive = true := by rw [hrunner, hopen₁]
  obtain ⟨es₃, t₃, hrun₃, ⟨ht₃, -⟩, hidle₃⟩ :=
    comes_to_rest json text src rc (inv_step ht₁ hstat) hopen₂
  have hown : Run (Guard (Steps (next json text src rc)) fun _ e => e.own) s
      (es₁ ++ .stat :: es₃) t₃ :=
    (hrun₁.mono fun _ _ _ hstep => ⟨hstep.1, inner_own hstep.2⟩).trans
      (.stepL ⟨hstat, rfl⟩ (hrun₃.mono fun _ _ _ hstep => ⟨hstep.1, inner_own hstep.2⟩))
  have hquiet := hown.mono fun _ _ _ hstep => And.intro hstep.1 (own_quiet hstep.2)
  have hlook : Event.stat ∈ es₁ ++ .stat :: es₃ := by simp
  refine ⟨_, t₃, hown, hidle₃, ?_⟩
  obtain ⟨hpc₃, hq₃, hwait₃⟩ := hidle₃
  have hrx : t₃.watch.tx.rx_alive = true := by
    by_contra hgone
    have hret := ht₃.joined.gone (by simpa using hgone)
    rw [hwait₃] at hret
    cases hret
  have hpc : t₃.watch.pc = .ticking := by
    rcases hpc₃ with hpc | hpc
    · -- the first poll has been made
      have hmem : WatchEvent.stat ∈ (es₁ ++ .stat :: es₃).filterMap Event.watch :=
        List.mem_filterMap.mpr ⟨_, hlook, rfl⟩
      have hc := (seen_run hjson hu (watch_run hquiet) hmem).carries
      rw [Carries, hpc] at hc
      exact hc.elim
    · exact hpc
  exact last_of_settled hs hu hquiet hlook hpc hrx hq₃ hjson

/-- A file that has just been written. -/
theorem pipeline_settles_first : ∃ s es t,
    Run (Guard (Steps (next latByte noText StaticDemoSource.calls ⟨true⟩)) fun _ e => e.own)
      s es t ∧ s.runner.calls = [] ∧ t.runner.calls.getLast? = some ⟨1, 0, "x"⟩ := by
  have hrun : Run (Steps (next latByte noText StaticDemoSource.calls ⟨true⟩)) demoStart
      [.write 5 [1]] _ := run_iff_foldlM.mpr rfl
  obtain ⟨es, t, hown, -, hlast⟩ := pipeline_settles demoStart_eq hrun rfl ⟨rfl, by decide⟩ rfl
  exact ⟨_, es, t, hown, rfl, hlast⟩

end Aabox.NavPipeline
