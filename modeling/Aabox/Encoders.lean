import Aabox.AudioRuns
import Aabox.Lib.Mpsc
import Aabox.Lib.Watch
import Mathlib.Logic.Function.Basic

/-!
# The outbound encoders of the media channel

START and STOP indications may be handled at the same time through the shared manager: each access
to the channel's state is a step of its own, as is each step of an encoder task. A START replaces
the running encoder in two locked accesses with a call of the source factory in between.
-/
namespace Aabox.Encoders
open Aabox.Lib Aabox.Messages Aabox.Audio

/-- Where an encoder stands: installed and still to be spawned, before the poll of its stop signal,
between that poll and the poll of its source, awaiting the queue, or returned. -/
inductive Pc
  | installed | selecting | polled
  | sending (out : OutboundMessage)
  | exited
  deriving DecidableEq, Repr

structure Encoder where
  stop : Watch Bool
  pc : Pc
  deriving DecidableEq, Repr

/-- `making` counts the START calls that await the source factory, and `sent` lists the encoders
whose frames entered the queue. -/
structure State where
  session : Int
  started : Bool
  stop_tx : Option Nat
  making : Nat
  made : Nat
  encoders : Nat → Option Encoder
  out : Mpsc OutboundMessage
  sent : List Nat

def init (capacity : Nat) : State :=
  { session := 0, started := false, stop_tx := none, making := 0, made := 0
    encoders := fun _ => none, out := .new capacity, sent := [] }

/-- The stop value was sent, or the stop sender dropped. -/
def Encoder.Told (e : Encoder) : Prop := e.stop.value = true ∨ e.stop.tx_alive = false

def Encoder.setPc (e : Encoder) (pc : Pc) : Encoder := { e with pc }

/-- A task that returns drops its receiver. -/
def Encoder.exit (e : Encoder) : Encoder := { stop := e.stop.dropRx, pc := .exited }

def State.set (s : State) (i : Nat) (e : Encoder) : State :=
  { s with encoders := Function.update s.encoders i (some e) }

/-- What is done to the encoder of the installed sender, if there is one. -/
def State.onInstalled (s : State) (f : Watch Bool → Watch Bool) : State :=
  match s.stop_tx with
  | none => s
  | some i =>
    match s.encoders i with
    | none => s
    | some e => s.set i { e with stop := f e.stop }

/-- `stop_tx.take()`, with the stop value sent before the sender is dropped. -/
def State.takeStop (s : State) : State :=
  { s.onInstalled (fun w => (w.send true).dropTx) with stop_tx := none }

inductive Event
  | start (session : Int) | install | spawn (i : Nat) | stop
  | poll (i : Nat) | next (i : Nat) (frame : AudioFrame) | wait (i : Nat) | ended (i : Nat)
  | send (i : Nat) | sendFailed (i : Nat)
  | recv | dropRx
  deriving DecidableEq, Repr

variable {s t : State} {a : Event} {i j : Nat} {e e' : Encoder} {capacity : Nat}

inductive Step : State → Event → State → Prop
  /-- The first locked access of a START. -/
  | start {s : State} {session : Int} :
    Step s (.start session) { s.takeStop with session, making := s.making + 1 }
  /-- Its second, which drops the sender that another START has installed meanwhile. -/
  | install {s : State} (h : s.making ≠ 0) :
    Step s .install
      { (s.onInstalled Watch.dropTx).set s.made ⟨.new false, .installed⟩ with
        stop_tx := some s.made, started := true, making := s.making - 1, made := s.made + 1 }
  | spawn {s : State} {i : Nat} {e : Encoder} (he : s.encoders i = some e) (hpc : e.pc = .installed) :
    Step s (.spawn i) (s.set i (e.setPc .selecting))
  | stop {s : State} : Step s .stop { s.takeStop with started := false }
  /-- The biased select polls the stop signal first. -/
  | pollSeen {s : State} {i : Nat} {e : Encoder} (he : s.encoders i = some e)
    (hpc : e.pc = .selecting) (hw : e.stop.changed = .ok) :
    Step s (.poll i) (s.set i (if e.stop.value then e.exit else { e with stop := e.stop.markSeen }))
  | pollClosed {s : State} {i : Nat} {e : Encoder} (he : s.encoders i = some e)
    (hpc : e.pc = .selecting) (hw : e.stop.changed = .closed) : Step s (.poll i) (s.set i e.exit)
  | pollPending {s : State} {i : Nat} {e : Encoder} (he : s.encoders i = some e)
    (hpc : e.pc = .selecting) (hw : e.stop.changed = .pending) :
    Step s (.poll i) (s.set i (e.setPc .polled))
  | next {s : State} {i : Nat} {e : Encoder} {frame : AudioFrame} (he : s.encoders i = some e)
    (hpc : e.pc = .polled) :
    Step s (.next i frame) (s.set i (e.setPc (.sending (encodeOutboundFrame .mediaAudio frame))))
  /-- Neither is ready; the task polls both again when it is woken. -/
  | wait {s : State} {i : Nat} {e : Encoder} (he : s.encoders i = some e) (hpc : e.pc = .polled) :
    Step s (.wait i) (s.set i (e.setPc .selecting))
  /-- The source is exhausted, or it fails. -/
  | ended {s : State} {i : Nat} {e : Encoder} (he : s.encoders i = some e) (hpc : e.pc = .polled) :
    Step s (.ended i) (s.set i e.exit)
  | send {s : State} {i : Nat} {e : Encoder} {out : OutboundMessage} {queue : Mpsc OutboundMessage}
    (he : s.encoders i = some e) (hpc : e.pc = .sending out) (hq : s.out.trySend out = some queue) :
    Step s (.send i) { s.set i (e.setPc .selecting) with out := queue, sent := s.sent ++ [i] }
  | sendFailed {s : State} {i : Nat} {e : Encoder} {out : OutboundMessage}
    (he : s.encoders i = some e) (hpc : e.pc = .sending out) (hrx : s.out.rx_alive = false) :
    Step s (.sendFailed i) (s.set i e.exit)
  | recv {s : State} {out : OutboundMessage} {queue : Mpsc OutboundMessage}
    (hq : s.out.recv = some (out, queue)) : Step s .recv { s with out := queue }
  | dropRx {s : State} : Step s .dropRx { s with out := s.out.dropRx }

/-- The task of encoder `i` has been spawned, and it has not been told to stop. -/
def Untold (s : State) (i : Nat) : Prop :=
  ∃ e, s.encoders i = some e ∧ e.pc ≠ .installed ∧ ¬ e.Told

def ToldAt (s : State) (i : Nat) : Prop := ∃ e, s.encoders i = some e ∧ e.Told

/-- An encoder's own signal: a sent value is the stop value, unseen until the task returns. -/
def Encoder.Signalled (e : Encoder) : Prop :=
  e.pc ≠ .exited → e.stop.unseen = e.stop.value

structure Inv (s : State) : Prop where
  untold : ∀ i e, s.encoders i = some e → e.Told ∨ s.stop_tx = some i
  signalled : ∀ i e, s.encoders i = some e → e.Signalled
  fresh : ∀ i, s.made ≤ i → s.encoders i = none
  present : ∀ i, s.stop_tx = some i → ∃ e, s.encoders i = some e

theorem set_encoders : (s.set i e).encoders j = if j = i then some e else s.encoders j := by
  simp [State.set, Function.update_apply]

theorem onInstalled_encoders (f : Watch Bool → Watch Bool) :
    (s.onInstalled f).encoders j =
      if s.stop_tx = some j then (s.encoders j).map fun e => { e with stop := f e.stop }
      else s.encoders j := by
  unfold State.onInstalled
  cases s.stop_tx with
  | none => simp
  | some k =>
    dsimp only
    cases he : s.encoders k with
    | none =>
      by_cases hk : k = j
      · simp [← hk, he]
      · simp [hk]
    | some e =>
      by_cases hk : k = j
      · simp [← hk, he, set_encoders]
      · simp [hk, set_encoders, Ne.symm hk]

/-- The rest of the state is not touched. -/
theorem onInstalled_frame (f : Watch Bool → Watch Bool) :
    ∃ encoders, s.onInstalled f = { s with encoders } := by
  unfold State.onInstalled
  split
  · exact ⟨s.encoders, rfl⟩
  · split
    · exact ⟨s.encoders, rfl⟩
    · exact ⟨_, rfl⟩

@[simp] theorem onInstalled_made (f : Watch Bool → Watch Bool) :
    (s.onInstalled f).made = s.made := by
  obtain ⟨encoders, h⟩ := @onInstalled_frame s f
  rw [h]

@[simp] theorem onInstalled_sent (f : Watch Bool → Watch Bool) :
    (s.onInstalled f).sent = s.sent := by
  obtain ⟨encoders, h⟩ := @onInstalled_frame s f
  rw [h]

@[simp] theorem takeStop_session : s.takeStop.session = s.session := by
  obtain ⟨encoders, h⟩ := @onInstalled_frame s fun w => (w.send true).dropTx
  rw [State.takeStop, h]

/-- An access to the installed signal that tells the encoder leaves no other untold. -/
theorem told_onInstalled {f : Watch Bool → Watch Bool} (hf : ∀ w, (f w).tx_alive = false)
    (h : Inv s) (he : (s.onInstalled f).encoders i = some e) : e.Told := by
  rw [onInstalled_encoders] at he
  split at he
  · obtain ⟨e', -, rfl⟩ := Option.map_eq_some_iff.mp he
    exact .inr (hf e'.stop)
  · rename_i htx
    rcases h.untold i e he with htold | hinst
    · exact htold
    · exact absurd hinst htx

theorem signalled_onInstalled {f : Watch Bool → Watch Bool}
    (hf : ∀ w : Watch Bool, w.unseen = w.value → (f w).unseen = (f w).value) (h : Inv s)
    (he : (s.onInstalled f).encoders i = some e) : e.Signalled := by
  rw [onInstalled_encoders] at he
  split at he
  · obtain ⟨e', he', rfl⟩ := Option.map_eq_some_iff.mp he
    exact fun hpc => hf e'.stop (h.signalled i e' he' hpc)
  · exact h.signalled i e he

theorem onInstalled_fresh (f : Watch Bool → Watch Bool) (h : Inv s) (hi : s.made ≤ i) :
    (s.onInstalled f).encoders i = none := by
  rw [onInstalled_encoders]
  split <;> simp [h.fresh i hi]

theorem send_signalled (w : Watch Bool) (h : w.unseen = w.value) :
    ((w.send true).dropTx).unseen = ((w.send true).dropTx).value := by
  unfold Watch.send
  split
  · rfl
  · exact h

theorem dropTx_signalled (w : Watch Bool) (h : w.unseen = w.value) :
    w.dropTx.unseen = w.dropTx.value := h

theorem inv_takeStop (h : Inv s) : Inv s.takeStop where
  untold _ _ he := .inl (told_onInstalled (fun _ => rfl) h he)
  signalled _ _ he := signalled_onInstalled send_signalled h he
  fresh _ hi := onInstalled_fresh _ h ((onInstalled_made _) ▸ hi)
  present _ hi := by cases hi

/-- A task's own step keeps what it has been told. -/
theorem inv_set (h : Inv s) (he : s.encoders i = some e) (htold : e.Told → e'.Told)
    (hsig : e'.Signalled) : Inv (s.set i e') where
  untold j e₁ he₁ := by
    rw [set_encoders] at he₁
    split at he₁
    · rename_i hj
      subst hj
      cases he₁
      exact (h.untold _ _ he).imp htold id
    · exact h.untold j e₁ he₁
  signalled j e₁ he₁ := by
    rw [set_encoders] at he₁
    split at he₁
    · cases he₁
      exact hsig
    · exact h.signalled j e₁ he₁
  fresh j hj := by
    rw [set_encoders]
    split
    · rename_i hji
      subst hji
      have hnone := h.fresh _ hj
      rw [he] at hnone
      cases hnone
    · exact h.fresh j hj
  present j hj := by
    obtain ⟨e₁, he₁⟩ := h.present j hj
    rw [set_encoders]
    split
    · exact ⟨e', rfl⟩
    · exact ⟨e₁, he₁⟩

theorem inv_setPc (h : Inv s) (he : s.encoders i = some e) (hpc : e.pc ≠ .exited) (pc : Pc) :
    Inv (s.set i (e.setPc pc)) := inv_set h he id fun _ => h.signalled i e he hpc

theorem exit_signalled (e : Encoder) : e.exit.Signalled := fun hpc => absurd rfl hpc

theorem inv_install (h : Inv s) :
    Inv { (s.onInstalled Watch.dropTx).set s.made ⟨.new false, .installed⟩ with
      stop_tx := some s.made, started := true, making := s.making - 1, made := s.made + 1 } where
  untold i e he := by
    rw [set_encoders] at he
    split at he
    · rename_i hi
      exact .inr (by rw [hi])
    · exact .inl (told_onInstalled (fun w => rfl) h he)
  signalled i e he := by
    rw [set_encoders] at he
    split at he
    · cases he
      exact fun _ => rfl
    · exact signalled_onInstalled dropTx_signalled h he
  fresh i hi := by
    rw [set_encoders, if_neg (Nat.ne_of_gt hi)]
    exact onInstalled_fresh _ h (Nat.le_of_succ_le hi)
  present i hi := by
    obtain rfl : s.made = i := Option.some.inj hi
    exact ⟨⟨.new false, .installed⟩, by simp [set_encoders]⟩

theorem inv_step (h : Inv s) (hs : Step s a t) : Inv t := by
  cases hs with
  | start =>
    have htake := inv_takeStop h
    exact ⟨htake.untold, htake.signalled, htake.fresh, htake.present⟩
  | install hm => exact inv_install h
  | spawn he hpc => exact inv_setPc h he (by simp [hpc]) _
  | stop =>
    have htake := inv_takeStop h
    exact ⟨htake.untold, htake.signalled, htake.fresh, htake.present⟩
  | pollSeen he hpc hw =>
    rename_i i e
    split
    · exact inv_set h he id (exit_signalled e)
    · rename_i hvalue
      refine inv_set h he id ?_
      -- The value was unseen, so it is the stop value.
      have hsig := h.signalled _ _ he (by simp [hpc])
      have hunseen : e.stop.unseen = true := by
        by_contra hno
        simp [Watch.changed, hno] at hw
        split at hw <;> cases hw
      rw [hunseen] at hsig
      exact absurd hsig.symm hvalue
  | pollClosed he hpc hw => exact inv_set h he id (exit_signalled _)
  | pollPending he hpc hw => exact inv_setPc h he (by simp [hpc]) _
  | next he hpc => exact inv_setPc h he (by simp [hpc]) _
  | wait he hpc => exact inv_setPc h he (by simp [hpc]) _
  | ended he hpc => exact inv_set h he id (exit_signalled _)
  | send he hpc hq =>
    have hset := inv_setPc h he (by simp [hpc]) .selecting
    exact ⟨hset.untold, hset.signalled, hset.fresh, hset.present⟩
  | sendFailed he hpc hrx => exact inv_set h he id (exit_signalled _)
  | recv hq => exact ⟨h.untold, h.signalled, h.fresh, h.present⟩
  | dropRx => exact ⟨h.untold, h.signalled, h.fresh, h.present⟩

theorem inv_init : Inv (init capacity) where
  untold i e he := by cases he
  signalled i e he := by cases he
  fresh i _ := rfl
  present i h := by cases h

theorem inv_reachable (h : Reachable Step (init capacity) s) : Inv s := by
  obtain ⟨xs, hrun⟩ := h
  exact hrun.invariant (fun _ _ _ => inv_step) inv_init

/-- The frame that an encoder may still enqueue after it has been told to stop. -/
def Encoder.late (e : Encoder) : Nat :=
  match e.pc with
  | .polled | .sending _ => 1
  | _ => 0

/-- The frames that encoder `i` has enqueued, and the one it may still enqueue. -/
def Bounded (s : State) (i n : Nat) : Prop :=
  ∃ e, s.encoders i = some e ∧ e.Told ∧ s.sent.count i + e.late ≤ n

theorem bounded_onInstalled {f : Watch Bool → Watch Bool} {n : Nat}
    (hf : ∀ w, (f w).tx_alive = false) (h : Bounded s i n) : Bounded (s.onInstalled f) i n := by
  obtain ⟨e, he, htold, hle⟩ := h
  by_cases htx : s.stop_tx = some i
  · refine ⟨{ e with stop := f e.stop }, ?_, .inr (hf e.stop), ?_⟩
    · rw [onInstalled_encoders, if_pos htx, he]
      rfl
    · rw [onInstalled_sent]
      exact hle
  · refine ⟨e, ?_, htold, ?_⟩
    · rw [onInstalled_encoders, if_neg htx, he]
    · rw [onInstalled_sent]
      exact hle

/-- A task's step bounds its own frames, and leaves those of the others. -/
theorem bounded_set {n : Nat} (h : Bounded s i n) (he : s.encoders j = some e)
    (htold : e.Told → e'.Told) (hlate : e.Told → e'.late ≤ e.late) : Bounded (s.set j e') i n := by
  obtain ⟨e₁, he₁, htold₁, hle⟩ := h
  by_cases hij : i = j
  · subst hij
    obtain rfl := Option.some.inj (he₁.symm.trans he)
    refine ⟨e', by simp [set_encoders], htold htold₁, ?_⟩
    have := hlate htold₁
    simp only [State.set]
    omega
  · exact ⟨e₁, by simp [set_encoders, hij, he₁], htold₁, hle⟩

theorem bounded_step {n : Nat} (hi : Inv s) (h : Bounded s i n) (hs : Step s a t) :
    Bounded t i n := by
  cases hs with
  | start => exact bounded_onInstalled (fun w => rfl) h
  | install hm =>
    have hdrop : ∀ w : Watch Bool, w.dropTx.tx_alive = false := fun _ => rfl
    obtain ⟨e, he, htold, hle⟩ := bounded_onInstalled hdrop h
    refine ⟨e, ?_, htold, hle⟩
    rw [set_encoders, if_neg, he]
    rintro rfl
    rw [onInstalled_fresh _ hi (Nat.le_refl _)] at he
    cases he
  | spawn he hpc => exact bounded_set h he id fun _ => by simp [Encoder.late, Encoder.setPc]
  | stop => exact bounded_onInstalled (fun w => rfl) h
  | pollSeen he hpc hw =>
    refine bounded_set h he ?_ fun _ => ?_
    · split <;> exact id
    · split <;> simp [Encoder.late, Encoder.exit, hpc]
  | pollClosed he hpc hw => exact bounded_set h he id fun _ => by simp [Encoder.late, Encoder.exit]
  | pollPending he hpc hw =>
    -- A told encoder finds its signal ready.
    refine bounded_set h he id fun htold => ?_
    have hsig := hi.signalled _ _ he (by simp [hpc])
    obtain ⟨hunseen, halive⟩ := Watch.changed_pending.mp hw
    rcases htold with hvalue | hdead
    · rw [hunseen, hvalue] at hsig
      cases hsig
    · rw [halive] at hdead
      cases hdead
  | next he hpc => exact bounded_set h he id fun _ => by simp [Encoder.late, Encoder.setPc, hpc]
  | wait he hpc => exact bounded_set h he id fun _ => by simp [Encoder.late, Encoder.setPc]
  | ended he hpc => exact bounded_set h he id fun _ => by simp [Encoder.late, Encoder.exit]
  | send he hpc hq =>
    rename_i j e out queue
    obtain ⟨e₁, he₁, htold₁, hle⟩ := h
    by_cases hij : i = j
    · subst hij
      obtain rfl := Option.some.inj (he₁.symm.trans he)
      refine ⟨e₁.setPc .selecting, by simp [set_encoders], htold₁, ?_⟩
      simp only [Encoder.late, hpc] at hle
      simpa [Encoder.late, Encoder.setPc, List.count_append] using hle
    · refine ⟨e₁, by simp [set_encoders, hij, he₁], htold₁, ?_⟩
      simpa [List.count_append, Ne.symm hij] using hle
  | sendFailed he hpc hrx => exact bounded_set h he id fun _ => by simp [Encoder.late, Encoder.exit]
  | recv hq => exact h
  | dropRx => exact h

theorem bounded_run {n : Nat} {xs : List Event} (hrun : Run Step s xs t) (hi : Inv s)
    (h : Bounded s i n) : Bounded t i n :=
  (hrun.invariant (I := fun s => Inv s ∧ Bounded s i n)
    (fun _ _ _ hs hstep => ⟨inv_step hs.1 hstep, bounded_step hs.1 hs.2 hstep⟩) ⟨hi, h⟩).2

/-- At most one spawned encoder has not been told to stop, and one that has been enqueues at most
one further frame. -/
theorem encoders_stop (h : Reachable Step (init capacity) s) :
    (∀ i j, Untold s i → Untold s j → i = j) ∧
      ∀ i, ToldAt s i → ∀ xs t, Run Step s xs t → t.sent.count i ≤ s.sent.count i + 1 := by
  have hinv : Inv s := inv_reachable h
  constructor
  · rintro i j ⟨e, he, -, hnot⟩ ⟨e', he', -, hnot'⟩
    have hi : s.stop_tx = some i := (hinv.untold i e he).resolve_left hnot
    have hj : s.stop_tx = some j := (hinv.untold j e' he').resolve_left hnot'
    exact Option.some.inj (hi.symm.trans hj)
  · rintro i ⟨e, he, htold⟩ xs t hrun
    have hlate : e.late ≤ 1 := by
      unfold Encoder.late
      split <;> omega
    obtain ⟨e', -, -, hle⟩ : Bounded t i (s.sent.count i + 1) :=
      bounded_run hrun hinv ⟨e, he, htold, Nat.add_le_add_left hlate _⟩
    omega

/-- Two STARTs whose accesses overlap: the second installs over the first, whose encoder runs. -/
theorem encoders_stop_overlap :
    ∃ s, Run Step (init 64) [.start 1, .start 2, .install, .spawn 0, .install, .spawn 1] s ∧
      Untold s 1 ∧ ToldAt s 0 ∧ (∀ i j, Untold s i → Untold s j → i = j) ∧
      ∀ i, ToldAt s i → ∀ xs t, Run Step s xs t → t.sent.count i ≤ s.sent.count i + 1 := by
  have hrun : Run Step (init 64) [.start 1, .start 2, .install, .spawn 0, .install, .spawn 1] _ :=
    .stepL .start (.stepL .start (.stepL (.install (by decide)) (.stepL (.spawn rfl rfl)
      (.stepL (.install (by decide)) (.stepL (.spawn rfl rfl) .refl)))))
  obtain ⟨hone, hlate⟩ := encoders_stop ⟨_, hrun⟩
  refine ⟨_, hrun, ⟨_, rfl, ?_, ?_⟩, ⟨_, rfl, .inr rfl⟩, hone, hlate⟩
  · intro h
    cases h
  · rintro (h | h) <;> cases h

/-! ### Calls that do not overlap -/

/-- The manager's state of the media channel, between calls. -/
structure Shows (s : State) (m : AudioChannelManager) (st : AudioChannelState) : Prop where
  direction : st.direction = .output
  stop_tx : st.stop_tx = s.stop_tx
  started : st.started = s.started
  session : st.session = s.session
  made : m.encoders = s.made
  told : ∀ i ∈ m.told, ToldAt s i

theorem told_run {xs : List Event} (hi : Inv s) (hrun : Run Step s xs t) (h : ToldAt s i) :
    ToldAt t i := by
  obtain ⟨e, he, htold⟩ := h
  obtain ⟨e', he', htold', -⟩ := bounded_run hrun hi ⟨e, he, htold, Nat.le_refl _⟩
  exact ⟨e', he', htold'⟩

/-- The encoder whose sender is taken is told. -/
theorem told_takeStop (hi : Inv s) (h : s.stop_tx = some i) : ToldAt s.takeStop i := by
  obtain ⟨e, he⟩ := hi.present i h
  have hget : s.takeStop.encoders i = some { e with stop := (e.stop.send true).dropTx } := by
    refine (onInstalled_encoders _).trans ?_
    rw [if_pos h, he]
    rfl
  exact ⟨_, hget, .inr rfl⟩

variable {prost : Prost} {m : AudioChannelManager} {st : AudioChannelState} {body : Bytes}
  {req : AvChannelStartIndication}

/-- A START that nothing overlaps does what the manager's handler does. -/
theorem start_shows (h : Shows s m st) (hi : Inv s)
    (hreq : prost.avChannelStartIndication body = some req) :
    ∃ t st', Run Step s [.start req.session, .install, .spawn s.made] t ∧
      (onStartIndication prost m .mediaAudio st body).2.channels ChannelId.mediaAudio.toU8 =
        some st' ∧
      Shows t (onStartIndication prost m .mediaAudio st body).2 st' := by
  let new : Encoder := ⟨.new false, .installed⟩
  let s₁ : State := { s.takeStop with session := req.session, making := s.making + 1 }
  let s₂ : State := { s₁.set s₁.made new with
    stop_tx := some s₁.made, started := true, making := s.making, made := s₁.made + 1 }
  have hmade : s₁.made = s.made := onInstalled_made _
  have hstart : Step s (.start req.session) s₁ := .start
  have hinstall : Step s₁ .install s₂ := .install (Nat.succ_ne_zero _)
  have hspawn : Step s₂ (.spawn s.made) (s₂.set s.made (new.setPc .selecting)) :=
    .spawn (by simp [s₂, set_encoders, hmade]) rfl
  have hrun : Run Step s [.start req.session, .install, .spawn s.made] _ :=
    .stepL hstart (.stepL hinstall (.stepL hspawn .refl))
  have hst : onStartIndication prost m .mediaAudio st body =
      (.ok [], { m.set ChannelId.mediaAudio.toU8
        { st with session := req.session, stop_tx := some m.encoders, started := true } with
          encoders := m.encoders + 1, told := m.told ++ st.stop_tx.toList }) := by
    simp [onStartIndication, hreq, h.direction]
  refine ⟨_, { st with session := req.session, stop_tx := some m.encoders, started := true }, hrun,
    by simp [hst, AudioChannelManager.set], ?_⟩
  rw [hst]
  refine ⟨h.direction, ?_, rfl, rfl, ?_, ?_⟩
  · exact congrArg some (h.made.trans hmade.symm)
  · exact congrArg Nat.succ (h.made.trans hmade.symm)
  · intro i hmem
    rcases List.mem_append.mp hmem with hold | hprev
    · exact told_run hi hrun (h.told i hold)
    · rw [h.stop_tx] at hprev
      obtain ⟨e, he, htold⟩ := told_takeStop hi (Option.mem_toList.mp hprev)
      have htold₁ : ToldAt s₁ i := ⟨e, he, htold⟩
      exact told_run (inv_step hi hstart) (.stepL hinstall (.stepL hspawn .refl)) htold₁

theorem stop_shows (h : Shows s m st) (hi : Inv s) :
    ∃ t st', Run Step s [.stop] t ∧
      (onStopIndication m .mediaAudio st).2.channels ChannelId.mediaAudio.toU8 = some st' ∧
      Shows t (onStopIndication m .mediaAudio st).2 st' := by
  have hrun : Run Step s [.stop] { s.takeStop with started := false } := .stepL .stop .refl
  refine ⟨_, { st with started := false, stop_tx := none }, hrun,
    by simp [onStopIndication, AudioChannelManager.set], ?_⟩
  refine ⟨h.direction, rfl, rfl, ?_, ?_, ?_⟩
  · exact h.session.trans takeStop_session.symm
  · exact h.made.trans (onInstalled_made _).symm
  · intro i hmem
    rcases List.mem_append.mp hmem with hold | hprev
    · exact told_run hi hrun (h.told i hold)
    · rw [h.stop_tx] at hprev
      obtain ⟨e, he, htold⟩ := told_takeStop hi (Option.mem_toList.mp hprev)
      exact ⟨e, he, htold⟩

end Aabox.Encoders
