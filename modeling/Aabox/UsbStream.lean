import Aabox.Lib.Run

/-!
# The accessory stream

`poll_read` and `poll_write` share one `IoState`. An operation runs on a blocking
worker; dropping a pending future abandons the call and leaves the state as it is,
so the next call may be of either kind and may bring another buffer.
-/
namespace Aabox.UsbStream
open Aabox.Lib

abbrev Bytes := List UInt8

inductive IoError
  | join (task : String)
  | os (errno : Nat)
  deriving DecidableEq, Repr

/-- What a finished worker leaves in its `JoinHandle`. -/
inductive Joined (α : Type)
  | joinErr
  | err (errno : Nat)
  | ok (value : α)
  deriving DecidableEq, Repr

/-- The in-flight operation with what its closure captured, and its worker: `none` while it runs. -/
inductive IoState
  | idle
  | reading (cap : Nat) (worker : Option (Joined Bytes))
  | writing (buf : Bytes) (worker : Option (Joined Nat))
  deriving DecidableEq, Repr

/-- `panicked` is `put_slice` of more bytes than the caller's buffer has room for. -/
inductive Poll (α : Type)
  | pending
  | ready (value : α)
  | failed (e : IoError)
  | panicked
  deriving DecidableEq, Repr

/-- The `Reading` arm. A finished worker makes the stream idle before its bytes are delivered. -/
def pollReading (remaining cap : Nat) : Option (Joined Bytes) → Poll Bytes × IoState
  | none => (.pending, .reading cap none)
  | some .joinErr => (.failed (.join "read blocking task"), .idle)
  | some (.err errno) => (.failed (.os errno), .idle)
  | some (.ok data) => (if data.length ≤ remaining then .ready data else .panicked, .idle)

/-- `spawned` is what a worker started by this very call has to show when its handle is first
polled. -/
def pollRead (s : IoState) (remaining : Nat) (spawned : Option (Joined Bytes)) :
    Poll Bytes × IoState :=
  match s with
  | .idle => if remaining = 0 then (.ready [], .idle) else pollReading remaining remaining spawned
  | .reading cap worker => pollReading remaining cap worker
  | .writing buf worker => (.pending, .writing buf worker)

def pollWriting (buf : Bytes) : Option (Joined Nat) → Poll Nat × IoState
  | none => (.pending, .writing buf none)
  | some .joinErr => (.failed (.join "write blocking task"), .idle)
  | some (.err errno) => (.failed (.os errno), .idle)
  | some (.ok n) => (.ready n, .idle)

def pollWrite (s : IoState) (src : Bytes) (spawned : Option (Joined Nat)) : Poll Nat × IoState :=
  match s with
  | .idle => pollWriting src spawned
  | .writing buf worker => pollWriting buf worker
  | .reading cap worker => (.pending, .reading cap worker)

/-- `read(2)` returns at most the bytes it was given room for. -/
def Joined.fitsRead (cap : Nat) : Joined Bytes → Bool
  | .ok data => data.length ≤ cap
  | _ => true

/-- `write(2)` reports at most the bytes it was given. -/
def Joined.fitsWrite (buf : Bytes) : Joined Nat → Bool
  | .ok n => n ≤ buf.length
  | _ => true

inductive Event
  | pollRead (remaining : Nat) (spawned : Option (Joined Bytes))
  | pollWrite (src : Bytes) (spawned : Option (Joined Nat))
  | readDone (result : Joined Bytes)
  | writeDone (result : Joined Nat)
  deriving DecidableEq, Repr

/-- One poll by the owning task, or the end of the worker's syscall. -/
def next : IoState → Event → Option IoState
  | s, .pollRead remaining spawned =>
    if spawned.all (·.fitsRead remaining) then some (pollRead s remaining spawned).2 else none
  | s, .pollWrite src spawned =>
    if spawned.all (·.fitsWrite src) then some (pollWrite s src spawned).2 else none
  | .reading cap none, .readDone r => if r.fitsRead cap then some (.reading cap (some r)) else none
  | .writing buf none, .writeDone r => if r.fitsWrite buf then some (.writing buf (some r)) else none
  | _, _ => none

/-- The operation in flight has ended and waits to be collected. -/
def IoState.finished : IoState → Bool
  | .idle => false
  | .reading _ worker => worker.isSome
  | .writing _ worker => worker.isSome

/-- The poll returns `Pending` and leaves the stream as it found it. -/
def Stuck (s : IoState) : Event → Prop
  | .pollRead remaining spawned => pollRead s remaining spawned = (.pending, s)
  | .pollWrite src spawned => pollWrite s src spawned = (.pending, s)
  | _ => False

instance (s : IoState) (e : Event) : Decidable (Stuck s e) := by
  cases e <;> unfold Stuck <;> infer_instance

/-- Once the outstanding operation has completed, a poll moves the stream on. -/
def Progresses (s : IoState) (e : Event) : Prop := s.finished → ¬ Stuck s e

/-- No poll of one kind while the finished worker of the other kind is still uncollected. -/
def Matched : IoState → Event → Prop
  | .writing _ (some _), .pollRead _ _ => False
  | .reading _ (some _), .pollWrite _ _ => False
  | _, _ => True

theorem stuck_pollRead_iff {s : IoState} {remaining : Nat} {spawned : Option (Joined Bytes)}
    (hs : s.finished) :
    Stuck s (.pollRead remaining spawned) ↔ ∃ buf worker, s = .writing buf worker := by
  cases s with
  | idle => simp [IoState.finished] at hs
  | reading cap worker =>
    obtain ⟨r, rfl⟩ := Option.isSome_iff_exists.mp hs
    cases r <;> simp [Stuck, pollRead, pollReading]
  | writing buf worker => simp [Stuck, pollRead]

theorem stuck_pollWrite_iff {s : IoState} {src : Bytes} {spawned : Option (Joined Nat)}
    (hs : s.finished) :
    Stuck s (.pollWrite src spawned) ↔ ∃ cap worker, s = .reading cap worker := by
  cases s with
  | idle => simp [IoState.finished] at hs
  | reading cap worker => simp [Stuck, pollWrite]
  | writing buf worker =>
    obtain ⟨r, rfl⟩ := Option.isSome_iff_exists.mp hs
    cases r <;> simp [Stuck, pollWrite, pollWriting]

/-- A finished operation is stuck exactly under polls of the other kind. -/
theorem progresses_iff (s : IoState) (e : Event) : Progresses s e ↔ Matched s e := by
  by_cases hs : s.finished
  · cases e with
    | pollRead remaining spawned =>
      rw [Progresses, stuck_pollRead_iff hs]
      cases s with
      | idle => simp [IoState.finished] at hs
      | reading cap worker => simp [Matched]
      | writing buf worker =>
        obtain ⟨r, rfl⟩ := Option.isSome_iff_exists.mp hs
        simp [Matched, IoState.finished]
    | pollWrite src spawned =>
      rw [Progresses, stuck_pollWrite_iff hs]
      cases s with
      | idle => simp [IoState.finished] at hs
      | reading cap worker =>
        obtain ⟨r, rfl⟩ := Option.isSome_iff_exists.mp hs
        simp [Matched, IoState.finished]
      | writing buf worker => simp [Matched]
    | readDone r => simp [Progresses, Stuck, Matched]
    | writeDone r => simp [Progresses, Stuck, Matched]
  · have hp : Progresses s e := fun h => (hs h).elim
    refine iff_of_true hp ?_
    cases s with
    | idle => cases e <;> trivial
    | reading cap worker | writing buf worker =>
      obtain rfl : worker = none := by simpa [IoState.finished] using hs
      cases e <;> trivial

/-- Every poll of a run makes progress exactly when none crosses a finished operation. -/
theorem progressing_run_iff (xs : List Event) (t : IoState) :
    Run (Guard (Steps next) Progresses) .idle xs t ↔
      Run (Guard (Steps next) Matched) .idle xs t :=
  Run.guard_congr fun s e _ _ => progresses_iff s e

/-- The loop abandons a read, the read ends, and the write it then polls finds no way on. -/
theorem abandoned_read_wedges_write :
    ¬ ∀ xs s e, Run (Steps next) .idle xs s → Progresses s e := by
  intro h
  have hr : Run (Steps next) .idle [.pollRead 4096 none, .readDone (.ok [0, 3, 0, 2])]
      (.reading 4096 (some (.ok [0, 3, 0, 2]))) := run_iff_foldlM.mpr (by decide)
  exact h _ _ (.pollWrite [0, 11, 0, 2] none) hr (by decide) (by decide)

/-- A writer that keeps polling across a finished read never moves the stream. -/
theorem crossed_writes_stay {cap : Nat} {r : Joined Bytes} {xs : List Event} {t : IoState}
    (hx : ∀ e ∈ xs, ∃ src spawned, e = .pollWrite src spawned)
    (h : Run (Steps next) (.reading cap (some r)) xs t) : t = .reading cap (some r) := by
  generalize hs : IoState.reading cap (some r) = s at h
  induction h with
  | refl => rfl
  | stepL ha _ ih =>
    obtain ⟨src, spawned, rfl⟩ := hx _ (List.mem_cons_self ..)
    subst hs
    have hu : next (.reading cap (some r)) (.pollWrite src spawned) = some _ := ha
    simp only [next, pollWrite] at hu
    split at hu
    · have hs := Option.some.inj hu
      exact (ih (fun e he => hx e (List.mem_cons_of_mem _ he)) hs).trans hs.symm
    · cases hu

end Aabox.UsbStream
