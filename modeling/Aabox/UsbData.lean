import Aabox.UsbStream

/-!
# The bytes of the accessory stream

The stream with four logs: what the device returned, what `poll_read` handed out, what the device
took, and what `poll_write` acknowledged to its callers.
-/
namespace Aabox.UsbData
open Aabox.Lib (Run Guard Steps)
open Aabox.UsbStream

structure StreamLog where
  io : IoState
  returned : Bytes
  delivered : Bytes
  written : Bytes
  acked : Bytes
  deriving DecidableEq, Repr

def init : StreamLog := ⟨.idle, [], [], [], []⟩

/-- The bytes that the device returns in an event. -/
def deviceRead : IoState → Event → Bytes
  | .idle, .pollRead remaining (some (.ok data)) => if remaining = 0 then [] else data
  | .reading _ none, .readDone (.ok data) => data
  | _, _ => []

def handedOut (s : IoState) : Event → Bytes
  | .pollRead remaining spawned =>
    match (pollRead s remaining spawned).1 with
    | .ready data => data
    | _ => []
  | _ => []

/-- The bytes that the device takes in an event: the first of those the worker was given. -/
def deviceWrote : IoState → Event → Bytes
  | .idle, .pollWrite src (some (.ok n)) => src.take n
  | .writing buf none, .writeDone (.ok n) => buf.take n
  | _, _ => []

/-- `Ready(Ok(n))` tells the caller that the first `n` bytes of its own buffer are written. -/
def acknowledged (s : IoState) : Event → Bytes
  | .pollWrite src spawned =>
    match (pollWrite s src spawned).1 with
    | .ready n => src.take n
    | _ => []
  | _ => []

def nextLog (s : StreamLog) (e : Event) : Option StreamLog :=
  (next s.io e).map fun io => {
    io
    returned := s.returned ++ deviceRead s.io e
    delivered := s.delivered ++ handedOut s.io e
    written := s.written ++ deviceWrote s.io e
    acked := s.acked ++ acknowledged s.io e }

/-- Read by a worker that has ended and not yet handed out. -/
def unread : IoState → Bytes
  | .reading _ (some (.ok data)) => data
  | _ => []

/-- Written by a worker that has ended and not yet acknowledged. -/
def unacked : IoState → Bytes
  | .writing buf (some (.ok n)) => buf.take n
  | _ => []

/-- Every byte is delivered or waits in the stream, in the order of the device. -/
structure Kept (s : StreamLog) : Prop where
  read : s.delivered ++ unread s.io = s.returned
  write : s.acked ++ unacked s.io = s.written

/-- A poll appends no more than there is room for, and acknowledges what was written of `src`. -/
def Preserves (s : IoState) : Event → Prop
  | .pollRead remaining spawned =>
    (pollRead s remaining spawned).1 ≠ .panicked ∧
      ∀ data, (pollRead s remaining spawned).1 = .ready data → data.length ≤ remaining
  | .pollWrite src spawned =>
    ∀ n, (pollWrite s src spawned).1 = .ready n →
      n ≤ src.length ∧ src.take n = unacked s ++ deviceWrote s (.pollWrite src spawned)
  | _ => True

/-- Where an ended worker waits, a reader has room for what it read, and what it wrote is how the
writer's buffer begins. -/
def Fits : IoState → Event → Prop
  | .reading _ (some (.ok data)), .pollRead remaining _ => data.length ≤ remaining
  | .writing buf (some (.ok n)), .pollWrite src _ => buf.take n <+: src
  | _, _ => True

/-- No worker has written more than it was given. -/
def Wrote (s : IoState) : Prop := ∀ buf n, s = .writing buf (some (.ok n)) → n ≤ buf.length

variable {s t : IoState} {e : Event} {a b : StreamLog}

theorem next_pollRead {remaining : Nat} {spawned : Option (Joined Bytes)}
    (h : next s (.pollRead remaining spawned) = some t) :
    spawned.all (·.fitsRead remaining) = true ∧ t = (pollRead s remaining spawned).2 := by
  simp only [next, Option.ite_none_right_eq_some, Option.some.injEq] at h
  exact ⟨h.1, h.2.symm⟩

theorem next_pollWrite {src : Bytes} {spawned : Option (Joined Nat)}
    (h : next s (.pollWrite src spawned) = some t) :
    spawned.all (·.fitsWrite src) = true ∧ t = (pollWrite s src spawned).2 := by
  simp only [next, Option.ite_none_right_eq_some, Option.some.injEq] at h
  exact ⟨h.1, h.2.symm⟩

theorem next_readDone {r : Joined Bytes} (h : next s (.readDone r) = some t) :
    ∃ cap, s = .reading cap none ∧ t = .reading cap (some r) := by
  rcases s with _ | ⟨cap, _ | _⟩ | _ <;>
    simp only [next, Option.ite_none_right_eq_some, Option.some.injEq, reduceCtorEq] at h
  exact ⟨cap, rfl, h.2.symm⟩

theorem next_writeDone {r : Joined Nat} (h : next s (.writeDone r) = some t) :
    ∃ buf, s = .writing buf none ∧ r.fitsWrite buf = true ∧ t = .writing buf (some r) := by
  rcases s with _ | _ | ⟨buf, _ | _⟩ <;>
    simp only [next, Option.ite_none_right_eq_some, Option.some.injEq, reduceCtorEq] at h
  exact ⟨buf, rfl, h.1, h.2.symm⟩

/-- A poll leaves an ended write as it found it, or collects it; it brings none about. -/
theorem pollRead_writing {remaining : Nat} {spawned : Option (Joined Bytes)} {buf : Bytes}
    {r : Joined Nat} (h : (pollRead s remaining spawned).2 = .writing buf (some r)) :
    s = .writing buf (some r) := by
  rcases s with _ | ⟨cap, _ | _ | _ | data⟩ | ⟨buf', worker⟩
  · by_cases hz : remaining = 0
    · simp [pollRead, hz] at h
    · rcases spawned with _ | _ | _ | data <;> simp [pollRead, pollReading, hz] at h
  · simp [pollRead, pollReading] at h
  · simp [pollRead, pollReading] at h
  · simp [pollRead, pollReading] at h
  · simp [pollRead, pollReading] at h
  · exact h

theorem pollWrite_writing {src : Bytes} {spawned : Option (Joined Nat)} {buf : Bytes}
    {r : Joined Nat} (h : (pollWrite s src spawned).2 = .writing buf (some r)) : False := by
  rcases s with _ | ⟨cap, worker⟩ | ⟨buf', _ | _ | _ | n⟩
  · rcases spawned with _ | _ | _ | n <;> simp [pollWrite, pollWriting] at h
  all_goals simp [pollWrite, pollWriting] at h

theorem wrote_step (h : Wrote s) (hstep : next s e = some t) : Wrote t := by
  cases e with
  | pollRead remaining spawned =>
    obtain ⟨-, rfl⟩ := next_pollRead hstep
    intro buf n hs
    exact h buf n (pollRead_writing hs)
  | pollWrite src spawned =>
    obtain ⟨-, rfl⟩ := next_pollWrite hstep
    intro buf n hs
    exact (pollWrite_writing hs).elim
  | readDone r =>
    obtain ⟨cap, rfl, rfl⟩ := next_readDone hstep
    intro buf n hs
    cases hs
  | writeDone r =>
    obtain ⟨buf, rfl, hfits, rfl⟩ := next_writeDone hstep
    intro buf' n hs
    cases hs
    simpa [Joined.fitsWrite] using hfits

theorem preserves_read_iff {remaining : Nat} {spawned : Option (Joined Bytes)}
    (hstep : next s (.pollRead remaining spawned) = some t) :
    Preserves s (.pollRead remaining spawned) ↔ Fits s (.pollRead remaining spawned) := by
  obtain ⟨hfits, -⟩ := next_pollRead hstep
  rcases s with _ | ⟨cap, _ | _ | _ | data⟩ | ⟨buf, worker⟩
  · by_cases hz : remaining = 0
    · simp [Preserves, Fits, pollRead, hz]
    · rcases spawned with _ | _ | _ | data <;>
        simp_all [Preserves, Fits, pollRead, pollReading, Joined.fitsRead]
  · simp [Preserves, Fits, pollRead, pollReading]
  · simp [Preserves, Fits, pollRead, pollReading]
  · simp [Preserves, Fits, pollRead, pollReading]
  · by_cases hroom : data.length ≤ remaining <;>
      simp [Preserves, Fits, pollRead, pollReading, hroom]
  · simp [Preserves, Fits, pollRead]

theorem preserves_write_iff {src : Bytes} {spawned : Option (Joined Nat)} (h : Wrote s)
    (hstep : next s (.pollWrite src spawned) = some t) :
    Preserves s (.pollWrite src spawned) ↔ Fits s (.pollWrite src spawned) := by
  obtain ⟨hfits, -⟩ := next_pollWrite hstep
  rcases s with _ | ⟨cap, worker⟩ | ⟨buf, _ | _ | _ | n⟩
  · rcases spawned with _ | _ | _ | n <;>
      simp_all [Preserves, Fits, pollWrite, pollWriting, Joined.fitsWrite, unacked, deviceWrote]
  · simp [Preserves, Fits, pollWrite]
  · simp [Preserves, Fits, pollWrite, pollWriting]
  · simp [Preserves, Fits, pollWrite, pollWriting]
  · simp [Preserves, Fits, pollWrite, pollWriting]
  · have hn : n ≤ buf.length := h buf n rfl
    simp only [Preserves, Fits, pollWrite, pollWriting, unacked, deviceWrote, List.append_nil,
      Poll.ready.injEq, forall_eq']
    rw [List.prefix_iff_eq_take, List.length_take, Nat.min_eq_left hn]
    constructor
    · intro hsrc
      exact hsrc.2.symm
    · intro hsrc
      have hlen := congrArg List.length hsrc
      simp only [List.length_take] at hlen
      exact ⟨by omega, hsrc.symm⟩

theorem preserves_iff (h : Wrote s) (hstep : next s e = some t) : Preserves s e ↔ Fits s e := by
  cases e with
  | pollRead remaining spawned => exact preserves_read_iff hstep
  | pollWrite src spawned => exact preserves_write_iff h hstep
  | readDone r => simp [Preserves, Fits]
  | writeDone r => simp [Preserves, Fits]

/-- What was in and what came in is what went out and what is in. -/
theorem read_balance (hp : Preserves s e) (hstep : next s e = some t) :
    unread s ++ deviceRead s e = handedOut s e ++ unread t := by
  cases e with
  | pollRead remaining spawned =>
    obtain ⟨hfits, rfl⟩ := next_pollRead hstep
    rcases s with _ | ⟨cap, _ | _ | _ | data⟩ | ⟨buf, worker⟩
    · by_cases hz : remaining = 0
      · rcases spawned with _ | _ | _ | data <;>
          simp [unread, deviceRead, handedOut, pollRead, hz]
      · rcases spawned with _ | _ | _ | data <;>
          simp_all [Joined.fitsRead, deviceRead, handedOut, unread, pollRead, pollReading]
    · rfl
    · rfl
    · rfl
    · have hroom : data.length ≤ remaining := (preserves_read_iff hstep).mp hp
      simp [unread, deviceRead, handedOut, pollRead, pollReading, hroom]
    · rfl
  | pollWrite src spawned =>
    obtain ⟨-, rfl⟩ := next_pollWrite hstep
    rcases s with _ | ⟨cap, worker⟩ | ⟨buf, _ | _ | _ | n⟩
    · rcases spawned with _ | _ | _ | n <;> rfl
    · simp [unread, deviceRead, handedOut, pollWrite]
    all_goals rfl
  | readDone r =>
    obtain ⟨cap, rfl, rfl⟩ := next_readDone hstep
    rcases r with _ | _ | data <;> rfl
  | writeDone r =>
    obtain ⟨buf, rfl, -, rfl⟩ := next_writeDone hstep
    rfl

theorem write_balance (hp : Preserves s e) (hstep : next s e = some t) :
    unacked s ++ deviceWrote s e = acknowledged s e ++ unacked t := by
  cases e with
  | pollRead remaining spawned =>
    obtain ⟨-, rfl⟩ := next_pollRead hstep
    rcases s with _ | ⟨cap, _ | _ | _ | data⟩ | ⟨buf, worker⟩
    · by_cases hz : remaining = 0
      · simp [unacked, deviceWrote, acknowledged, pollRead, hz]
      · rcases spawned with _ | _ | _ | data <;>
          simp [unacked, deviceWrote, acknowledged, pollRead, pollReading, hz]
    all_goals simp [unacked, deviceWrote, acknowledged, pollRead, pollReading]
  | pollWrite src spawned =>
    obtain ⟨-, rfl⟩ := next_pollWrite hstep
    rcases s with _ | ⟨cap, worker⟩ | ⟨buf, _ | _ | _ | n⟩
    · rcases spawned with _ | _ | _ | n <;>
        simp [unacked, deviceWrote, acknowledged, pollWrite, pollWriting]
    · simp [unacked, deviceWrote, acknowledged, pollWrite]
    · rfl
    · rfl
    · rfl
    · have hsrc := (hp n rfl).2
      simp only [acknowledged, pollWrite, pollWriting, hsrc, unacked, List.append_nil]
  | readDone r =>
    obtain ⟨cap, rfl, rfl⟩ := next_readDone hstep
    rfl
  | writeDone r =>
    obtain ⟨buf, rfl, -, rfl⟩ := next_writeDone hstep
    rcases r with _ | _ | n <;> rfl

theorem nextLog_some (h : nextLog a e = some b) :
    ∃ io, next a.io e = some io ∧ b = ⟨io, a.returned ++ deviceRead a.io e,
      a.delivered ++ handedOut a.io e, a.written ++ deviceWrote a.io e,
      a.acked ++ acknowledged a.io e⟩ := by
  obtain ⟨io, hio, rfl⟩ := Option.map_eq_some_iff.mp h
  exact ⟨io, hio, rfl⟩

theorem kept_step (h : Kept a) (hp : Preserves a.io e) (hstep : Steps nextLog a e b) : Kept b := by
  obtain ⟨io, hio, rfl⟩ := nextLog_some hstep
  have hread := read_balance hp hio
  have hwrite := write_balance hp hio
  refine ⟨?_, ?_⟩
  · calc (a.delivered ++ handedOut a.io e) ++ unread io
        = a.delivered ++ (unread a.io ++ deviceRead a.io e) := by rw [List.append_assoc, hread]
      _ = a.returned ++ deviceRead a.io e := by rw [← List.append_assoc, h.read]
  · calc (a.acked ++ acknowledged a.io e) ++ unacked io
        = a.acked ++ (unacked a.io ++ deviceWrote a.io e) := by rw [List.append_assoc, hwrite]
      _ = a.written ++ deviceWrote a.io e := by rw [← List.append_assoc, h.write]

/-- Every poll of a run preserves its data, and every byte is kept, exactly if every call that
collects an ended worker fits it. -/
theorem preserving_run_iff (xs : List Event) (b : StreamLog) :
    (Run (Guard (Steps nextLog) fun s e => Preserves s.io e) init xs b ∧ Kept b) ↔
      Run (Guard (Steps nextLog) fun s e => Fits s.io e) init xs b := by
  have hwrote : ∀ {p : StreamLog → Event → Prop}, ∀ s e t, Wrote s.io →
      Guard (Steps nextLog) p s e t → Wrote t.io := by
    rintro p s e t hs ⟨hstep, -⟩
    obtain ⟨io, hio, rfl⟩ := nextLog_some hstep
    exact wrote_step hs hio
  have hiff : ∀ s e t, Wrote s.io → Steps nextLog s e t → (Preserves s.io e ↔ Fits s.io e) := by
    intro s e t hs hstep
    obtain ⟨io, hio, -⟩ := nextLog_some hstep
    exact preserves_iff hs hio
  have hinit : Wrote init.io := by
    intro buf n hs
    cases hs
  constructor
  · rintro ⟨hrun, -⟩
    exact hrun.guard_mono hwrote (fun s e t hs hstep => (hiff s e t hs hstep).mp) hinit
  · intro hrun
    have hp : Run (Guard (Steps nextLog) fun s e => Preserves s.io e) init xs b :=
      hrun.guard_mono hwrote (fun s e t hs hstep => (hiff s e t hs hstep).mpr) hinit
    refine ⟨hp, hp.invariant ?_ ⟨rfl, rfl⟩⟩
    rintro s e t hs ⟨hstep, hpres⟩
    exact kept_step hs hpres hstep

/-- An abandoned read that returns more than the next caller has room for. -/
theorem overflows {cap remaining : Nat} {data : Bytes} (hcap : data.length ≤ cap)
    (hroom : remaining < data.length) :
    ∃ s, Run (Steps nextLog) init [.pollRead cap none, .readDone (.ok data)] s ∧
      ¬ Preserves s.io (.pollRead remaining none) := by
  have hpoll : nextLog init (.pollRead cap none) = some ⟨.reading cap none, [], [], [], []⟩ := by
    have hpos : cap ≠ 0 := by omega
    simp [nextLog, next, init, pollRead, pollReading, hpos, deviceRead, handedOut, deviceWrote,
      acknowledged]
  have hdone : nextLog ⟨.reading cap none, [], [], [], []⟩ (.readDone (.ok data)) =
      some ⟨.reading cap (some (.ok data)), data, [], [], []⟩ := by
    simp [nextLog, next, Joined.fitsRead, hcap, deviceRead, handedOut, deviceWrote, acknowledged]
  refine ⟨_, .stepL hpoll (.stepL hdone .refl), ?_⟩
  intro hp
  exact hp.1 (by simp [pollRead, pollReading, hroom])

/-- A read of a payload's last 5000 bytes is abandoned, and the next poll is that of a fresh frame.
-/
theorem abandoned_read_overflows :
    ¬ ∀ xs s e, Run (Steps nextLog) init xs s → Preserves s.io e := by
  intro h
  have hlen : (List.replicate 5000 (0 : UInt8)).length = 5000 := List.length_replicate
  obtain ⟨s, hrun, hnot⟩ := overflows (Nat.le_of_eq hlen) (show 4096 < _ by rw [hlen]; decide)
  exact hnot (h _ s _ hrun)

end Aabox.UsbData
