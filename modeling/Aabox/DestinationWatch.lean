import Aabox.NavRunner

/-!
# The destination file watcher

The watcher polls the modification time of a file that others write, and sends on the destination
that the file holds when the time is not the recorded one. A poll looks at the file, opens it, reads
it and sends in steps of their own, and the writer's steps fall anywhere between them.
-/
namespace Aabox.DestinationWatch
open Aabox.Lib Aabox.NavRunner

structure File where
  mtime : Nat
  content : List UInt8
  deriving DecidableEq, Repr

/-- A destination sent, with the number of changes that the file had seen when the poll looked at
its modification time, and when the destination was sent. -/
structure Push (F : Type) where
  dest : Destination F
  looked : Nat
  sent : Nat
  deriving DecidableEq, Repr

/-- Before the first poll, between two, with a new modification time recorded, with the file open,
awaiting room for a destination, returned. `torn` is set once the file changes under the reader. -/
inductive WatchPc (F : Type)
  | starting | ticking | changed
  | reading (held : List UInt8) (torn : Bool)
  | sending (dest : Destination F)
  | returned
  deriving DecidableEq, Repr

/-- `clock` is the last modification time given out, `changes` counts the writer's steps, and
`looked` is that count at the last look. -/
structure WatchState (F : Type) where
  file : Option File
  clock : Nat
  changes : Nat
  last_mtime : Option Nat
  pc : WatchPc F
  looked : Nat
  tx : Mpsc (Destination F)
  pushed : List (Push F)
  deriving DecidableEq, Repr

inductive WatchEvent
  | write (mtime : Nat) (content : List UInt8) | delete
  | recv | dropRx
  | stat | statFails | openFile | read (got : List UInt8) | readFails
  | send | sendFails | exit
  deriving DecidableEq, Repr

variable {F : Type}

def WatchState.new (tx : Mpsc (Destination F)) : WatchState F :=
  { file := none, clock := 0, changes := 0, last_mtime := none, pc := .starting, looked := 0, tx
    pushed := [] }

/-- `json` is the decoder of a file's text; a missing file is no error. -/
def readFrom (json : List UInt8 → Option (Destination F)) :
    Option (List UInt8) → Except Unit (Option (Destination F))
  | none => .ok none
  | some s =>
    match json s with
    | some parsed => .ok (some parsed)
    | none => .error ()

/-- Contents that do not parse are logged and given up. -/
def afterRead (text : FloatText F) : Except Unit (Option (Destination F)) → WatchPc F
  | .ok (some df) => .sending (intoDestination text df)
  | .ok none | .error () => .ticking

/-- A write reaches the reader that has the file open. -/
def WatchPc.tear : WatchPc F → WatchPc F
  | .reading held _ => .reading held true
  | pc => pc

/-- The first poll starts at once, a later one while the receiver is there. -/
def WatchState.polls (s : WatchState F) : Bool :=
  match s.pc with
  | .starting => true
  | .ticking => s.tx.rx_alive
  | _ => false

/-- `check_and_push` up to the comparison of the modification times. -/
def WatchState.stat (s : WatchState F) : WatchState F :=
  match s.file with
  | none => { s with last_mtime := none, pc := .ticking, looked := s.changes }
  | some file =>
    if some file.mtime = s.last_mtime then { s with pc := .ticking, looked := s.changes }
    else { s with last_mtime := some file.mtime, pc := .changed, looked := s.changes }

def next (json : List UInt8 → Option (Destination F)) (text : FloatText F) (s : WatchState F) :
    WatchEvent → Option (WatchState F)
  | .write mtime content =>
    if s.clock ≤ mtime then
      some { s with
        file := some ⟨mtime, content⟩, clock := mtime, changes := s.changes + 1, pc := s.pc.tear }
    else none
  | .delete =>
    -- an open file outlives its name
    if s.file.isSome then some { s with file := none, changes := s.changes + 1 } else none
  | .recv => s.tx.recv.map fun (_, tx) => { s with tx }
  | .dropRx => some { s with tx := s.tx.dropRx }
  | .stat => if s.polls then some s.stat else none
  | .statFails => if s.polls then some { s with pc := .ticking } else none
  | .openFile =>
    match s.pc with
    | .changed =>
      match s.file with
      | none => some { s with pc := afterRead text (readFrom json none) }
      | some file => some { s with pc := .reading file.content false }
    | _ => none
  | .read got =>
    match s.pc with
    | .reading held torn =>
      if got = held ∨ torn then some { s with pc := afterRead text (readFrom json (some got)) }
      else none
    | _ => none
  | .readFails =>
    match s.pc with
    | .changed | .reading .. => some { s with pc := .ticking }
    | _ => none
  | .send =>
    match s.pc with
    | .sending dest => (s.tx.trySend dest).map fun tx =>
        { s with tx, pc := .ticking, pushed := s.pushed ++ [⟨dest, s.looked, s.changes⟩] }
    | _ => none
  | .sendFails =>
    match s.pc with
    | .sending _ => if s.tx.rx_alive then none else some { s with pc := .ticking }
    | _ => none
  | .exit =>
    match s.pc with
    | .ticking => if s.tx.rx_alive then none else some { s with pc := .returned }
    | _ => none

/-- Neither a step of the writer nor a failed read. -/
def WatchEvent.quiet : WatchEvent → Bool
  | .write .. | .delete | .readFails => false
  | _ => true

variable {json : List UInt8 → Option (Destination F)} {text : FloatText F} {s t : WatchState F}
  {e : WatchEvent} {tx : Mpsc (Destination F)} {mtime : Nat} {content : List UInt8}
  {dest : Destination F}

/-- When each event can happen, and what it leaves. -/
inductive WatchStep (json : List UInt8 → Option (Destination F)) (text : FloatText F)
    (s : WatchState F) : WatchEvent → WatchState F → Prop
  | write {mtime : Nat} {content : List UInt8} : s.clock ≤ mtime →
    WatchStep json text s (.write mtime content) { s with
      file := some ⟨mtime, content⟩, clock := mtime, changes := s.changes + 1, pc := s.pc.tear }
  | delete : s.file.isSome →
    WatchStep json text s .delete { s with file := none, changes := s.changes + 1 }
  | recv {d : Destination F} {tx : Mpsc (Destination F)} : s.tx.recv = some (d, tx) →
    WatchStep json text s .recv { s with tx }
  | dropRx : WatchStep json text s .dropRx { s with tx := s.tx.dropRx }
  | stat : s.polls → WatchStep json text s .stat s.stat
  | statFails : s.polls → WatchStep json text s .statFails { s with pc := .ticking }
  | missing : s.pc = .changed → s.file = none →
    WatchStep json text s .openFile { s with pc := .ticking }
  | openFile {file : File} : s.pc = .changed → s.file = some file →
    WatchStep json text s .openFile { s with pc := .reading file.content false }
  | read {held got : List UInt8} {torn : Bool} : s.pc = .reading held torn → got = held ∨ torn →
    WatchStep json text s (.read got)
      { s with pc := afterRead text (readFrom json (some got)) }
  | readFails : s.pc = .changed ∨ (∃ held torn, s.pc = .reading held torn) →
    WatchStep json text s .readFails { s with pc := .ticking }
  | send {dest : Destination F} {tx : Mpsc (Destination F)} : s.pc = .sending dest →
    s.tx.trySend dest = some tx →
    WatchStep json text s .send
      { s with tx, pc := .ticking, pushed := s.pushed ++ [⟨dest, s.looked, s.changes⟩] }
  | sendFails {dest : Destination F} : s.pc = .sending dest → s.tx.rx_alive = false →
    WatchStep json text s .sendFails { s with pc := .ticking }
  | exit : s.pc = .ticking → s.tx.rx_alive = false →
    WatchStep json text s .exit { s with pc := .returned }

theorem next_cases (h : Steps (next json text) s e t) : WatchStep json text s e t := by
  cases e with
  | write mtime content =>
    simp only [Steps, next] at h
    split at h <;> cases h
    rename_i hle
    exact .write hle
  | delete =>
    simp only [Steps, next] at h
    split at h <;> cases h
    rename_i hsome
    exact .delete hsome
  | recv =>
    obtain ⟨⟨d, tx⟩, hrecv, rfl⟩ := Option.map_eq_some_iff.mp h
    exact .recv hrecv
  | dropRx =>
    cases h
    exact .dropRx
  | stat =>
    simp only [Steps, next] at h
    split at h <;> cases h
    rename_i hpolls
    exact .stat hpolls
  | statFails =>
    simp only [Steps, next] at h
    split at h <;> cases h
    rename_i hpolls
    exact .statFails hpolls
  | openFile =>
    simp only [Steps, next] at h
    split at h
    · rename_i hpc
      split at h <;> cases h
      · rename_i hnone
        exact .missing hpc hnone
      · rename_i file hfile
        exact .openFile hpc hfile
    · cases h
  | read got =>
    simp only [Steps, next] at h
    split at h
    · rename_i held torn hpc
      split at h <;> cases h
      rename_i hgot
      exact .read hpc hgot
    · cases h
  | readFails =>
    simp only [Steps, next] at h
    split at h <;> cases h
    · rename_i hpc
      exact .readFails (.inl hpc)
    · rename_i held torn hpc
      exact .readFails (.inr ⟨held, torn, hpc⟩)
  | send =>
    simp only [Steps, next] at h
    split at h
    · rename_i dest hpc
      obtain ⟨tx, htx, rfl⟩ := Option.map_eq_some_iff.mp h
      exact .send hpc htx
    · cases h
  | sendFails =>
    simp only [Steps, next] at h
    split at h
    · rename_i dest hpc
      split at h <;> cases h
      rename_i hrx
      exact .sendFails hpc (Bool.eq_false_iff.mpr hrx)
    · cases h
  | exit =>
    simp only [Steps, next] at h
    split at h
    · rename_i hpc
      split at h <;> cases h
      rename_i hrx
      exact .exit hpc (Bool.eq_false_iff.mpr hrx)
    · cases h

/-- A poll between its look at the file and its end. -/
def WatchPc.busy : WatchPc F → Bool
  | .changed | .reading .. | .sending _ => true
  | _ => false

/-- While the file is as it was at the last look, its modification time is the recorded one. A poll
that goes on found another time, so it looked later than all that has been sent. -/
structure Looked (s : WatchState F) : Prop where
  le : s.looked ≤ s.changes
  recorded : s.looked = s.changes → s.last_mtime = s.file.map File.mtime
  older : ∀ p ∈ s.pushed, p.looked ≤ s.looked
  busy : s.pc.busy → ∀ p ∈ s.pushed, p.looked < s.looked
  apart : s.pushed.Pairwise fun a b => a.looked < b.looked ∧ b.looked ≤ b.sent

theorem looked_new : Looked (.new tx) := ⟨Nat.le_refl _, fun _ => rfl, by simp [WatchState.new],
  by simp [WatchState.new], .nil⟩

theorem busy_tear (pc : WatchPc F) : pc.tear.busy = pc.busy := by
  cases pc <;> rfl

theorem looked_stat (h : Looked s) : Looked s.stat := by
  obtain ⟨hle, hrec, hold, hbusy, hapart⟩ := h
  have hstill : ∀ p ∈ s.pushed, p.looked ≤ s.changes := fun p hp => (hold p hp).trans hle
  rcases hf : s.file with _ | file
  · rw [WatchState.stat, hf]
    exact ⟨Nat.le_refl _, fun _ => by simp, hstill, by simp [WatchPc.busy], hapart⟩
  · by_cases hm : some file.mtime = s.last_mtime
    · simp only [WatchState.stat, hf, if_pos hm]
      exact ⟨Nat.le_refl _, fun _ => by simp [hm], hstill, by simp [WatchPc.busy], hapart⟩
    · simp only [WatchState.stat, hf, if_neg hm]
      -- the file has changed since the last look, or its time would be the recorded one
      have hlt : s.looked < s.changes := by
        refine Nat.lt_of_le_of_ne hle fun he => hm ?_
        rw [hrec he, hf]
        rfl
      exact ⟨Nat.le_refl _, fun _ => by simp, hstill,
        fun _ p hp => Nat.lt_of_le_of_lt (hold p hp) hlt, hapart⟩

/-- `t` has what `s` recorded of the file and sent, and no poll that `s` has not. -/
structure Keeps (s t : WatchState F) : Prop where
  last_mtime : t.last_mtime = s.last_mtime
  looked : t.looked = s.looked
  pushed : t.pushed = s.pushed
  busy : t.pc.busy → s.pc.busy

theorem looked_write (h : Looked s) (hk : Keeps s t) (hlt : s.changes < t.changes) : Looked t := by
  obtain ⟨hle, hrec, hold, hbusy, hapart⟩ := h
  obtain ⟨hm, hl, hp, hb⟩ := hk
  refine ⟨by omega, fun he => by omega, ?_, ?_, hp ▸ hapart⟩
  · rwa [hp, hl]
  · intro hbt
    rw [hp, hl]
    exact hbusy (hb hbt)

theorem looked_same (h : Looked s) (hk : Keeps s t) (hf : t.file = s.file)
    (hc : t.changes = s.changes) : Looked t := by
  obtain ⟨hle, hrec, hold, hbusy, hapart⟩ := h
  obtain ⟨hm, hl, hp, hb⟩ := hk
  refine ⟨by omega, ?_, ?_, ?_, hp ▸ hapart⟩
  · rw [hl, hc, hm, hf]
    exact hrec
  · rwa [hp, hl]
  · intro hbt
    rw [hp, hl]
    exact hbusy (hb hbt)

theorem looked_send (h : Looked s) (hpc : s.pc = .sending dest) (tx : Mpsc (Destination F)) :
    Looked { s with tx, pc := .ticking, pushed := s.pushed ++ [⟨dest, s.looked, s.changes⟩] } := by
  obtain ⟨hle, hrec, hold, hbusy, hapart⟩ := h
  have hlater := hbusy (by rw [hpc]; rfl)
  refine ⟨hle, hrec, ?_, fun hb => (by cases hb), ?_⟩
  · intro p hp
    rcases List.mem_append.mp hp with hp | hp
    · exact hold p hp
    · rw [List.mem_singleton.mp hp]
  · rw [List.pairwise_append]
    refine ⟨hapart, List.pairwise_singleton _ _, ?_⟩
    intro a ha b hb
    rw [List.mem_singleton.mp hb]
    exact ⟨hlater a ha, hle⟩

theorem looked_step (h : Looked s) (hstep : Steps (next json text) s e t) : Looked t := by
  cases next_cases hstep with
  | write =>
    exact looked_write h ⟨rfl, rfl, rfl, fun hb => by rwa [busy_tear] at hb⟩ (Nat.lt_succ_self _)
  | delete => exact looked_write h ⟨rfl, rfl, rfl, id⟩ (Nat.lt_succ_self _)
  | stat => exact looked_stat h
  | send hpc => exact looked_send h hpc _
  | recv | dropRx => exact looked_same h ⟨rfl, rfl, rfl, id⟩ rfl rfl
  | missing | statFails | readFails | sendFails | exit =>
    exact looked_same h ⟨rfl, rfl, rfl, fun hb => by cases hb⟩ rfl rfl
  | openFile hpc | read hpc =>
    exact looked_same h ⟨rfl, rfl, rfl, fun _ => by rw [hpc]; rfl⟩ rfl rfl

theorem looked_reachable (h : Reachable (Steps (next json text)) (.new tx) s) : Looked s := by
  rcases h with ⟨es, hrun⟩
  exact hrun.invariant (fun _ _ _ => looked_step) looked_new

/-- Modification times given out, and so those recorded, are bounded by the clock. -/
structure Timed (s : WatchState F) : Prop where
  file : ∀ file, s.file = some file → file.mtime ≤ s.clock
  recorded : ∀ m, s.last_mtime = some m → m ≤ s.clock

theorem timed_step (h : Timed s) (hstep : Steps (next json text) s e t) : Timed t := by
  cases next_cases hstep with
  | write hle =>
    refine ⟨?_, fun m hm => (h.recorded m hm).trans hle⟩
    rintro file ⟨⟩
    exact Nat.le_refl _
  | delete => exact ⟨fun file hf => (by cases hf), h.recorded⟩
  | stat =>
    rcases hf : s.file with _ | file
    · simp only [WatchState.stat, hf]
      exact ⟨fun file hf => (by cases hf), fun m hm => (by cases hm)⟩
    · simp only [WatchState.stat, hf]
      split
      · exact ⟨fun file' hf' => h.file file' (hf ▸ hf'), h.recorded⟩
      · refine ⟨fun file' hf' => h.file file' (hf ▸ hf'), ?_⟩
        rintro m ⟨⟩
        exact h.file file hf
  | _ => exact ⟨h.file, h.recorded⟩

/-- A write later than all before it is given a time that the watcher has not recorded. -/
theorem later_write_unseen (h : Reachable (Steps (next json text)) (.new tx) s)
    (hlt : s.clock < mtime) : s.last_mtime ≠ some mtime := by
  rcases h with ⟨es, hrun⟩
  have ht : Timed s := hrun.invariant (I := Timed) (fun _ _ _ => timed_step)
    ⟨fun _ hf => (by cases hf), fun _ hm => (by cases hm)⟩
  intro hm
  exact Nat.not_le.mpr hlt (ht.recorded _ hm)

/-- The watcher has not recorded the modification time of the file. -/
def Unseen (mtime : Nat) (content : List UInt8) (s : WatchState F) : Prop :=
  s.file = some ⟨mtime, content⟩ ∧ s.last_mtime ≠ some mtime

/-- The poll has the destination of `content` ahead of it, or it has been sent. -/
def Carries (content : List UInt8) (dest : Destination F) (s : WatchState F) : Prop :=
  match s.pc with
  | .starting => False
  | .ticking => s.tx.rx_alive → s.pushed.getLast?.map Push.dest = some dest
  | .changed => True
  | .reading held torn => held = content ∧ torn = false
  | .sending d => d = dest
  | .returned => s.tx.rx_alive = false

/-- The watcher has recorded the modification time of the file, and has what the file holds. -/
structure Seen (mtime : Nat) (content : List UInt8) (dest : Destination F) (s : WatchState F) :
    Prop where
  file : s.file = some ⟨mtime, content⟩
  recorded : s.last_mtime = some mtime
  carries : Carries content dest s

/-- The steps of a run in which nothing is written and no read fails. -/
abbrev Quiet (json : List UInt8 → Option (Destination F)) (text : FloatText F) :
    WatchState F → WatchEvent → WatchState F → Prop :=
  Guard (Steps (next json text)) fun _ e => e.quiet

theorem stat_file (s : WatchState F) : s.stat.file = s.file := by
  unfold WatchState.stat
  split
  · rfl
  · split <;> rfl

theorem quiet_file (hstep : Quiet json text s e t) : t.file = s.file := by
  rcases hstep with ⟨hstep, hq⟩
  cases next_cases hstep with
  | write | delete => cases hq
  | stat => exact stat_file s
  | _ => rfl

/-- Only a look at the file records a modification time. -/
theorem last_mtime_kept (hstep : Steps (next json text) s e t) (he : e ≠ .stat) :
    t.last_mtime = s.last_mtime := by
  cases next_cases hstep with
  | stat => exact absurd rfl he
  | _ => rfl

theorem unseen_step (h : Unseen mtime content s) (hstep : Quiet json text s e t)
    (he : e ≠ .stat) : Unseen mtime content t := by
  rcases h with ⟨hf, hm⟩
  refine ⟨(quiet_file hstep).trans hf, ?_⟩
  rwa [last_mtime_kept hstep.1 he]

theorem seen_of_stat (h : Unseen mtime content s) (hstep : Quiet json text s .stat t) :
    Seen mtime content dest t := by
  rcases h with ⟨hf, hm⟩
  cases next_cases hstep.1
  have hstat : s.stat =
      { s with last_mtime := some mtime, pc := .changed, looked := s.changes } := by
    simp only [WatchState.stat, hf, if_neg hm.symm]
  rw [hstat]
  exact ⟨hf, rfl, trivial⟩

/-- A look finds the recorded time, so a destination is sent once. -/
theorem carries_stat (h : Seen mtime content dest s) (hp : s.polls) :
    Carries content dest s.stat := by
  rcases h with ⟨hf, hm, hc⟩
  have hstat : s.stat = { s with pc := .ticking, looked := s.changes } := by
    simp only [WatchState.stat, hf, if_pos hm.symm]
  rw [hstat]
  cases hpc : s.pc <;> simp_all [WatchState.polls, Carries]

theorem carries_step {df : Destination F} (hjson : json content = some df)
    (h : Seen mtime content (intoDestination text df) s) (hstep : Quiet json text s e t) :
    Carries content (intoDestination text df) t := by
  rcases hstep with ⟨hstep, hq⟩
  have hc := h.carries
  cases next_cases hstep with
  | write | delete | readFails => cases hq
  | @recv d tx htx =>
    have halive : tx.rx_alive = s.tx.rx_alive := by rw [(Mpsc.recv_some htx).2]
    cases hpc : s.pc <;> simp_all [Carries]
  | dropRx => cases hpc : s.pc <;> simp_all [Carries, Mpsc.dropRx]
  | stat hp => exact carries_stat h hp
  | statFails hp => cases hpc : s.pc <;> simp_all [WatchState.polls, Carries]
  | missing hpc hnone =>
    rw [h.file] at hnone
    cases hnone
  | openFile hpc hfile =>
    obtain rfl := Option.some.inj (h.file.symm.trans hfile)
    exact ⟨rfl, rfl⟩
  | @read held got torn hpc hgot =>
    rw [Carries, hpc] at hc
    obtain ⟨rfl, rfl⟩ := hc
    obtain rfl : got = held := by simpa using hgot
    simp [Carries, readFrom, hjson, afterRead]
  | send hpc =>
    rw [Carries, hpc] at hc
    intro _
    simp [hc]
  | sendFails _ hrx =>
    intro halive
    rw [hrx] at halive
    cases halive
  | exit _ hrx => exact hrx

theorem seen_step {df : Destination F} (hjson : json content = some df)
    (h : Seen mtime content (intoDestination text df) s) (hstep : Quiet json text s e t) :
    Seen mtime content (intoDestination text df) t := by
  refine ⟨(quiet_file hstep).trans h.file, ?_, carries_step hjson h hstep⟩
  by_cases he : e = .stat
  · subst he
    cases next_cases hstep.1
    simp only [WatchState.stat, h.file, if_pos h.recorded.symm]
    exact h.recorded
  · exact (last_mtime_kept hstep.1 he).trans h.recorded

theorem write_unseen (h : Steps (next json text) s (.write mtime content) t)
    (hm : s.last_mtime ≠ some mtime) : Unseen mtime content t := by
  cases next_cases h
  exact ⟨rfl, hm⟩

theorem seen_run {u : WatchState F} {es : List WatchEvent} {df : Destination F}
    (hjson : json content = some df) (hu : Unseen mtime content u)
    (hrun : Run (Quiet json text) u es t) (hlook : .stat ∈ es) :
    Seen mtime content (intoDestination text df) t := by
  refine hrun.reaches (I := Unseen mtime content) ?_ ?_ ?_ hu hlook
  · exact fun _ _ _ => unseen_step
  · exact fun _ _ => seen_of_stat
  · exact fun _ _ _ => seen_step hjson

/-- Between the looks of two polls that send, the file changes. What is written at a time that the
watcher has not recorded is what it sent last, once a later poll has ended. -/
theorem watcher_delivers (h : Reachable (Steps (next json text)) (.new tx) s) :
    (s.pushed.Pairwise fun a b =>
      a.looked < b.looked ∧ (a.looked = a.sent → a.sent < b.sent)) ∧
    ∀ mtime content u es t df, Steps (next json text) s (.write mtime content) u →
      s.last_mtime ≠ some mtime → Run (Quiet json text) u es t → .stat ∈ es → t.pc = .ticking →
      t.tx.rx_alive → json content = some df →
      t.pushed.getLast?.map Push.dest = some (intoDestination text df) := by
  refine ⟨(looked_reachable h).apart.imp ?_, ?_⟩
  · rintro a b ⟨hlt, hle⟩
    exact ⟨hlt, fun he => he ▸ Nat.lt_of_lt_of_le hlt hle⟩
  · intro mtime content u es t df hwrite hm hrun hlook hpc hrx hjson
    have hc := (seen_run hjson (write_unseen hwrite hm) hrun hlook).carries
    rw [Carries, hpc] at hc
    exact hc hrx

/-- A file that is one byte is a latitude. -/
def latByte : List UInt8 → Option (Destination Nat)
  | [b] => some ⟨b.toNat, 0, "x"⟩
  | _ => none

def noText : FloatText Nat := ⟨fun _ => none, fun _ => ""⟩

/-- The first content has been seen, read and sent. -/
def sentOnce : WatchState Nat :=
  { file := some ⟨5, [1]⟩, clock := 5, changes := 1, last_mtime := some 5, pc := .ticking
    looked := 1, tx := ⟨[⟨1, 0, "x"⟩], 4, true, true⟩, pushed := [⟨⟨1, 0, "x"⟩, 1, 1⟩] }

theorem sentOnce_reachable : Reachable (Steps (next latByte noText)) (.new (.new 4)) sentOnce :=
  ⟨[.write 5 [1], .stat, .openFile, .read [1], .send], run_iff_foldlM.mpr (by decide)⟩

theorem watcher_delivers_second : ∃ t : WatchState Nat, t.tx.queue = [⟨1, 0, "x"⟩, ⟨2, 0, "x"⟩] ∧
    t.pushed.getLast?.map Push.dest = some ⟨2, 0, "x"⟩ := by
  have hrun : Run (Quiet latByte noText)
      { sentOnce with file := some ⟨6, [2]⟩, clock := 6, changes := 2 }
      [.stat, .openFile, .read [2], .send] _ := run_guard_iff_foldlM.mpr rfl
  exact ⟨_, rfl, (watcher_delivers sentOnce_reachable).2 6 [2] _ _ _ _ rfl (by decide) hrun
    (by decide) rfl rfl rfl⟩

/-- A second write within one tick of the file's clock is not seen, and what is written between the
look and the read is sent twice. -/
theorem lost_and_repeated :
    (¬ ∀ s mtime content u es t df,
      Reachable (Steps (next latByte noText)) (.new (.new 4)) s →
      Steps (next latByte noText) s (.write mtime content) u → Run (Quiet latByte noText) u es t →
      .stat ∈ es → t.pc = .ticking → t.tx.rx_alive → latByte content = some df →
      t.pushed.getLast?.map Push.dest = some (intoDestination noText df)) ∧
    ¬ ∀ s, Reachable (Steps (next latByte noText)) (.new (.new 4)) s →
      s.pushed.Pairwise fun a b => a.dest = b.dest → a.sent < b.sent := by
  constructor
  · intro h
    have hrun : Run (Quiet latByte noText) { sentOnce with file := some ⟨5, [2]⟩, changes := 2 }
        [.stat] _ := run_guard_iff_foldlM.mpr rfl
    have hlast := h _ 5 [2] _ _ _ _ sentOnce_reachable rfl hrun (by decide) rfl rfl rfl
    exact absurd hlast (by decide)
  · intro h
    have hs : Reachable (Steps (next latByte noText)) (.new (.new 4)) _ :=
      ⟨[.write 1 [1], .stat, .write 2 [2], .openFile, .read [2], .send, .stat, .openFile, .read [2],
        .send], run_iff_foldlM.mpr rfl⟩
    exact absurd (h _ hs) (by decide)

end Aabox.DestinationWatch
