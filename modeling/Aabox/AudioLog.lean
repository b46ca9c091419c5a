import Aabox.AudioInbound
import Aabox.Lib.Feed
import Aabox.Lib.Wire

/-!
# The audio log files

The sink that a channel is given by default writes its frames to a file. Reading the file gives back
the frames that were acknowledged from the first open of the file on, as long as the disk takes
their records in full, whatever the other channels receive in between.
-/
namespace Aabox.AudioLog
open Aabox.Lib Aabox.Messages Aabox.HandleFrame Aabox.Audio

def LOG_DIR : String := "/data/local/tmp"

def channelLogTag : ChannelId → String
  | .mediaAudio => "media"
  | .speechAudio => "speech"
  | .systemAudio => "system"
  | _ => "other"

def logPath (channel : ChannelId) : String :=
  LOG_DIR ++ "/aabox-audio-" ++ channelLogTag channel ++ ".bin"

/-- `opened` says whether the sink holds its file. The counters wrap. -/
structure LoggingAudioSink where
  path : String
  opened : Bool
  bytes_written : UInt64
  frames_written : UInt64
  deriving DecidableEq, Repr

def LoggingAudioSink.withPath (path : String) : LoggingAudioSink :=
  { path, opened := false, bytes_written := 0, frames_written := 0 }

def LoggingAudioSink.forChannel (channel : ChannelId) : LoggingAudioSink :=
  .withPath (logPath channel)

abbrev Files := String → Option Bytes

def Files.truncate (files : Files) (path : String) : Files :=
  fun p => if p = path then some [] else files p

def Files.append (files : Files) (path : String) (bs : Bytes) : Files :=
  fun p => if p = path then some ((files p).getD [] ++ bs) else files p

/-- What the file system does with one push: the errors of its calls, and how much of the record the
file gets. A write that fails may be reported by a later one, so that a push can succeed without its
record, and fail with it. -/
structure Disk where
  dir : Option String
  opening : Option String
  kept : Option Nat
  hdr : Option String
  pcm : Option String
  deriving DecidableEq, Repr

def Disk.opens (disk : Disk) : Bool := disk.dir.isNone && disk.opening.isNone

def Disk.reports (disk : Disk) : Bool := disk.hdr.isNone && disk.pcm.isNone

/-- The length field keeps the low 32 bits of the length. -/
def header (frame : AudioFrame) : Bytes :=
  beBytes 8 frame.timestamp_us ++ beBytes 4 frame.pcm.length

def record (frame : AudioFrame) : Bytes := header frame ++ frame.pcm

/-- The samples are not written after a header that failed. -/
def Disk.attempt (disk : Disk) (frame : AudioFrame) : Attempt AudioFrame :=
  ⟨frame, if disk.hdr.isSome then some (min (disk.kept.getD 12) 12) else disk.kept⟩

/-- The file is opened, and truncated, by the first push that can. -/
def LoggingAudioSink.lazyOpen (disk : Disk) (files : Files) (sink : LoggingAudioSink) :
    Except String (LoggingAudioSink × Files) :=
  if sink.opened then .ok (sink, files)
  else
    match disk.dir, disk.opening with
    | some e, _ => .error (s!"create_dir_all({LOG_DIR}): " ++ e)
    | none, some e => .error (s!"open {sink.path}: " ++ e)
    | none, none => .ok ({ sink with opened := true }, files.truncate sink.path)

/-- `push`, with the sink and the files it leaves. -/
def LoggingAudioSink.push (disk : Disk) (files : Files) (sink : LoggingAudioSink)
    (frame : AudioFrame) : Except String Unit × LoggingAudioSink × Files :=
  match sink.lazyOpen disk files with
  | .error e => (.error e, sink, files)
  | .ok x =>
    let files := x.2.append sink.path ((disk.attempt frame).written record)
    match disk.hdr, disk.pcm with
    | some e, _ => (.error ("write log hdr: " ++ e), x.1, files)
    | none, some e => (.error ("write log pcm: " ++ e), x.1, files)
    | none, none =>
      (.ok (), { x.1 with frames_written := x.1.frames_written + 1
                          bytes_written := x.1.bytes_written + .ofNat frame.pcm.length }, files)

/-- The manager with the sinks it has made, by number, and the files. -/
structure Recorder where
  manager : AudioChannelManager
  sinks : List LoggingAudioSink
  files : Files

def Recorder.start (files : Files) : Recorder := ⟨.new, [], files⟩

/-- A call of `handle` up to the sink's push: an open request makes the channel's default sink. -/
def Recorder.called (prost : Prost) (w : Recorder) (a : Message) : Recorder :=
  let m := (w.manager.handle prost a.channel a.msg_id a.body).2
  let made := if m.sinks = w.manager.sinks then none
    else (ChannelId.tryFrom a.channel).map .forChannel
  ⟨m, w.sinks ++ made.toList, w.files⟩

/-- The push of a frame to the sink of that number, if there is one to make. -/
def Recorder.push (w : Recorder) (disk : Disk) :
    Option (Nat × AudioFrame) → Except String Unit × Recorder
  | none => (.ok (), w)
  | some p =>
    match w.sinks[p.1]? with
    | none => (.ok (), w)
    | some sink =>
      let r := sink.push disk w.files p.2
      (r.1, ⟨w.manager, w.sinks.set p.1 r.2.1, r.2.2⟩)

/-- `handle`, with the logging sinks behind the manager. -/
def Recorder.handle (prost : Prost) (w : Recorder) (a : Message) (disk : Disk) :
    Except HandlerError (List OutboundMessage) × List String × Recorder :=
  let w' := w.called prost a
  let pushed := w'.push disk (w'.manager.pushed.drop w.manager.pushed.length).head?
  let reply := w.manager.handlePush prost pushed.1 a.channel a.msg_id a.body
  (reply.1.1, reply.2, pushed.2)

/-- A message, and what the disk will do with the frame it carries. -/
abbrev Input := Message × Disk

/-- The messages sent back over a sequence of calls, and what is recorded. -/
def Recorder.run (prost : Prost) (w : Recorder) : List Input → List OutboundMessage × Recorder
  | [] => ([], w)
  | x :: xs =>
    let r := w.handle prost x.1 x.2
    let rest := r.2.2.run prost xs
    (outsOf r.1 ++ rest.1, rest.2)

/-- One record off the front of a log file. -/
def readRecord (bs : Bytes) : Option AudioFrame × Bytes :=
  let len := beValue ((bs.drop 8).take 4)
  if bs.length < 12 + len then (none, bs)
  else (some ⟨beValue (bs.take 8), (bs.drop 12).take len⟩, bs.drop (12 + len))

/-- The frames of a log file, and the bytes after the last of them. -/
def readLog (file : Bytes) : List AudioFrame × Bytes := drain readRecord (file.length + 1) file

/-! ### What is recorded -/

/-- The frames taken from a channel's messages, each with what the disk does with it. -/
def taken (prost : Prost) (past : List Message) : List Input → List (AudioFrame × Disk)
  | [] => []
  | x :: xs =>
    ((accepted prost past x.1).map fun frame => (frame, x.2)).toList ++
      taken prost (past ++ [x.1]) xs

def inputsOf (c : UInt8) (xs : List Input) : List Input := xs.filter (·.1.channel = c)

/-- The pushes that find the file open, or open it. -/
def recorded (ds : List (AudioFrame × Disk)) : List (AudioFrame × Disk) :=
  ds.dropWhile fun d => !d.2.opens

def attempts (ds : List (AudioFrame × Disk)) : List (Attempt AudioFrame) :=
  (recorded ds).map fun d => d.2.attempt d.1

def succeeded (ds : List (AudioFrame × Disk)) : List AudioFrame :=
  ((recorded ds).filter (·.2.reports)).map (·.1)

/-- The sink of a channel after the pushes `ds`. -/
def logOf (cid : ChannelId) (ds : List (AudioFrame × Disk)) : LoggingAudioSink where
  path := logPath cid
  opened := !(recorded ds).isEmpty
  bytes_written := .ofNat ((succeeded ds).map (·.pcm.length)).sum
  frames_written := .ofNat (succeeded ds).length

/-- The file of a channel after the pushes `ds`: the old one, until it is opened. -/
def fileOf (old : Option Bytes) (ds : List (AudioFrame × Disk)) : Option Bytes :=
  if (recorded ds).isEmpty then old else some (wireOf record (attempts ds))

variable {prost : Prost} {w : Recorder} {m₁ : AudioChannelManager} {cid other : ChannelId}
  {st : AudioChannelState} {past : List Message} {ds : List (AudioFrame × Disk)} {a : Message}
  {disk : Disk} {frame : AudioFrame} {old : Option Bytes} {files : Files} {s : Nat}

theorem toU8_inj (h : cid.toU8 = other.toU8) : cid = other := by
  have htry := congrArg ChannelId.tryFrom h
  rw [ChannelId.tryFrom_toU8, ChannelId.tryFrom_toU8] at htry
  exact Option.some.inj htry

/-- The channels with sinks write to different files. -/
theorem logPath_ne (hcid : (directionOf cid).isSome) (hother : (directionOf other).isSome)
    (h : other ≠ cid) : logPath other ≠ logPath cid := by
  cases cid <;> cases hcid <;> cases other <;> cases hother <;>
    first | exact absurd rfl h | decide +kernel

theorem recorded_append (ds : List (AudioFrame × Disk)) (d : AudioFrame × Disk) :
    recorded (ds ++ [d]) =
      if (recorded ds).isEmpty then if d.2.opens then [d] else [] else recorded ds ++ [d] := by
  unfold recorded
  rw [List.dropWhile_append]
  cases hopens : d.2.opens <;> simp [hopens]

/-- The push of a frame changes its own sink's file only, and no sink's path. -/
theorem push_others (sink : LoggingAudioSink) (disk : Disk) (files : Files) (frame : AudioFrame) :
    (sink.push disk files frame).2.1.path = sink.path ∧
      ∀ p, p ≠ sink.path → (sink.push disk files frame).2.2 p = files p := by
  unfold LoggingAudioSink.push LoggingAudioSink.lazyOpen
  cases sink.opened with
  | true =>
    cases disk.hdr <;> cases disk.pcm <;> simp +contextual [Files.append]
  | false =>
    cases disk.dir with
    | some e => simp
    | none =>
      cases disk.opening with
      | some e => simp
      | none =>
        cases disk.hdr <;> cases disk.pcm <;> simp +contextual [Files.append, Files.truncate]

theorem succeeded_append {d : AudioFrame × Disk} (h : recorded (ds ++ [d]) = recorded ds ++ [d]) :
    succeeded (ds ++ [d]) = succeeded ds ++ if d.2.reports then [d.1] else [] := by
  unfold succeeded
  rw [h, List.filter_append, List.map_append]
  cases hreports : d.2.reports <;> simp [hreports]

theorem attempts_append {d : AudioFrame × Disk} (h : recorded (ds ++ [d]) = recorded ds ++ [d]) :
    wireOf record (attempts (ds ++ [d])) =
      wireOf record (attempts ds) ++ (d.2.attempt d.1).written record := by
  unfold attempts
  rw [h, List.map_append, wireOf_append]
  simp [wireOf]

/-- The sink has its file, and the record is put after the others. -/
theorem push_later (hempty : (recorded ds).isEmpty = false)
    (hfile : files (logPath cid) = fileOf old ds) (disk : Disk) (frame : AudioFrame) :
    ((logOf cid ds).push disk files frame).2.1 = logOf cid (ds ++ [(frame, disk)]) ∧
      ((logOf cid ds).push disk files frame).2.2 (logPath cid) =
        fileOf old (ds ++ [(frame, disk)]) := by
  have hrec := recorded_append ds (frame, disk)
  rw [hempty] at hrec
  have hsucc := succeeded_append hrec
  have hatt := attempts_append hrec
  have hne : (recorded (ds ++ [(frame, disk)])).isEmpty = false := by simp [hrec]
  rw [fileOf, hempty] at hfile
  unfold LoggingAudioSink.push LoggingAudioSink.lazyOpen
  constructor
  · cases hhdr : disk.hdr <;> cases hpcm : disk.pcm <;>
      simp [logOf, hempty, hne, hsucc, Disk.reports, hhdr, hpcm]
  · cases hhdr : disk.hdr <;> cases hpcm : disk.pcm <;>
      simp [logOf, hempty, fileOf, hne, hatt, Files.append, hfile]

/-- The first record of a file is all that it holds. -/
theorem push_first (hnil : recorded ds = []) (hopens : disk.opens = true) (files : Files)
    (frame : AudioFrame) :
    ((LoggingAudioSink.forChannel cid).push disk files frame).2.1 =
        logOf cid (ds ++ [(frame, disk)]) ∧
      ((LoggingAudioSink.forChannel cid).push disk files frame).2.2 (logPath cid) =
        fileOf old (ds ++ [(frame, disk)]) := by
  have hone : recorded (ds ++ [(frame, disk)]) = [(frame, disk)] := by
    rw [recorded_append, hnil]
    simp [hopens]
  obtain ⟨hdir, hopening⟩ : disk.dir = none ∧ disk.opening = none := by
    simpa [Disk.opens] using hopens
  unfold LoggingAudioSink.push LoggingAudioSink.lazyOpen
  constructor
  · cases hhdr : disk.hdr <;> cases hpcm : disk.pcm <;>
      simp [logOf, hone, hdir, hopening, succeeded, Disk.reports, hhdr, hpcm,
        LoggingAudioSink.forChannel, LoggingAudioSink.withPath]
  · cases hhdr : disk.hdr <;> cases hpcm : disk.pcm <;>
      simp [fileOf, attempts, hone, hdir, hopening, wireOf, Files.append, Files.truncate,
        LoggingAudioSink.forChannel, LoggingAudioSink.withPath]

/-- A push that cannot open the file leaves the sink and the file alone. -/
theorem push_refused (sink : LoggingAudioSink) (hclosed : sink.opened = false)
    (hopens : disk.opens = false) (files : Files) (frame : AudioFrame) :
    (sink.push disk files frame).2 = (sink, files) := by
  unfold LoggingAudioSink.push LoggingAudioSink.lazyOpen
  cases hdir : disk.dir with
  | some e => simp [hclosed]
  | none =>
    cases hopening : disk.opening with
    | some e => simp [hclosed]
    | none => simp [Disk.opens, hdir, hopening] at hopens

theorem push_own (hfile : files (logPath cid) = fileOf old ds) (disk : Disk) (frame : AudioFrame) :
    ((logOf cid ds).push disk files frame).2.1 = logOf cid (ds ++ [(frame, disk)]) ∧
      ((logOf cid ds).push disk files frame).2.2 (logPath cid) =
        fileOf old (ds ++ [(frame, disk)]) := by
  cases hempty : (recorded ds).isEmpty with
  | false => exact push_later hempty hfile disk frame
  | true =>
    have hnil : recorded ds = [] := List.isEmpty_iff.mp hempty
    have hlog : logOf cid ds = .forChannel cid := by
      simp [logOf, succeeded, hnil, LoggingAudioSink.forChannel, LoggingAudioSink.withPath]
    cases hopens : disk.opens with
    | true =>
      rw [hlog]
      exact push_first hnil hopens files frame
    | false =>
      have hsame : recorded (ds ++ [(frame, disk)]) = recorded ds := by
        rw [recorded_append, hnil]
        simp [hopens]
      rw [push_refused _ (by simp [logOf, hnil]) hopens]
      simp [logOf, fileOf, succeeded, attempts, hsame, hfile]

/-- What is recorded of a channel that has received `past` and pushed `ds`. -/
structure Logs (prost : Prost) (old : Option Bytes) (w : Recorder) (cid : ChannelId)
    (past : List Message) (ds : List (AudioFrame × Disk)) : Prop where
  numbered : Numbered w.manager
  follows : Follows prost w.manager cid.toU8 past
  made : w.sinks.length = w.manager.sinks
  paths : ∀ (c : ChannelId) s sink, w.manager.sinkOf c.toU8 = some s → w.sinks[s]? = some sink →
    sink.path = logPath c
  log : ∀ s, w.manager.sinkOf cid.toU8 = some s → w.sinks[s]? = some (logOf cid ds)
  unused : w.manager.sinkOf cid.toU8 = none → ds = []
  file : w.files (logPath cid) = fileOf old ds

theorem logs_start (prost : Prost) (files : Files) (cid : ChannelId) :
    Logs prost (files (logPath cid)) (.start files) cid [] [] where
  numbered := numbered_new
  follows := follows_new
  made := rfl
  paths c s sink h := by cases h
  log s h := by cases h
  unused _ := rfl
  file := rfl

/-- An open request on a channel without a sink makes it one, and no other message does. -/
theorem called_made (he : Ensured w.manager a.channel cid st m₁)
    (hh : Handled prost m₁ cid st a (w.manager.handle prost a.channel a.msg_id a.body)) :
    (w.manager.sinkOf a.channel = none ∧
      (w.called prost a).manager.sinkOf a.channel = some w.manager.sinks ∧
      (w.called prost a).manager.sinks = w.manager.sinks + 1 ∧
      (w.called prost a).sinks = w.sinks ++ [.forChannel cid]) ∨
    ((w.called prost a).manager.sinkOf a.channel = w.manager.sinkOf a.channel ∧
      (w.called prost a).manager.sinks = w.manager.sinks ∧
      (w.called prost a).sinks = w.sinks) := by
  have hown := Handled.sinkOf he hh
  have hsinks := hh.sinks
  rw [stateAfter_sink, ← he.sinkOf, he.sinks] at hsinks
  have htry : ChannelId.tryFrom a.channel = some cid := by rw [← he.toU8, ChannelId.tryFrom_toU8]
  cases hold : w.manager.sinkOf a.channel with
  | some s =>
    right
    rw [hold] at hown hsinks
    simp_all [Recorder.called]
  | none =>
    rw [hold] at hown hsinks
    cases hatt : attachesSink prost a with
    | true =>
      left
      simp_all [Recorder.called]
    | false =>
      right
      simp_all [Recorder.called]

theorem logs_made {past' : List Message} (h : Logs prost old w cid past ds)
    (he : Ensured w.manager a.channel other st m₁)
    (hh : Handled prost m₁ other st a (w.manager.handle prost a.channel a.msg_id a.body))
    (hf : Follows prost (w.called prost a).manager cid.toU8 past') :
    Logs prost old (w.called prost a) cid past' ds := by
  have hothers : ∀ c : UInt8, c ≠ a.channel →
      (w.called prost a).manager.sinkOf c = w.manager.sinkOf c :=
    fun c hc => Handled.sinkOf_others he hh hc
  have hid : ∀ c : ChannelId, c.toU8 = a.channel → c = other :=
    fun c hc => toU8_inj (hc.trans he.toU8.symm)
  -- The sinks that were there keep their numbers.
  have hold : ∀ {c s}, w.manager.sinkOf c = some s →
      (w.called prost a).sinks[s]? = w.sinks[s]? := by
    intro c s hs
    have hlt : s < w.sinks.length := h.made ▸ h.numbered.bound c s hs
    exact List.getElem?_append_left hlt
  rcases called_made he hh with ⟨hnone, hsink, hsinks, hmade⟩ | ⟨hsink, hsinks, hmade⟩
  · have hnew : (w.called prost a).sinks[w.manager.sinks]? = some (.forChannel other) := by
      rw [hmade, ← h.made]
      simp
    refine ⟨numbered_call h.numbered he hh, hf, ?_, ?_, ?_, ?_, h.file⟩
    · rw [hmade, hsinks, List.length_append, h.made]
      rfl
    · intro c s sink hs hget
      by_cases hc : c.toU8 = a.channel
      · rw [hc, hsink] at hs
        obtain rfl := Option.some.inj hs
        obtain rfl := Option.some.inj (hnew.symm.trans hget)
        rw [hid c hc]
        rfl
      · rw [hothers _ hc] at hs
        exact h.paths c s sink hs (hold hs ▸ hget)
    · intro s hs
      by_cases hc : cid.toU8 = a.channel
      · rw [hc, hsink] at hs
        obtain rfl := Option.some.inj hs
        rw [h.unused (hc ▸ hnone), hnew, hid cid hc]
        rfl
      · rw [hothers _ hc] at hs
        rw [hold hs]
        exact h.log s hs
    · intro hs
      by_cases hc : cid.toU8 = a.channel
      · rw [hc, hsink] at hs
        cases hs
      · rw [hothers _ hc] at hs
        exact h.unused hs
  · have hsame : ∀ c, (w.called prost a).manager.sinkOf c = w.manager.sinkOf c := by
      intro c
      by_cases hc : c = a.channel
      · rw [hc, hsink]
      · exact hothers c hc
    refine ⟨numbered_call h.numbered he hh, hf, ?_, ?_, ?_, ?_, h.file⟩
    · rw [hmade, hsinks, h.made]
    · intro c s sink hs hget
      rw [hsame] at hs
      exact h.paths c s sink hs (hmade ▸ hget)
    · intro s hs
      rw [hsame] at hs
      rw [hmade]
      exact h.log s hs
    · intro hs
      rw [hsame] at hs
      exact h.unused hs

theorem logs_called (hcid : (directionOf cid).isSome) (h : Logs prost old w cid past ds)
    (a : Message) :
    Logs prost old (w.called prost a) cid
      (if a.channel = cid.toU8 then past ++ [a] else past) ds := by
  by_cases ha : a.channel = cid.toU8
  · obtain ⟨st, m₁, he, hh⟩ := own_call prost w.manager hcid ha
    have hf : Follows prost w.manager a.channel past := by
      rw [ha]
      exact h.follows
    have hf' : Follows prost (w.called prost a).manager a.channel (past ++ [a]) :=
      follows_own hf he hh
    rw [ha] at hf'
    rw [if_pos ha]
    exact logs_made h he hh hf'
  · rw [if_neg ha]
    rcases handle_or prost w.manager a with hsame | ⟨other, st, m₁, he, hh⟩
    · have hcalled : w.called prost a = w := by simp [Recorder.called, hsame]
      rw [hcalled]
      exact h
    · exact logs_made h he hh (follows_other h.follows (Handled.others he hh (Ne.symm ha)))

theorem logs_push_own (h : Logs prost old w cid past ds) (disk : Disk) (frame : AudioFrame)
    (hs : w.manager.sinkOf cid.toU8 = some s) :
    Logs prost old (w.push disk (some (s, frame))).2 cid past (ds ++ [(frame, disk)]) := by
  have hget := h.log s hs
  have hlt : s < w.sinks.length := (List.getElem?_eq_some_iff.mp hget).1
  obtain ⟨hsink, hfile⟩ := push_own h.file disk frame
  have hpush : (w.push disk (some (s, frame))).2 =
      ⟨w.manager, w.sinks.set s (logOf cid (ds ++ [(frame, disk)])),
        ((logOf cid ds).push disk w.files frame).2.2⟩ := by
    simp [Recorder.push, hget, hsink]
  rw [hpush]
  refine ⟨h.numbered, h.follows, ?_, ?_, ?_, ?_, hfile⟩
  · rw [List.length_set, h.made]
  · intro c s' sink hs' hget'
    by_cases hss : s' = s
    · subst hss
      have hc : c = cid := toU8_inj (h.numbered.inj _ _ _ hs' hs)
      rw [List.getElem?_set_self hlt] at hget'
      rw [← Option.some.inj hget', hc]
      rfl
    · rw [List.getElem?_set_ne (Ne.symm hss)] at hget'
      exact h.paths c s' sink hs' hget'
  · intro s' hs'
    obtain rfl := Option.some.inj (hs.symm.trans hs')
    exact List.getElem?_set_self hlt
  · intro hnone
    rw [hs] at hnone
    cases hnone

theorem logs_push_other (h : Logs prost old w cid past ds) (disk : Disk) (frame : AudioFrame)
    (hs : w.manager.sinkOf other.toU8 = some s) (hother : other ≠ cid)
    (hpath : logPath other ≠ logPath cid) :
    Logs prost old (w.push disk (some (s, frame))).2 cid past ds := by
  cases hget : w.sinks[s]? with
  | none => simpa [Recorder.push, hget] using h
  | some sink =>
    obtain ⟨hsame, hfiles⟩ := push_others sink disk w.files frame
    have hlt : s < w.sinks.length := (List.getElem?_eq_some_iff.mp hget).1
    have hpush : (w.push disk (some (s, frame))).2 =
        ⟨w.manager, w.sinks.set s (sink.push disk w.files frame).2.1,
          (sink.push disk w.files frame).2.2⟩ := by
      simp [Recorder.push, hget]
    rw [hpush]
    refine ⟨h.numbered, h.follows, ?_, ?_, ?_, h.unused, ?_⟩
    · rw [List.length_set, h.made]
    · intro c s' sink' hs' hget'
      by_cases hss : s' = s
      · subst hss
        rw [List.getElem?_set_self hlt] at hget'
        rw [← Option.some.inj hget', hsame]
        exact h.paths c s' sink hs' hget
      · rw [List.getElem?_set_ne (Ne.symm hss)] at hget'
        exact h.paths c s' sink' hs' hget'
    · intro s' hs'
      have hss : s' ≠ s := by
        rintro rfl
        exact hother (toU8_inj (h.numbered.inj _ _ _ hs hs'))
      rw [List.getElem?_set_ne (Ne.symm hss)]
      exact h.log s' hs'
    · have hsink : sink.path = logPath other := h.paths other s sink hs hget
      exact (hfiles _ (hsink ▸ Ne.symm hpath)).trans h.file

theorem handle_recorder : (w.handle prost a disk).2.2 = ((w.called prost a).push disk
    ((w.called prost a).manager.pushed.drop w.manager.pushed.length).head?).2 := rfl

theorem called_pushed (he : Ensured w.manager a.channel other st m₁)
    (hh : Handled prost m₁ other st a (w.manager.handle prost a.channel a.msg_id a.body)) :
    ((w.called prost a).manager.pushed.drop w.manager.pushed.length).head? = pushOf st a := by
  have hpushed : (w.called prost a).manager.pushed = w.manager.pushed ++ (pushOf st a).toList := by
    rw [← he.pushed]
    exact hh.pushed
  rw [hpushed, List.drop_left]
  cases pushOf st a <;> rfl

/-- A push is made to the sink that the channel has. -/
theorem called_sink (he : Ensured w.manager a.channel other st m₁)
    (hh : Handled prost m₁ other st a (w.manager.handle prost a.channel a.msg_id a.body))
    (hpush : pushOf st a = some (s, frame)) :
    (w.called prost a).manager.sinkOf a.channel = some s := by
  have hsink : w.manager.sinkOf a.channel = some s := by
    rw [he.sinkOf]
    exact pushOf_sink hpush
  have hafter := Handled.sinkOf he hh
  rw [hsink] at hafter
  exact hafter

theorem logs_own (hcid : (directionOf cid).isSome) (h : Logs prost old w cid past ds)
    (ha : a.channel = cid.toU8) (disk : Disk) :
    Logs prost old (w.handle prost a disk).2.2 cid (past ++ [a])
      (ds ++ ((accepted prost past a).map fun frame => (frame, disk)).toList) := by
  obtain ⟨st, m₁, he, hh⟩ := own_call prost w.manager hcid ha
  have hcalled := logs_called hcid h a
  rw [if_pos ha] at hcalled
  have hacc : (pushOf st a).map (·.2) = accepted prost past a :=
    pushOf_accepted (ha ▸ h.follows) he
  rw [handle_recorder, called_pushed he hh, ← hacc]
  cases hpush : pushOf st a with
  | none => simpa [Recorder.push] using hcalled
  | some p => exact logs_push_own hcalled disk p.2 (ha ▸ called_sink he hh hpush)

theorem logs_other (hcid : (directionOf cid).isSome) (h : Logs prost old w cid past ds)
    (ha : a.channel ≠ cid.toU8) (disk : Disk) :
    Logs prost old (w.handle prost a disk).2.2 cid past ds := by
  have hcalled := logs_called hcid h a
  rw [if_neg ha] at hcalled
  rw [handle_recorder]
  rcases handle_or prost w.manager a with hsame | ⟨other, st, m₁, he, hh⟩
  · have hpushed : (w.called prost a).manager.pushed.drop w.manager.pushed.length = [] := by
      simp [Recorder.called, hsame]
    rw [hpushed]
    exact hcalled
  · rw [called_pushed he hh]
    cases hpush : pushOf st a with
    | none => exact hcalled
    | some p =>
      have hother : other ≠ cid := by
        rintro rfl
        exact ha he.toU8.symm
      exact logs_push_other hcalled disk p.2 (he.toU8 ▸ called_sink he hh hpush) hother
        (logPath_ne hcid he.direction hother)

theorem run_logs (hcid : (directionOf cid).isSome) (xs : List Input)
    (h : Logs prost old w cid past ds) :
    Logs prost old (w.run prost xs).2 cid (past ++ (inputsOf cid.toU8 xs).map (·.1))
      (ds ++ taken prost past (inputsOf cid.toU8 xs)) := by
  induction xs generalizing w past ds with
  | nil => simpa [Recorder.run, inputsOf, taken] using h
  | cons x xs ih =>
    by_cases ha : x.1.channel = cid.toU8
    · have hinputs : inputsOf cid.toU8 (x :: xs) = x :: inputsOf cid.toU8 xs := by
        simp [inputsOf, ha]
      have hrest := ih (logs_own hcid h ha x.2)
      rw [hinputs]
      simpa [Recorder.run, taken] using hrest
    · have hinputs : inputsOf cid.toU8 (x :: xs) = inputsOf cid.toU8 xs := by
        simp [inputsOf, ha]
      rw [hinputs]
      exact ih (logs_other hcid h ha x.2)

/-! ### Reading a log file -/

def Fits (frame : AudioFrame) : Prop := frame.timestamp_us < 2 ^ 64 ∧ frame.pcm.length < 2 ^ 32

theorem length_header (frame : AudioFrame) : (header frame).length = 12 := by simp [header]

theorem length_record (frame : AudioFrame) : (record frame).length = 12 + frame.pcm.length := by
  rw [record, List.length_append, length_header]

theorem header_len (h : Fits frame) (rest : Bytes) :
    beValue (((header frame ++ rest).drop 8).take 4) = frame.pcm.length := by
  have hdrop : (header frame ++ rest).drop 8 = beBytes 4 frame.pcm.length ++ rest := by
    rw [header, List.append_assoc, List.drop_left' (length_beBytes ..)]
  rw [hdrop, List.take_left' (length_beBytes ..)]
  exact beValue_beBytes_of_lt h.2

theorem header_timestamp (h : Fits frame) (rest : Bytes) :
    beValue ((header frame ++ rest).take 8) = frame.timestamp_us := by
  rw [header, List.append_assoc, List.take_left' (length_beBytes ..)]
  exact beValue_beBytes_of_lt h.1

theorem readRecord_record (h : Fits frame) (rest : Bytes) :
    readRecord (record frame ++ rest) = (some frame, rest) := by
  have hlen := header_len h (frame.pcm ++ rest)
  have htime := header_timestamp h (frame.pcm ++ rest)
  have hwhole : record frame ++ rest = header frame ++ (frame.pcm ++ rest) := by
    rw [record, List.append_assoc]
  have hdrop : (record frame ++ rest).drop 12 = frame.pcm ++ rest := by
    rw [hwhole, List.drop_left' (length_header frame)]
  have henough : ¬ (record frame ++ rest).length < 12 + frame.pcm.length := by
    rw [List.length_append, length_record]
    omega
  rw [← hwhole] at hlen htime
  unfold readRecord
  rw [hlen, htime, if_neg henough, ← List.drop_drop, hdrop]
  simp

theorem readRecord_short (h : Fits frame) {xs ys : Bytes} (hxs : record frame = xs ++ ys)
    (hys : ys ≠ []) : readRecord xs = (none, xs) := by
  have hlt : xs.length < 12 + frame.pcm.length := by
    have hpos := List.length_pos_iff.mpr hys
    rw [← length_record, hxs, List.length_append]
    omega
  have hshort : xs.length < 12 + beValue ((xs.drop 8).take 4) := by
    rcases Nat.lt_or_ge xs.length 12 with hless | hmore
    · omega
    · have hlen := header_len h frame.pcm
      rw [show header frame ++ frame.pcm = xs ++ ys from hxs,
        List.drop_append_of_le_length (by omega),
        List.take_append_of_le_length (by simp; omega)] at hlen
      omega
  unfold readRecord
  rw [if_pos hshort]

/-- The records of a log file. -/
def recordCode : PrefixCode UInt8 AudioFrame where
  encode := record
  parse := readRecord
  Valid := Fits
  encode_ne_nil := fun frame => by
    intro hnil
    have hlen := length_record frame
    rw [hnil, List.length_nil] at hlen
    omega
  parse_nil := rfl
  parse_encode := fun frame rest h => readRecord_record h rest
  parse_short := fun frame xs ys h hxs hys => readRecord_short h hxs hys

/-- Complete records are read, and then whatever follows them. -/
theorem readLog_append (frames : List AudioFrame) (rest : Bytes) (h : ∀ f ∈ frames, Fits f) :
    ∃ fuel, readLog (recordCode.encodeAll frames ++ rest) =
      (frames ++ (drain readRecord (fuel + 1) rest).1, (drain readRecord (fuel + 1) rest).2) := by
  have hcount := recordCode.length_le_encodeAll frames
  refine ⟨(recordCode.encodeAll frames ++ rest).length - frames.length, ?_⟩
  have hdrain := recordCode.drain_encodeAll h
    (show frames.length ≤ (recordCode.encodeAll frames ++ rest).length + 1 by
      rw [List.length_append]
      omega) rest
  have hfuel : (recordCode.encodeAll frames ++ rest).length + 1 - frames.length =
      (recordCode.encodeAll frames ++ rest).length - frames.length + 1 := by
    rw [List.length_append]
    omega
  rw [hfuel] at hdrain
  exact hdrain

theorem taken_frames (prost : Prost) (past : List Message) (xs : List Input) :
    (taken prost past xs).map (·.1) = (deliveries prost past (xs.map (·.1))).map (·.1) := by
  induction xs generalizing past with
  | nil => rfl
  | cons x xs ih =>
    simp only [taken, List.map_cons, deliveries, List.map_append, ih]
    cases accepted prost past x.1 <;> rfl

theorem accepted_time (h : accepted prost past a = some frame) : frame.timestamp_us < 2 ^ 64 := by
  unfold accepted at h
  split at h
  · unfold frameOf at h
    split at h
    · split at h
      · rename_i hlen
        rw [← Option.some.inj h]
        have hlt := beValue_lt (a.body.take 8)
        rw [List.length_take, Nat.min_eq_left hlen] at hlt
        exact hlt
      · cases h
    · rw [← Option.some.inj h]
      exact Nat.two_pow_pos 64
    · cases h
  · cases h

theorem taken_time (prost : Prost) (past : List Message) (xs : List Input) :
    ∀ d ∈ taken prost past xs, d.1.timestamp_us < 2 ^ 64 := by
  induction xs generalizing past with
  | nil => simp [taken]
  | cons x xs ih =>
    intro d hd
    rcases List.mem_append.mp hd with hd | hd
    · obtain ⟨frame, hframe, rfl⟩ := Option.map_eq_some_iff.mp (Option.mem_toList.mp hd)
      exact accepted_time hframe
    · exact ih _ d hd

theorem push_manager (w : Recorder) (disk : Disk) (p : Option (Nat × AudioFrame)) :
    (w.push disk p).2.manager = w.manager := by
  unfold Recorder.push
  split
  · rfl
  · split <;> rfl

/-- The manager does with the logging sinks what it does with any. -/
theorem run_handleAll (prost : Prost) (w : Recorder) (xs : List Input) :
    ∃ calls : List Call, calls.map (·.1) = xs.map (·.1) ∧
      handleAll prost w.manager calls = ((w.run prost xs).1, (w.run prost xs).2.manager) := by
  induction xs generalizing w with
  | nil => exact ⟨[], rfl, rfl⟩
  | cons x xs ih =>
    obtain ⟨calls, hmsgs, hall⟩ := ih (w.handle prost x.1 x.2).2.2
    have hmanager : (w.handle prost x.1 x.2).2.2.manager =
        (w.manager.handle prost x.1.channel x.1.msg_id x.1.body).2 := by
      rw [handle_recorder, push_manager]
      rfl
    have hreply : (w.handle prost x.1 x.2).1 =
        (w.manager.handle prost x.1.channel x.1.msg_id x.1.body).1 := by
      rw [← @handlePush_fst prost]
      rfl
    rw [hmanager] at hall
    refine ⟨(x.1, .ok ()) :: calls, by simp [hmsgs], ?_⟩
    simp only [handleAll, handlePush_fst, hall, Recorder.run, hreply]

/-- The file gets the whole record of a frame, whose length fits its field. -/
def Whole (d : AudioFrame × Disk) : Prop :=
  (d.2.attempt d.1).Complete record ∧ d.1.pcm.length < 2 ^ 32

/-- The log file of a channel after a sequence of messages, on whichever channels. -/
structure Recording (prost : Prost) (files : Files) (cid : ChannelId) (xs : List Input) :
    Prop where
  /-- Each frame is acknowledged, whatever becomes of it. -/
  acks : ((Recorder.start files).run prost xs).1.filter (isAck cid.toU8) =
    (deliveries prost [] ((inputsOf cid.toU8 xs).map (·.1))).map fun d => ackOf prost cid.toU8 d.2
  frames : (taken prost [] (inputsOf cid.toU8 xs)).map (·.1) =
    (deliveries prost [] ((inputsOf cid.toU8 xs).map (·.1))).map (·.1)
  file : ((Recorder.start files).run prost xs).2.files (logPath cid) =
    fileOf (files (logPath cid)) (taken prost [] (inputsOf cid.toU8 xs))
  sink : ∀ s, ((Recorder.start files).run prost xs).2.manager.sinkOf cid.toU8 = some s →
    ((Recorder.start files).run prost xs).2.sinks[s]? =
      some (logOf cid (taken prost [] (inputsOf cid.toU8 xs)))
  /-- Up to the first record that is cut short the frames are read back. -/
  reads : ∀ done rest, recorded (taken prost [] (inputsOf cid.toU8 xs)) = done ++ rest →
    (∀ d ∈ done, Whole d) → ∃ more left,
      readLog (wireOf record (attempts (taken prost [] (inputsOf cid.toU8 xs)))) =
        (done.map (·.1) ++ more, left)
  whole : (∀ d ∈ recorded (taken prost [] (inputsOf cid.toU8 xs)), Whole d) →
    readLog (wireOf record (attempts (taken prost [] (inputsOf cid.toU8 xs)))) =
      ((recorded (taken prost [] (inputsOf cid.toU8 xs))).map (·.1), [])
  /-- If the file gets nothing after the cut, no other frame is read. -/
  cut : ∀ done d rest, recorded (taken prost [] (inputsOf cid.toU8 xs)) = done ++ d :: rest →
    (∀ d ∈ done, Whole d) → d.1.pcm.length < 2 ^ 32 → ¬ (d.2.attempt d.1).Complete record →
    (∀ d ∈ rest, (d.2.attempt d.1).written record = []) →
    readLog (wireOf record (attempts (taken prost [] (inputsOf cid.toU8 xs)))) =
      (done.map (·.1), (d.2.attempt d.1).written record)

theorem attempts_wire {done rest : List (AudioFrame × Disk)} (h : recorded ds = done ++ rest)
    (hdone : ∀ d ∈ done, Whole d) :
    wireOf record (attempts ds) = recordCode.encodeAll (done.map (·.1)) ++
      wireOf record (rest.map fun d => d.2.attempt d.1) := by
  have hcomplete : ∀ x ∈ done.map fun d => d.2.attempt d.1, x.Complete record := by
    intro x hx
    obtain ⟨d, hd, rfl⟩ := List.mem_map.mp hx
    exact (hdone d hd).1
  unfold attempts
  rw [h, List.map_append, wireOf_append, wireOf_complete hcomplete]
  simp [produced, PrefixCode.encodeAll, recordCode, Disk.attempt, Function.comp_def]

/-- The file is read as its whole records, and then whatever follows them. -/
theorem readLog_wire {done rest : List (AudioFrame × Disk)} (h : recorded ds = done ++ rest)
    (htime : ∀ d ∈ ds, d.1.timestamp_us < 2 ^ 64) (hdone : ∀ d ∈ done, Whole d) :
    ∃ fuel, readLog (wireOf record (attempts ds)) =
      (done.map (·.1) ++
          (drain readRecord (fuel + 1) (wireOf record (rest.map fun d => d.2.attempt d.1))).1,
        (drain readRecord (fuel + 1) (wireOf record (rest.map fun d => d.2.attempt d.1))).2) := by
  have hfits : ∀ f ∈ done.map (·.1), Fits f := by
    intro f hf
    obtain ⟨d, hd, rfl⟩ := List.mem_map.mp hf
    have hrecorded : d ∈ recorded ds := h ▸ List.mem_append_left _ hd
    exact ⟨htime d ((List.dropWhile_sublist _).subset hrecorded), (hdone d hd).2⟩
  rw [attempts_wire h hdone]
  exact readLog_append _ _ hfits

theorem cut_wire {d : AudioFrame × Disk} {rest : List (AudioFrame × Disk)}
    (hrest : ∀ d ∈ rest, (d.2.attempt d.1).written record = []) :
    wireOf record ((d :: rest).map fun d => d.2.attempt d.1) =
      (d.2.attempt d.1).written record := by
  have hnothing : wireOf record (rest.map fun d => d.2.attempt d.1) = [] := by
    apply wireOf_nothing
    intro x hx
    obtain ⟨d, hd, rfl⟩ := List.mem_map.mp hx
    exact hrest d hd
  rw [List.map_cons, ← List.singleton_append, wireOf_append, hnothing, List.append_nil]
  simp [wireOf]

/-- No frame is read from a record that is cut short. -/
theorem drain_cut {d : AudioFrame × Disk} (hfits : Fits d.1)
    (hcut : ¬ (d.2.attempt d.1).Complete record) (fuel : Nat) :
    drain readRecord (fuel + 1) ((d.2.attempt d.1).written record) =
      ([], (d.2.attempt d.1).written record) := by
  have hpart : (d.2.attempt d.1).written record <+: record (d.2.attempt d.1).item :=
    Attempt.written_prefix _
  obtain ⟨left, hleft⟩ := hpart
  have hshort : left ≠ [] := by
    rintro rfl
    apply hcut
    intro n hn
    have hlen := congrArg List.length hleft
    rw [Attempt.written, hn, List.append_nil, List.length_take] at hlen
    omega
  have hparse := readRecord_short hfits hleft.symm hshort
  rw [drain, hparse]

/-- Whatever is received and whatever the disk does. -/
theorem audio_recorded (prost : Prost) (files : Files) (cid : ChannelId)
    (hcid : (directionOf cid).isSome) (xs : List Input) : Recording prost files cid xs := by
  have hlogs := run_logs hcid xs (logs_start prost files cid)
  rw [List.nil_append, List.nil_append] at hlogs
  have htime := taken_time prost [] (inputsOf cid.toU8 xs)
  refine ⟨?_, taken_frames .., hlogs.file, hlogs.log, ?_, ?_, ?_⟩
  · obtain ⟨calls, hmsgs, hall⟩ := run_handleAll prost (.start files) xs
    have hacks := (handleAll_delivers hcid calls numbered_new (@follows_new prost _)).acks
    have hchannel : onChannel cid.toU8 calls = (inputsOf cid.toU8 xs).map (·.1) := by
      rw [onChannel, hmsgs, inputsOf, List.filter_map]
      rfl
    rw [show handleAll prost .new calls = _ from hall, hchannel] at hacks
    exact hacks
  · intro done rest hsplit hdone
    obtain ⟨fuel, hread⟩ := readLog_wire hsplit htime hdone
    exact ⟨_, _, hread⟩
  · intro hwhole
    obtain ⟨fuel, hread⟩ := readLog_wire (List.append_nil _).symm htime hwhole
    have hnil : drain readRecord (fuel + 1) [] = ([], []) := rfl
    rw [List.map_nil, show wireOf record [] = [] from rfl, hnil, List.append_nil] at hread
    exact hread
  · intro done d rest hsplit hdone hlen hcut hrest
    obtain ⟨fuel, hread⟩ := readLog_wire hsplit htime hdone
    have hmem : d ∈ recorded (taken prost [] (inputsOf cid.toU8 xs)) :=
      hsplit ▸ List.mem_append_right _ List.mem_cons_self
    have hfits : Fits d.1 := ⟨htime d ((List.dropWhile_sublist _).subset hmem), hlen⟩
    rw [cut_wire hrest, drain_cut hfits hcut, List.append_nil] at hread
    exact hread

/-- The first push cannot open the file, and the third record is cut short; the file keeps the
second frame. -/
theorem speech_recorded :
    let whole : Disk := ⟨none, none, none, none, none⟩
    let xs : List Input :=
      [(⟨5, 0x8005, [0x08, 0x01]⟩, whole), (⟨6, 0x8005, [0x08, 0x01]⟩, whole),
        (⟨5, 0x0001, [1, 2]⟩, { whole with opening := some "denied" }),
        (⟨5, 0x0000, [0, 0, 0, 0, 0, 0, 1, 0, 7]⟩, whole), (⟨6, 0x0001, [3]⟩, whole),
        (⟨5, 0x0001, [4, 5]⟩, { whole with kept := some 13 })]
    Recording openBodies (fun _ => none) .speechAudio xs ∧
      taken openBodies [] (inputsOf 5 xs) = [(⟨0, [1, 2]⟩, { whole with opening := some "denied" }),
        (⟨256, [7]⟩, whole), (⟨0, [4, 5]⟩, { whole with kept := some 13 })] ∧
      readLog (wireOf record (attempts (taken openBodies [] (inputsOf 5 xs)))) =
        ([⟨256, [7]⟩], [0, 0, 0, 0, 0, 0, 0, 0, 0, 0, 0, 2, 4]) :=
  ⟨audio_recorded openBodies _ .speechAudio rfl _, by decide, by decide +kernel⟩

end Aabox.AudioLog
