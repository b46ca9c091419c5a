import Aabox.Channels
import Aabox.ReadFrame
import Aabox.Lib.Run

/-!
# The message loop

Each turn of the loop makes a fresh `read_frame` future and polls it first, then the outbound
queues. A branch that completes drops the others' futures, the pending read among them.
-/
namespace Aabox.MessageLoop
open Aabox.Lib Aabox.Framing Aabox.Control Aabox.Nav

/-- `coming` is what the transport has yet to deliver; `handled` what `handle_frame` was given. -/
structure Loop where
  fut : ReadFut
  src : Source
  coming : List Bytes
  nav_rx : List NavInstruction
  audio_rx : List OutboundMessage
  video_rx : List OutboundMessage
  handled : List Frame
  sent : List OutboundMessage
  running : Bool
  deriving DecidableEq, Repr

inductive Event
  | arrive
  | close (tail : Tail)
  | nav (instr : NavInstruction)
  | audio (out : OutboundMessage)
  | video (out : OutboundMessage)
  | poll
  deriving DecidableEq, Repr

/-- The outbound branches, tried in their order once the read is pending. -/
def pollOutbound (s : Loop) : Option Loop :=
  match s.nav_rx, s.audio_rx, s.video_rx with
  | instr :: nav_rx, _, _ => some { s with nav_rx, sent := s.sent ++ encodeInstruction instr }
  | [], out :: audio_rx, _ => some { s with audio_rx, sent := s.sent ++ [out] }
  | [], [], out :: video_rx => some { s with video_rx, sent := s.sent ++ [out] }
  | [], [], [] => none

/-- One poll of the `select!`. -/
def pollSelect (s : Loop) : Loop :=
  match Control.poll s.fut s.src with
  | (.done f, src) => { s with src, fut := .start, handled := s.handled ++ [f] }
  | (.error _, src) => { s with src, fut := .start, running := false }
  | (.pending fut, src) =>
    match pollOutbound { s with src } with
    | some s' => { s' with fut := .start }
    | none => { s with src, fut }

def next (s : Loop) : Event → Option Loop
  | .arrive =>
    match s.coming with
    | part :: coming => some { s with coming, src := { s.src with parts := s.src.parts ++ [part] } }
    | [] => none
  | .close tail =>
    if s.coming = [] ∧ s.src.tail = .open ∧ tail ≠ .open then
      some { s with src := { s.src with tail } }
    else none
  | .nav instr => some { s with nav_rx := s.nav_rx ++ [instr] }
  | .audio out => some { s with audio_rx := s.audio_rx ++ [out] }
  | .video out => some { s with video_rx := s.video_rx ++ [out] }
  | .poll => if s.running then some (pollSelect s) else none

/-- An inbound frame sequence and the pieces it arrives in: at every frame's first byte the read
brings the whole header and nothing of the next frame. -/
structure Schedule where
  frames : List Frame
  valid : ∀ f ∈ frames, f.Valid
  parts : List Bytes
  pieces : Pieces parts
  flatten_eq : parts.flatten = encodeAll frames
  aligned : Aligned parts frames 0

def init (sch : Schedule) : Loop :=
  { fut := .start, src := ⟨[], .open⟩, coming := sch.parts, nav_rx := [], audio_rx := []
    video_rx := [], handled := [], sent := [], running := true }

/-- The bytes a pending read has taken off the transport. -/
def held : ReadFut → Bytes
  | .start => []
  | .remainder hdr got =>
    hdr.channel_id :: hdr.flags :: beBytes 2 hdr.payload_len ++
      ((hdr.total_length.map fun t => beBytes 4 t.toNat).getD []) ++ got

/-- What has been handled, what the pending read holds and what is left to read are the stream. -/
def Lossless (sch : Schedule) (s : Loop) : Prop :=
  encodeAll s.handled ++ held s.fut ++ s.src.parts.flatten ++ s.coming.flatten =
    encodeAll sch.frames

instance (sch : Schedule) (s : Loop) : Decidable (Lossless sch s) :=
  inferInstanceAs (Decidable (_ = _))

def Loop.outboundReady (s : Loop) : Prop := s.nav_rx ≠ [] ∨ s.audio_rx ≠ [] ∨ s.video_rx ≠ []

/-- The bytes the loop has at hand: held by the pending read, or waiting in the transport. -/
def Loop.atHand (s : Loop) : Bytes := held s.fut ++ s.src.parts.flatten

instance (s : Loop) : Decidable s.outboundReady := inferInstanceAs (Decidable (_ ∨ _ ∨ _))

/-- When the loop is polled with an outbound message ready, it is not in the middle of a frame. -/
def NotMidFrame (s : Loop) : Event → Prop
  | .poll => s.outboundReady → s.atHand = [] ∨ (Frame.parse s.atHand).1.isSome
  | _ => True

instance : (s : Loop) → (ev : Event) → Decidable (NotMidFrame s ev)
  | _, .poll => inferInstanceAs (Decidable (_ → _ ∨ _))
  | _, .arrive | _, .close _ | _, .nav _ | _, .audio _ | _, .video _ => isTrue trivial

/-- Nothing is lost: the handled frames are the first ones, exactly as sent, every byte is
accounted for, and once all have arrived, polling hands over the frames that are left. -/
structure Delivers (sch : Schedule) (s : Loop) : Prop where
  lossless : Lossless sch s
  handled : s.handled <+: sch.frames
  drains : s.coming = [] →
    ∃ t, Run (Steps next) s (List.replicate (sch.frames.length - s.handled.length) .poll) t ∧
      t.handled = sch.frames

variable {sch : Schedule} {s t : Loop} {f : Frame} {fs rest : List Frame} {cs ds : List Bytes}
  {tail : Tail} {k : Nat}

/-- Where the pending read stands in the frames that are still to be handled. -/
inductive Position (stream : List Bytes) : ReadFut → List Frame → Prop
  | boundary {rest : List Frame} : stream.flatten = encodeAll rest → Aligned stream rest 0 →
      Position stream .start rest
  | inside {f : Frame} {rest : List Frame} {k : Nat} : k < f.payload.length →
      stream.flatten = f.payload.drop k ++ encodeAll rest →
      Aligned stream rest (f.payload.length - k) →
      Position stream (.remainder (headerOf f) (f.payload.take k)) (f :: rest)

/-- The loop is in step with the frames it is sent. -/
structure Sync (sch : Schedule) (s : Loop) : Prop where
  pieces : Pieces (s.src.parts ++ s.coming)
  closed : s.src.tail ≠ .open → s.coming = []
  position : ∃ rest, s.handled ++ rest = sch.frames ∧ Position (s.src.parts ++ s.coming) s.fut rest
  stopped : s.running = false → s.handled = sch.frames

theorem sync_init (sch : Schedule) : Sync sch (init sch) where
  pieces := sch.pieces
  closed h := (h rfl).elim
  position := ⟨sch.frames, rfl, .boundary sch.flatten_eq sch.aligned⟩
  stopped h := by cases h

theorem held_headerOf (hf : f.Valid) (got : Bytes) :
    held (.remainder (headerOf f) got) = f.header ++ got := by
  rcases Valid.total hf with ⟨hft, t, htl⟩ | ⟨hft, htl⟩
  · simp [held, headerOf, header_of_total hft htl, htl]
  · simp [held, headerOf, header_of_no_total htl, htl]

theorem pieces_left (h : Pieces (cs ++ ds)) : Pieces cs :=
  fun c hc => h c (List.mem_append_left _ hc)

theorem pieces_right (h : Pieces (cs ++ ds)) : Pieces ds :=
  fun c hc => h c (List.mem_append_right _ hc)

/-- The remainder of a frame is either there, and the frame is returned, or the read waits for it.
-/
theorem pollRemainder_position (hp : Pieces (cs ++ ds)) (hk : k ≤ f.payload.length)
    (hflat : (cs ++ ds).flatten = f.payload.drop k ++ encodeAll rest)
    (hal : Aligned (cs ++ ds) rest (f.payload.length - k)) (hcl : tail ≠ .open → ds = []) :
    (pollRemainder (headerOf f) (f.payload.take k) ⟨cs, tail⟩ =
        (.done f, ⟨skip (f.payload.length - k) cs, tail⟩) ∧
      Position (skip (f.payload.length - k) cs ++ ds) .start rest) ∨
    (k + cs.flatten.length < f.payload.length ∧ tail = .open ∧
      pollRemainder (headerOf f) (f.payload.take k) ⟨cs, tail⟩ =
        (.pending (.remainder (headerOf f) (f.payload.take (k + cs.flatten.length))),
          ⟨[], .open⟩) ∧
      Position ds (.remainder (headerOf f) (f.payload.take (k + cs.flatten.length))) (f :: rest)) := by
  have hcs := pieces_left hp
  have hds := pieces_right hp
  have hjoin : cs.flatten ++ ds.flatten = f.payload.drop k ++ encodeAll rest := by
    rw [← List.flatten_append, hflat]
  have hlen := congrArg List.length hjoin
  simp only [List.length_append, List.length_drop] at hlen
  by_cases hfull : f.payload.length - k ≤ cs.flatten.length
  · left
    have htake : cs.flatten.take (f.payload.length - k) = f.payload.drop k := by
      rw [take_eq_take_append ds.flatten hfull, hjoin]
      exact List.take_left' (by simp)
    refine ⟨pollRemainder_frame hcs htake, ?_⟩
    rw [← skip_append hcs hds hfull]
    refine .boundary ?_ ((aligned_skip hp _ 0).mpr hal)
    rw [flatten_skip, hflat]
    exact List.drop_left' (by simp)
  · right
    have hshort : k + cs.flatten.length < f.payload.length := by omega
    have hopen : tail = .open := by
      by_contra hne
      have hnil := congrArg (fun x => (List.flatten x).length) (hcl hne)
      simp only [List.flatten_nil, List.length_nil] at hnil
      omega
    subst hopen
    have hprefix : (f.payload.drop k).take cs.flatten.length = cs.flatten :=
      take_flatten hflat (by rw [List.length_drop]; omega)
    refine ⟨hshort, rfl, pollRemainder_partial hcs hshort hprefix, ?_⟩
    have hds_eq := skip_length_append hcs hds
    refine .inside hshort ?_ ?_
    · rw [← hds_eq, flatten_skip, hflat, List.drop_append_of_le_length
        (by rw [List.length_drop]; omega),
        List.drop_drop]
    · rw [← hds_eq]
      refine (aligned_skip hp _ _).mpr ?_
      rwa [show cs.flatten.length + (f.payload.length - (k + cs.flatten.length)) =
        f.payload.length - k by omega]

theorem Position.lossless {stream : List Bytes} {fut : ReadFut} (h : Position stream fut rest)
    (hv : ∀ f ∈ rest, f.Valid) : held fut ++ stream.flatten = encodeAll rest := by
  cases h with
  | boundary hflat _ => simpa [held] using hflat
  | @inside f rest k hk hflat _ =>
    rw [held_headerOf (hv f (List.mem_cons_self ..)), hflat, encodeAll_cons, encode_eq_header,
      List.append_assoc, List.append_assoc, ← List.append_assoc (f.payload.take k),
      List.take_append_drop]

/-- A pending read that has started holds a frame that is not complete. -/
theorem Position.incomplete {stream : List Bytes} {fut : ReadFut} (h : Position stream fut rest)
    (hv : ∀ f ∈ rest, f.Valid) :
    fut = .start ∨ (held fut ≠ [] ∧ (Frame.parse (held fut)).1 = none) := by
  cases h with
  | boundary _ _ => exact .inl rfl
  | @inside f rest k hk _ _ =>
    have hf := hv f (List.mem_cons_self ..)
    have hlen := length_encode hf
    have hhdr := length_header hf
    have htake : held (.remainder (headerOf f) (f.payload.take k)) =
        f.encode.take (headerLen f.frame_type + k) := by
      rw [held_headerOf hf, encode_eq_header, ← hhdr, List.take_length_add_append]
    refine .inr ⟨?_, ?_⟩
    · rw [held_headerOf hf]
      simp [Frame.header]
    · rw [htake]
      exact parse_take_encode hf (by omega)

/-- A poll of the read in step with the frames returns the next one, waits with all that is at
hand, or finds the stream closed after the last one. -/
inductive Polled (hand : Bytes) (ds : List Bytes) (tail : Tail) :
    List Frame → Outcome × Source → Prop
  | done {f : Frame} {rest : List Frame} {left : List Bytes} : Pieces (left ++ ds) →
      Position (left ++ ds) .start rest → Polled hand ds tail (f :: rest) (.done f, ⟨left, tail⟩)
  | pending {rest : List Frame} {fut : ReadFut} : tail = .open → Position ds fut rest →
      held fut = hand → (ds = [] → rest = []) → Polled hand ds tail rest (.pending fut, ⟨[], .open⟩)
  | closed {e : ReadError} : hand = [] → ds = [] → Polled hand ds tail [] (.error e, ⟨[], tail⟩)

theorem encodeAll_eq_nil : encodeAll rest = [] ↔ rest = [] := by
  cases rest with
  | nil => simp [encodeAll]
  | cons f fs => simp [encodeAll_cons, encode_eq_header, Frame.header]

theorem polled_remainder (hp : Pieces (cs ++ ds)) (hf : f.Valid) (hk : k ≤ f.payload.length)
    (hflat : (cs ++ ds).flatten = f.payload.drop k ++ encodeAll rest)
    (hal : Aligned (cs ++ ds) rest (f.payload.length - k)) (hcl : tail ≠ .open → ds = []) :
    Polled (f.header ++ (f.payload.take k ++ cs.flatten)) ds tail (f :: rest)
      (pollRemainder (headerOf f) (f.payload.take k) ⟨cs, tail⟩) := by
  rcases pollRemainder_position hp hk hflat hal hcl with ⟨heq, hpos⟩ | ⟨hshort, hopen, heq, hpos⟩
  · rw [heq]
    exact .done ((pieces_skip (pieces_left hp) _).append (pieces_right hp)) hpos
  · rw [heq]
    have hprefix : f.payload.take (k + cs.flatten.length) = f.payload.take k ++ cs.flatten := by
      rw [List.take_add, take_flatten hflat (by rw [List.length_drop]; omega)]
    refine .pending hopen hpos ?_ ?_
    · rw [held_headerOf hf, hprefix]
    · rintro rfl
      have hlen := congrArg List.length hflat
      rw [List.append_nil, List.length_append, List.length_drop] at hlen
      omega

theorem polled_start (hp : Pieces (cs ++ ds)) (hv : ∀ f ∈ rest, f.Valid)
    (hflat : (cs ++ ds).flatten = encodeAll rest) (hal : Aligned (cs ++ ds) rest 0)
    (hcl : tail ≠ .open → ds = []) :
    Polled cs.flatten ds tail rest (pollStart ⟨cs, tail⟩) := by
  have hcs := pieces_left hp
  have hds := pieces_right hp
  by_cases hne : cs = []
  · subst hne
    have hrest : ds = [] → rest = [] := by
      rintro rfl
      exact encodeAll_eq_nil.mp (by simpa using hflat.symm)
    cases tail with
    | «open» => exact .pending rfl (.boundary hflat hal) rfl hrest
    | eof =>
      obtain rfl := hcl (by decide)
      rw [hrest rfl]
      exact .closed rfl rfl
    | failed =>
      obtain rfl := hcl (by decide)
      rw [hrest rfl]
      exact .closed rfl rfl
  · have hread : firstReadLen (cs ++ ds) 0 = firstReadLen cs 0 := by
      rw [firstReadLen, readable_append hcs hne, firstReadLen]
    have hle : firstReadLen cs 0 ≤ cs.flatten.length :=
      (Nat.min_le_right ..).trans (readable_zero_le cs)
    have hcsne : cs.flatten ≠ [] := fun h => hne (hcs.flatten_eq_nil.mp h)
    cases rest with
    | nil =>
      have hnil : cs.flatten ++ ds.flatten = [] := by
        rw [← List.flatten_append, hflat]
        rfl
      exact (hcsne (List.append_eq_nil_iff.mp hnil).1).elim
    | cons f rest =>
      have hf := hv f (List.mem_cons_self ..)
      have hlen := length_encode hf
      obtain ⟨hhdr, hover, hal⟩ := hal
      rw [hread] at hhdr hover
      rw [encodeAll_cons] at hflat
      have hpoll := pollStart_header (t := tail) ds.flatten hf hcs
        (by rw [← List.flatten_append, hflat]) hhdr
      have hp' : Pieces (skip (firstReadLen cs 0) cs ++ ds) := (pieces_skip hcs _).append hds
      have hskip := skip_append hcs hds hle
      have hhand : cs.flatten = f.header ++
          (f.payload.take (firstReadLen cs 0 - headerLen f.frame_type) ++
            (skip (firstReadLen cs 0) cs).flatten) := by
        have htake : cs.flatten.take (firstReadLen cs 0) =
            f.header ++ f.payload.take (firstReadLen cs 0 - headerLen f.frame_type) := by
          rw [take_eq_take_append ds.flatten hle, ← List.flatten_append, hflat,
            take_encode hf hhdr, List.take_append_of_le_length (by omega)]
        rw [← List.append_assoc, ← htake, flatten_skip, List.take_append_drop]
      rw [hpoll, hhand]
      refine polled_remainder hp' hf (by omega) ?_ ?_ hcl
      · rw [← hskip, flatten_skip, hflat, drop_encode hf hhdr,
          List.drop_append_of_le_length (by omega)]
      · rw [← hskip]
        refine (aligned_skip hp _ _).mpr ?_
        rwa [show firstReadLen cs 0 + (f.payload.length -
          (firstReadLen cs 0 - headerLen f.frame_type)) = 0 + f.encode.length by omega]

theorem polled (hp : Pieces (cs ++ ds)) (hv : ∀ f ∈ rest, f.Valid) {fut : ReadFut}
    (hpos : Position (cs ++ ds) fut rest) (hcl : tail ≠ .open → ds = []) :
    Polled (held fut ++ cs.flatten) ds tail rest (Control.poll fut ⟨cs, tail⟩) := by
  cases hpos with
  | boundary hflat hal => exact polled_start hp hv hflat hal hcl
  | @inside f rest k hk hflat hal =>
    have hf := hv f (List.mem_cons_self ..)
    rw [held_headerOf hf, List.append_assoc]
    exact polled_remainder hp hf (Nat.le_of_lt hk) hflat hal hcl

theorem pollOutbound_eq {s' : Loop} (h : pollOutbound s = some s') :
    s.outboundReady ∧ s'.src = s.src ∧ s'.coming = s.coming ∧ s'.handled = s.handled ∧
      s'.running = s.running := by
  unfold pollOutbound at h
  split at h <;> cases h <;> simp_all [Loop.outboundReady]

theorem pollSelect_done {src : Source} (h : Control.poll s.fut s.src = (.done f, src)) :
    pollSelect s = { s with src, fut := .start, handled := s.handled ++ [f] } := by
  rw [pollSelect, h]

theorem pollSelect_error {src : Source} {e : ReadError}
    (h : Control.poll s.fut s.src = (.error e, src)) :
    pollSelect s = { s with src, fut := .start, running := false } := by
  rw [pollSelect, h]

theorem pollSelect_wait {src : Source} {fut : ReadFut}
    (h : Control.poll s.fut s.src = (.pending fut, src))
    (hout : pollOutbound { s with src } = none) : pollSelect s = { s with src, fut } := by
  rw [pollSelect, h]
  simp only [hout]

/-- An outbound branch that wins drops the pending read. -/
theorem pollSelect_cancel {src : Source} {fut : ReadFut} {s' : Loop}
    (h : Control.poll s.fut s.src = (.pending fut, src))
    (hout : pollOutbound { s with src } = some s') :
    pollSelect s = { s' with fut := .start } := by
  rw [pollSelect, h]
  simp only [hout]

/-- The poll of the read, from a loop in step. -/
theorem Sync.polled (h : Sync sch s) :
    ∃ rest, s.handled ++ rest = sch.frames ∧ (∀ f ∈ rest, f.Valid) ∧
      Polled s.atHand s.coming s.src.tail rest (Control.poll s.fut s.src) := by
  obtain ⟨rest, hrest, hpos⟩ := h.position
  have hv : ∀ f ∈ rest, f.Valid :=
    fun f hf => sch.valid f (hrest ▸ List.mem_append_right _ hf)
  exact ⟨rest, hrest, hv, MessageLoop.polled h.pieces hv hpos h.closed⟩

theorem sync_done {left : List Bytes} (h : Sync sch s) (hr : s.running = true)
    (hrest : s.handled ++ f :: rest = sch.frames) (hleft : Pieces (left ++ s.coming))
    (hpos : Position (left ++ s.coming) .start rest) :
    Sync sch { s with src := ⟨left, s.src.tail⟩, fut := .start, handled := s.handled ++ [f] } :=
  ⟨hleft, h.closed, ⟨rest, by simpa using hrest, hpos⟩, fun hf => by simp [hr] at hf⟩

/-- A poll that cancels no frame in progress keeps the loop in step. -/
theorem sync_pollSelect (h : Sync sch s) (hr : s.running = true) (hcond : NotMidFrame s .poll) :
    Sync sch (pollSelect s) := by
  obtain ⟨rest, hrest, hv, hpolled⟩ := h.polled
  have hstopped : s.running = false → s.handled = sch.frames := h.stopped
  generalize hout : Control.poll s.fut s.src = out at hpolled
  cases hpolled with
  | done hleft hpos =>
    rw [pollSelect_done hout]
    exact sync_done h hr hrest hleft hpos
  | @pending _ fut hopen hpos hheld _ =>
    have hds := pieces_right h.pieces
    cases hsel : pollOutbound { s with src := ⟨[], .open⟩ } with
    | none =>
      rw [pollSelect_wait hout hsel]
      exact ⟨hds, fun hne => (hne rfl).elim, ⟨rest, hrest, hpos⟩, hstopped⟩
    | some s' =>
      obtain ⟨hready, hsrc, hcoming, hhandled, hrunning⟩ := pollOutbound_eq hsel
      have hnot := hcond hready
      rw [← hheld] at hnot
      obtain rfl : fut = .start := by
        rcases hpos.incomplete hv with hstart | ⟨hne, hnone⟩
        · exact hstart
        · rcases hnot with hnil | hsome
          · exact (hne hnil).elim
          · simp [hnone] at hsome
      rw [pollSelect_cancel hout hsel]
      refine ⟨?_, ?_, ⟨rest, ?_, ?_⟩, ?_⟩
      · simpa [hsrc, hcoming] using hds
      · simp [hsrc]
      · simpa [hhandled] using hrest
      · simpa [hsrc, hcoming] using hpos
      · simpa [hrunning, hhandled] using hstopped
  | closed _ hds =>
    rw [pollSelect_error hout]
    refine ⟨pieces_right h.pieces, h.closed, ⟨[], hrest, .boundary ?_ trivial⟩, fun _ => ?_⟩
    · simp [hds, encodeAll]
    · simpa using hrest

theorem sync_step (h : Sync sch s) {ev : Event} (hstep : Guard (Steps next) NotMidFrame s ev t) :
    Sync sch t := by
  obtain ⟨hnext, hcond⟩ := hstep
  unfold Steps next at hnext
  cases ev with
  | arrive =>
    cases hc : s.coming with
    | nil => simp [hc] at hnext
    | cons part coming =>
      simp only [hc, Option.some.injEq] at hnext
      subst hnext
      have happ : s.src.parts ++ [part] ++ coming = s.src.parts ++ s.coming := by simp [hc]
      refine ⟨by rw [happ]; exact h.pieces, fun hne => ?_, ?_, h.stopped⟩
      · have hnil := h.closed hne
        simp [hc] at hnil
      · rw [happ]
        exact h.position
  | close tail =>
    simp only [Option.ite_none_right_eq_some, Option.some.injEq] at hnext
    obtain ⟨⟨hc, -, -⟩, rfl⟩ := hnext
    exact ⟨h.pieces, fun _ => hc, h.position, h.stopped⟩
  | nav instr =>
    cases hnext
    exact ⟨h.pieces, h.closed, h.position, h.stopped⟩
  | audio out =>
    cases hnext
    exact ⟨h.pieces, h.closed, h.position, h.stopped⟩
  | video out =>
    cases hnext
    exact ⟨h.pieces, h.closed, h.position, h.stopped⟩
  | poll =>
    simp only [Option.ite_none_right_eq_some, Option.some.injEq] at hnext
    obtain ⟨hr, rfl⟩ := hnext
    exact sync_pollSelect h hr hcond

theorem sync_run {xs : List Event} (hrun : Run (Guard (Steps next) NotMidFrame) (init sch) xs s) :
    Sync sch s :=
  hrun.invariant (fun _ _ _ h hs => sync_step h hs) (sync_init sch)

theorem sync_lossless (h : Sync sch s) : Lossless sch s := by
  obtain ⟨rest, hrest, hpos⟩ := h.position
  have hv : ∀ f ∈ rest, f.Valid :=
    fun f hf => sch.valid f (hrest ▸ List.mem_append_right _ hf)
  have hrem := hpos.lossless hv
  rw [List.flatten_append] at hrem
  rw [Lossless, ← hrest, encodeAll_append, ← hrem]
  simp only [List.append_assoc]

/-- With everything arrived, a poll hands over the next frame, whatever is ready to go out. -/
theorem drain_step (h : Sync sch s) (hc : s.coming = [])
    (hlt : s.handled.length < sch.frames.length) :
    s.running = true ∧ Sync sch (pollSelect s) ∧ (pollSelect s).coming = [] ∧
      (pollSelect s).handled.length = s.handled.length + 1 := by
  have hr : s.running = true := by
    by_contra hr
    have hall := h.stopped (by simpa using hr)
    rw [hall] at hlt
    exact Nat.lt_irrefl _ hlt
  obtain ⟨rest, hrest, hv, hpolled⟩ := h.polled
  have hne : rest ≠ [] := by
    rintro rfl
    rw [← hrest, List.append_nil] at hlt
    exact Nat.lt_irrefl _ hlt
  generalize hout : Control.poll s.fut s.src = out at hpolled
  cases hpolled with
  | done hleft hpos =>
    rw [pollSelect_done hout]
    exact ⟨hr, sync_done h hr hrest hleft hpos, hc, by simp⟩
  | pending _ _ _ hall => exact (hne (hall hc)).elim
  | closed _ _ => exact (hne rfl).elim

theorem drain {n : Nat} (h : Sync sch s) (hc : s.coming = [])
    (hn : s.handled.length + n = sch.frames.length) :
    ∃ t, Run (Steps next) s (List.replicate n .poll) t ∧ t.handled = sch.frames := by
  induction n generalizing s with
  | zero =>
    obtain ⟨rest, hrest, -⟩ := h.position
    have hlen := congrArg List.length hrest
    rw [List.length_append] at hlen
    obtain rfl : rest = [] := List.length_eq_zero_iff.mp (by omega)
    exact ⟨s, .refl, by simpa using hrest⟩
  | succ n ih =>
    obtain ⟨hr, hsync, hc', hlen⟩ := drain_step h hc (by omega)
    obtain ⟨t, hrun, ht⟩ := ih hsync hc' (by omega)
    have hpoll : Steps next s .poll (pollSelect s) := by simp [Steps, next, hr]
    exact ⟨t, .stepL hpoll hrun, ht⟩

/-- In a run that is polled with nothing to send whenever a frame is only partly there, every
inbound frame reaches `handle_frame` once, exactly as it was sent. -/
theorem delivers_of_notMidFrame (sch : Schedule) {xs : List Event} {s : Loop}
    (hrun : Run (Guard (Steps next) NotMidFrame) (init sch) xs s) : Delivers sch s := by
  have h := sync_run hrun
  obtain ⟨rest, hrest, -⟩ := h.position
  have hlen := congrArg List.length hrest
  rw [List.length_append] at hlen
  exact ⟨sync_lossless h, ⟨rest, hrest⟩, fun hc => drain h hc (by omega)⟩

/-- One frame, delivered in a read that stops inside the payload and another with the rest. -/
def splitPing : Schedule where
  frames := [Frame.bulkControl 0 11 [8, 1]]
  valid := by
    intro f hf
    obtain rfl := List.mem_singleton.mp hf
    exact ⟨by decide, by decide⟩
  parts := [[0, 3, 0, 4, 0], [11, 8, 1]]
  pieces := by decide
  flatten_eq := by decide
  aligned := by decide

theorem delivers_splitPing :
    ∃ s, s.handled = splitPing.frames ∧ Delivers splitPing s := by
  have hrun : Run (Guard (Steps next) NotMidFrame) (init splitPing) [.arrive, .poll, .arrive, .poll]
      { init splitPing with coming := [], handled := splitPing.frames } :=
    run_guard_iff_foldlM.mpr (by decide)
  exact ⟨_, rfl, delivers_of_notMidFrame splitPing hrun⟩

/-- A navigation instruction that becomes ready between the two reads takes the first bytes of the
frame with it. -/
theorem cancelled_read_loses_bytes :
    ¬ ∀ (sch : Schedule) (xs : List Event) (s : Loop),
      Run (Steps next) (init sch) xs s → Delivers sch s := by
  intro h
  let instr : NavInstruction := ⟨[], 0, 0⟩
  have hrun : Run (Steps next) (init splitPing) [.arrive, .nav instr, .poll]
      { init splitPing with coming := [[11, 8, 1]], sent := encodeInstruction instr } :=
    run_iff_foldlM.mpr (by decide)
  exact absurd (h splitPing _ _ hrun).lossless (by decide)

end Aabox.MessageLoop
