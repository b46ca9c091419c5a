import Aabox.Channels
import Aabox.Encrypted
import Aabox.Framing

/-! Outbound messages: encryption, fragmentation, and the frames that reach the wire. -/
namespace Aabox.SendEncrypted
open Aabox.Lib Aabox.Framing Aabox.Encrypted

/-- What the transport has been given. Each write takes the next fault, if there is one: it fails
after that many bytes. -/
structure Writer where
  wire : Bytes
  faults : List (Option Nat)
  deriving DecidableEq, Repr

inductive SendError
  | encrypt (e : CryptError)
  | encryptFragment (e : CryptError)
  | writeFrame
  deriving DecidableEq, Repr

def SendError.message : SendError → String
  | .encrypt _ => "encrypt_payload"
  | .encryptFragment _ => "encrypt_payload (fragment)"
  | .writeFrame => "write frame"

def writeFrame (w : Writer) (frame : Frame) : Except SendError Unit × Writer :=
  match w.faults with
  | some n :: faults => (.error .writeFrame, ⟨w.wire ++ frame.encode.take n, faults⟩)
  | none :: faults => (.ok (), ⟨w.wire ++ frame.encode, faults⟩)
  | [] => (.ok (), ⟨w.wire ++ frame.encode, []⟩)

variable {C T R : Type} {tx : Side T} {rx : Side R}

/-- The message id and the payload: what is encrypted. -/
def plainOf (message_id : UInt16) (payload : Bytes) : Bytes :=
  beBytes 2 message_id.toNat ++ payload

def isChannelControl (channel : UInt8) (msg_id : UInt16) : Bool :=
  channel != 0 &&
    (msg_id = ControlMessageId.channelOpenRequest.toU16 ||
      msg_id = ControlMessageId.channelOpenResponse.toU16)

def buildEncryptedFrame (side : Side C) (fuel : Nat) (conn : C) (channel : UInt8) (msg_id : UInt16)
    (payload : Bytes) : Option (Except SendError Frame × C) :=
  match encryptPayload side fuel conn (plainOf msg_id payload) with
  | none => none
  | some (.error e, conn) => some (.error (.encrypt e), conn)
  | some (.ok ciphertext, conn) =>
    some (.ok {
      channel_id := channel, frame_type := .bulk, control := isChannelControl channel msg_id
      encrypted := true, total_length := none, payload := ciphertext }, conn)

def fragmentType (offset chunk_end total_plain : Nat) : FrameType :=
  if offset = 0 then .first else if chunk_end = total_plain then .last else .middle

def fragmentFrame (channel : UInt8) (offset chunk_end total_plain : Nat) (ciphertext : Bytes) :
    Frame :=
  let frame_type := fragmentType offset chunk_end total_plain
  { channel_id := channel, frame_type, control := false, encrypted := true
    total_length := if frame_type = .first then some (UInt32.ofNat total_plain) else none
    payload := ciphertext }

structure FragmentState (C : Type) where
  offset : Nat
  conn : C
  writer : Writer

def chunkEnd (offset total_plain : Nat) : Nat := min (offset + MAX_FRAGMENT_PLAINTEXT) total_plain

/-- One turn of the fragment loop. The result is `none` when the encryption does not return. -/
def fragmentTurn (side : Side C) (fuel : Nat) (channel : UInt8) (plain : Bytes)
    (s : FragmentState C) : FragmentState C ⊕ Option (Except SendError Unit × C × Writer) :=
  if s.offset < plain.length then
    let chunk_end := chunkEnd s.offset plain.length
    match encryptPayload side fuel s.conn (slice plain s.offset (chunk_end - s.offset)) with
    | none => .inr none
    | some (.error e, conn) => .inr (some (.error (.encryptFragment e), conn, s.writer))
    | some (.ok ciphertext, conn) =>
      match writeFrame s.writer
          (fragmentFrame channel s.offset chunk_end plain.length ciphertext) with
      | (.error e, writer) => .inr (some (.error e, conn, writer))
      | (.ok (), writer) => .inl ⟨chunk_end, conn, writer⟩
  else .inr (some (.ok (), s.conn, s.writer))

def sendEncrypted (side : Side C) (fuel : Nat) (conn : C) (w : Writer) (out : OutboundMessage) :
    Option (Except SendError Unit × C × Writer) :=
  let plain := plainOf out.message_id out.payload
  if plain.length ≤ MAX_FRAGMENT_PLAINTEXT then
    match buildEncryptedFrame side fuel conn out.channel out.message_id out.payload with
    | none => none
    | some (.error e, conn) => some (.error e, conn, w)
    | some (.ok frame, conn) =>
      match writeFrame w frame with
      | (.error e, w) => some (.error e, conn, w)
      | (.ok (), w) => some (.ok (), conn, w)
  else (loop (fragmentTurn side fuel out.channel plain) fuel ⟨0, conn, w⟩).join

/-- One frame on the wire, and the plaintext chunk it carries. -/
structure Fragment (out : OutboundMessage) (sent : Frame × Bytes) : Prop where
  pos : 1 ≤ sent.2.length
  le : sent.2.length ≤ MAX_FRAGMENT_PLAINTEXT
  full : sent.1.frame_type = .first ∨ sent.1.frame_type = .middle →
    sent.2.length = MAX_FRAGMENT_PLAINTEXT
  channel : sent.1.channel_id = out.channel
  encrypted : sent.1.encrypted = true
  total : sent.1.total_length.map (·.toNat) =
    if sent.1.frame_type = .first then some (plainOf out.message_id out.payload).length else none
  valid : sent.1.Valid

/-- The frames of one message: a single BULK frame, or FIRST, MIDDLE frames and LAST. -/
structure Fragments (out : OutboundMessage) (sent : List (Frame × Bytes)) : Prop where
  each : ∀ p ∈ sent, Fragment out p
  flatten : (sent.map (·.2)).flatten = plainOf out.message_id out.payload
  single : (plainOf out.message_id out.payload).length ≤ MAX_FRAGMENT_PLAINTEXT →
    sent.map (·.1.frame_type) = [.bulk]
  several : MAX_FRAGMENT_PLAINTEXT < (plainOf out.message_id out.payload).length →
    ∃ k, sent.map (·.1.frame_type) = .first :: List.replicate k .middle ++ [.last]

/-- The records that carry a list of fragments. -/
def records (sent : List (Frame × Bytes)) : List (Bytes × Bytes) :=
  sent.map fun p => (p.1.payload, p.2)

variable {layer : RecordLayer tx rx} {t t' : T} {r : R} {fuel : Nat} {w w' : Writer} {f : Frame}
  {out : OutboundMessage} {sent : List (Frame × Bytes)} {plain cipher : Bytes}

theorem writeFrame_ok (h : writeFrame w f = (.ok (), w')) : w'.wire = w.wire ++ f.encode := by
  unfold writeFrame at h
  split at h <;> cases h <;> rfl

/-- The chunk of the plaintext that the turn at `offset` sends. -/
def chunkAt (plain : Bytes) (offset : Nat) : Bytes :=
  slice plain offset (chunkEnd offset plain.length - offset)

/-- A turn that goes on has encrypted a chunk and written its frame. -/
theorem fragmentTurn_inl {channel : UInt8} {s s' : FragmentState T}
    (h : fragmentTurn tx fuel channel plain s = .inl s') :
    s.offset < plain.length ∧ ∃ cipher conn writer,
      encryptPayload tx fuel s.conn (chunkAt plain s.offset) = some (.ok cipher, conn) ∧
      writeFrame s.writer (fragmentFrame channel s.offset (chunkEnd s.offset plain.length)
        plain.length cipher) = (.ok (), writer) ∧
      s' = ⟨chunkEnd s.offset plain.length, conn, writer⟩ := by
  unfold fragmentTurn at h
  split at h
  · rename_i hlt
    dsimp only at h
    split at h
    · cases h
    · cases h
    · rename_i cipher conn henc
      split at h
      · cases h
      · rename_i writer hwrite
        cases h
        exact ⟨hlt, cipher, conn, writer, henc, hwrite, rfl⟩
  · cases h

/-- The last turn finds nothing left to send, or fails with or after an encryption. -/
theorem fragmentTurn_inr {channel : UInt8} {s : FragmentState T}
    {res : Except SendError Unit × T × Writer}
    (h : fragmentTurn tx fuel channel plain s = .inr (some res)) :
    (plain.length ≤ s.offset ∧ res = (.ok (), s.conn, s.writer)) ∨
      (∃ e, res.1 = .error e) ∧
        ∃ enc, encryptPayload tx fuel s.conn (chunkAt plain s.offset) = some (enc, res.2.1) := by
  unfold fragmentTurn at h
  split at h
  · dsimp only at h
    split at h
    · cases h
    · rename_i e conn henc
      cases h
      exact .inr ⟨⟨_, rfl⟩, .error e, henc⟩
    · rename_i cipher conn henc
      split at h
      · cases h
        exact .inr ⟨⟨_, rfl⟩, .ok cipher, henc⟩
      · cases h
  · rename_i hge
    cases h
    exact .inl ⟨Nat.le_of_not_lt hge, rfl⟩

/-- With less than 4 KiB of overhead the 16-bit length field does not truncate. -/
theorem payload_fits {chunk : Bytes} (hle : chunk.length ≤ MAX_FRAGMENT_PLAINTEXT)
    (hc : cipher.length < chunk.length + 4096) : cipher.length ≤ 65535 := by
  unfold MAX_FRAGMENT_PLAINTEXT at hle
  omega

/-- How far the fragment loop is, told by the frame types it has written. -/
inductive Progress (total : Nat) : Nat → List FrameType → Prop
  | start : Progress total 0 []
  | inside {offset : Nat} (k : Nat) : 0 < offset → offset < total →
      Progress total offset (.first :: List.replicate k .middle)
  | finished (k : Nat) : Progress total total (.first :: List.replicate k .middle ++ [.last])

/-- The fragments written so far carry the plaintext up to `offset`. -/
structure Written (layer : RecordLayer tx rx) (r : R) (w : Writer) (out : OutboundMessage)
    (s : FragmentState T) (sent : List (Frame × Bytes)) : Prop where
  wire : s.writer.wire = w.wire ++ encodeAll (sent.map (·.1))
  flatten : (sent.map (·.2)).flatten = (plainOf out.message_id out.payload).take s.offset
  each : ∀ p ∈ sent, Fragment out p
  inFlight : layer.inFlight s.conn r (records sent)
  queued : layer.queued s.conn = []
  progress : Progress (plainOf out.message_id out.payload).length s.offset
    (sent.map (·.1.frame_type))

theorem progress_step {total offset : Nat} {types : List FrameType}
    (hlong : MAX_FRAGMENT_PLAINTEXT < total) (h : Progress total offset types)
    (hlt : offset < total) :
    Progress total (chunkEnd offset total)
      (types ++ [fragmentType offset (chunkEnd offset total) total]) := by
  have hpos : 0 < MAX_FRAGMENT_PLAINTEXT := by decide
  unfold chunkEnd
  cases h with
  | start =>
    rw [Nat.zero_add, Nat.min_eq_left (Nat.le_of_lt hlong)]
    exact .inside 0 hpos hlong
  | inside k h0 _ =>
    have hne : offset ≠ 0 := by omega
    by_cases hend : offset + MAX_FRAGMENT_PLAINTEXT < total
    · rw [Nat.min_eq_left (Nat.le_of_lt hend), fragmentType, if_neg hne, if_neg (by omega),
        List.cons_append, ← List.replicate_succ']
      exact .inside (k + 1) (by omega) hend
    · rw [Nat.min_eq_right (Nat.le_of_not_lt hend), fragmentType, if_neg hne, if_pos rfl]
      exact .finished k
  | finished k => omega

theorem length_chunkAt {offset : Nat} (hlt : offset < plain.length) :
    (chunkAt plain offset).length = chunkEnd offset plain.length - offset := by
  unfold chunkAt chunkEnd
  exact length_slice (by omega)

theorem fragment_frame {chunk : Bytes} {offset : Nat}
    (hlt : offset < (plainOf out.message_id out.payload).length)
    (hlong : MAX_FRAGMENT_PLAINTEXT < (plainOf out.message_id out.payload).length)
    (hchunk : chunk.length = chunkEnd offset (plainOf out.message_id out.payload).length - offset)
    (hsize : (plainOf out.message_id out.payload).length < 2 ^ 32)
    (hover : cipher.length < chunk.length + 4096) :
    Fragment out (fragmentFrame out.channel offset
      (chunkEnd offset (plainOf out.message_id out.payload).length)
      (plainOf out.message_id out.payload).length cipher, chunk) where
  pos := by
    have hpos : 0 < MAX_FRAGMENT_PLAINTEXT := by decide
    unfold chunkEnd at hchunk
    dsimp only
    omega
  le := by
    unfold chunkEnd at hchunk
    dsimp only
    omega
  full := by
    dsimp only [fragmentFrame, fragmentType]
    unfold chunkEnd at hchunk ⊢
    split
    · omega
    · split
      · simp
      · omega
  channel := rfl
  encrypted := rfl
  total := by
    by_cases hfirst : fragmentType offset
        (chunkEnd offset (plainOf out.message_id out.payload).length)
        (plainOf out.message_id out.payload).length = .first
    · simpa [fragmentFrame, hfirst] using hsize
    · simp [fragmentFrame, hfirst]
  valid := by
    have hle : chunk.length ≤ MAX_FRAGMENT_PLAINTEXT := by
      unfold chunkEnd at hchunk
      omega
    refine ⟨payload_fits hle hover, ?_⟩
    dsimp only [fragmentFrame]
    split <;> simp_all

theorem plainOf_length (message_id : UInt16) (payload : Bytes) :
    (plainOf message_id payload).length = payload.length + 2 := by
  simp [plainOf]
  omega

/-- A turn that goes on has written one more fragment. -/
theorem written_step {s s' : FragmentState T}
    (hlong : MAX_FRAGMENT_PLAINTEXT < (plainOf out.message_id out.payload).length)
    (hsize : (plainOf out.message_id out.payload).length < 2 ^ 32)
    (h : ∃ sent, Written layer r w out s sent)
    (hstep : fragmentTurn tx fuel out.channel (plainOf out.message_id out.payload) s = .inl s') :
    ∃ sent, Written layer r w out s' sent := by
  obtain ⟨sent, h⟩ := h
  obtain ⟨hlt, cipher, conn, writer, henc, hwrite, rfl⟩ := fragmentTurn_inl hstep
  have hchunk : (chunkAt (plainOf out.message_id out.payload) s.offset).length ≤
      MAX_FRAGMENT_PLAINTEXT := by
    rw [length_chunkAt hlt, chunkEnd]
    omega
  obtain ⟨hover, hq, hin⟩ := encryptPayload_ok h.inFlight h.queued hchunk henc
  have hfragment := fragment_frame hlt hlong (length_chunkAt hlt) hsize hover
  refine ⟨_, ?_, ?_, List.forall_mem_append.mpr ⟨h.each, List.forall_mem_singleton.mpr hfragment⟩,
    ?_, hq, ?_⟩
  · rw [writeFrame_ok hwrite, h.wire, List.map_append, encodeAll_append, List.append_assoc]
    simp [encodeAll]
  · have hle' : s.offset ≤ chunkEnd s.offset (plainOf out.message_id out.payload).length := by
      unfold chunkEnd
      omega
    simp only [List.map_append, List.flatten_append, h.flatten, List.map_cons, List.map_nil,
      List.flatten_cons, List.flatten_nil, List.append_nil, chunkAt, slice]
    rw [← List.take_add, Nat.add_sub_cancel' hle']
  · rw [records, List.map_append]
    exact hin
  · rw [List.map_append]
    exact progress_step hlong h.progress hlt

theorem written_done {s : FragmentState T}
    (h : Written layer r w out s sent)
    (hstep : fragmentTurn tx fuel out.channel (plainOf out.message_id out.payload) s =
      .inr (some (.ok (), t', w'))) :
    s.conn = t' ∧ s.writer = w' ∧ s.offset = (plainOf out.message_id out.payload).length := by
  rcases fragmentTurn_inr hstep with ⟨hge, hres⟩ | ⟨⟨e, he⟩, _⟩
  · cases hres
    refine ⟨rfl, rfl, ?_⟩
    have hprogress := h.progress
    generalize s.offset = offset at hprogress hge
    generalize sent.map (·.1.frame_type) = types at hprogress
    cases hprogress with
    | start => simp [plainOf_length] at hge
    | inside k _ hlt => exact (Nat.not_lt.mpr hge hlt).elim
    | finished k => rfl
  · cases he

/-- What a successful send has put on the wire, and what it has left for the peer to open. -/
theorem sendEncrypted_sent (hin : layer.inFlight t r []) (hq : layer.queued t = [])
    (hsize : (plainOf out.message_id out.payload).length < 2 ^ 32)
    (h : sendEncrypted tx fuel t w out = some (.ok (), t', w')) :
    ∃ sent, w'.wire = w.wire ++ encodeAll (sent.map (·.1)) ∧ Fragments out sent ∧
      layer.inFlight t' r (records sent) := by
  unfold sendEncrypted at h
  by_cases hshort : (plainOf out.message_id out.payload).length ≤ MAX_FRAGMENT_PLAINTEXT
  · simp only [hshort, if_true, buildEncryptedFrame] at h
    cases henc : encryptPayload tx fuel t (plainOf out.message_id out.payload) with
    | none => simp [henc] at h
    | some res =>
      obtain ⟨e | cipher, conn⟩ := res
      · simp [henc] at h
      · simp only [henc] at h
        split at h
        · simp at h
        · rename_i writer hwrite
          obtain ⟨rfl, rfl⟩ : conn = t' ∧ writer = w' := by simpa using h
          obtain ⟨hover, -, hin'⟩ := encryptPayload_ok hin hq hshort henc
          refine ⟨[(⟨out.channel, .bulk, isChannelControl out.channel out.message_id, true, none,
            cipher⟩, plainOf out.message_id out.payload)], ?_, ⟨?_, ?_, ?_, ?_⟩, hin'⟩
          · simp [writeFrame_ok hwrite, encodeAll]
          · intro p hp
            obtain rfl := List.mem_singleton.mp hp
            refine ⟨?_, hshort, by simp, rfl, rfl, rfl, payload_fits hshort hover, by simp⟩
            rw [plainOf_length]
            omega
          · simp
          · exact fun _ => rfl
          · exact fun hlong => (Nat.not_lt.mpr hshort hlong).elim
  · have hlong := Nat.lt_of_not_le hshort
    simp only [hshort, if_false] at h
    have hstart : Written layer r w out ⟨0, t, w⟩ [] :=
      ⟨by simp [encodeAll], by simp, by simp, hin, hq, .start⟩
    have hrule := loop_rule
      (I := fun s => ∃ sent, Written layer r w out s sent)
      (Q := fun res => ∀ t' w', res = some (.ok (), t', w') → ∃ sent, Written layer r w out
        ⟨(plainOf out.message_id out.payload).length, t', w'⟩ sent)
      ⟨[], hstart⟩ (fun _ _ hs hstep => written_step hlong hsize hs hstep) ?_
      (Option.join_eq_some_iff.mp h)
    · obtain ⟨sent, hw⟩ := hrule t' w' rfl
      refine ⟨sent, hw.wire, ⟨hw.each, ?_, fun hle => (hshort hle).elim, fun _ => ?_⟩, hw.inFlight⟩
      · rw [hw.flatten, List.take_length]
      · have hprogress := hw.progress
        dsimp only at hprogress
        generalize sent.map (·.1.frame_type) = types at hprogress
        cases hprogress with
        | inside k _ hlt => exact (Nat.lt_irrefl _ hlt).elim
        | finished k => exact ⟨k, rfl⟩
    · rintro ⟨offset, conn, writer⟩ res ⟨sent, hw⟩ hstep t' w' rfl
      obtain ⟨rfl, rfl, hoffset⟩ := written_done hw hstep
      obtain rfl : offset = _ := hoffset
      exact ⟨sent, hw⟩

/-- Outbound fragmentation is lossless: what a successful send writes is one BULK frame, or FIRST,
MIDDLE frames and LAST, and the peer decrypts their payloads to the message. -/
theorem sendEncrypted_lossless (layer : RecordLayer tx rx) (out : OutboundMessage)
    (hset : layer.Settled t r []) (hq : layer.queued t = [])
    (hsize : (plainOf out.message_id out.payload).length < 2 ^ 32)
    (h : sendEncrypted tx fuel t w out = some (.ok (), t', w')) (hcalm : ¬ layer.alerted t') :
    ∃ sent, w'.wire = w.wire ++ encodeAll (sent.map (·.1)) ∧ Fragments out sent ∧
      ∃ enough, ∀ fuel' ≥ enough, ∃ r',
        decryptAll rx fuel' r (sent.map (·.1.payload)) = some (.ok (sent.map (·.2)), r') ∧
          layer.Settled t' r' [] := by
  obtain ⟨sent, hwire, hfragments, hin⟩ := sendEncrypted_sent hset.inFlight hq hsize h
  refine ⟨sent, hwire, hfragments, 65536, fun fuel' hfuel => ?_⟩
  have hshort : ∀ rec ∈ records sent, rec.1.length < fuel' ∧ rec.2.length < fuel' := by
    intro rec hrec
    obtain ⟨p, hp, rfl⟩ := List.mem_map.mp hrec
    have hfits := (hfragments.each p hp).valid.payload_le
    have hle := (hfragments.each p hp).le
    unfold MAX_FRAGMENT_PLAINTEXT at hle
    dsimp only
    omega
  have hall := decryptAll_ok ⟨hin, hset.taken, hset.opened⟩ hcalm hshort
  simpa [records, Function.comp_def] using hall

/-- What encryptions keep of a connection, sending a message keeps, whether or not it succeeds. -/
theorem sendEncrypted_keeps {P : T → Prop} (hkeep : tx.SendsKeep P)
    {res : Except SendError Unit × T × Writer} (ht : P t)
    (h : sendEncrypted tx fuel t w out = some res) : P res.2.1 := by
  unfold sendEncrypted at h
  dsimp only at h
  split at h
  · rw [buildEncryptedFrame] at h
    cases henc : encryptPayload tx fuel t (plainOf out.message_id out.payload) with
    | none => simp [henc] at h
    | some enc =>
      have hconn := encryptPayload_keeps hkeep ht henc
      obtain ⟨e | cipher, conn⟩ := enc
      · simp only [henc] at h
        cases h
        exact hconn
      · simp only [henc] at h
        split at h <;> cases h <;> exact hconn
  · let Q : Option (Except SendError Unit × T × Writer) → Prop :=
      fun res => ∀ x, res = some x → P x.2.1
    have hrule : Q (some res) := by
      refine loop_rule (Q := Q) (I := fun s => P s.conn) ht ?_ ?_
        (Option.join_eq_some_iff.mp h)
      · intro s s' hs hstep
        obtain ⟨_, cipher, conn, writer, henc, _, rfl⟩ := fragmentTurn_inl hstep
        exact encryptPayload_keeps hkeep hs henc
      · rintro s _ hs hstep x rfl
        rcases fragmentTurn_inr hstep with ⟨_, rfl⟩ | ⟨_, enc, henc⟩
        · exact hs
        · exact encryptPayload_keeps hkeep hs henc
    exact hrule res rfl

/-- A session whose records carry their plaintext in the clear. -/
structure ClearConn where
  queued : Bytes
  taken : Bytes
  opened : Bytes
  deriving DecidableEq, Repr

def clearRecord (plain : Bytes) : Bytes := 23 :: 3 :: 3 :: beBytes 2 plain.length ++ plain

def clearSide : Side ClearConn where
  tls_writer_write_all c plain :=
    if plain.length ≤ 16384 then (.ok (), { c with queued := c.queued ++ clearRecord plain })
    else (.error .other, c)
  tls_reader_read c n :=
    if c.opened = [] then (.error .wouldBlock, c)
    else (.ok (c.opened.take n), { c with opened := c.opened.drop n })
  tls_write_records c := (.ok c.queued, { c with queued := [] })
  tls_read_records c bs := (.ok bs.length, { c with taken := c.taken ++ bs })
  tls_process_new_packets c :=
    if c.taken = clearRecord (c.taken.drop 5) then
      (.ok (), { c with taken := [], opened := c.opened ++ c.taken.drop 5 })
    else (.error (), c)

def clearLayer : RecordLayer clearSide clearSide where
  queued := ClearConn.queued
  alerted _ := False
  taken := ClearConn.taken
  opened := ClearConn.opened
  inFlight _ _ recs := ∀ p ∈ recs, p.1 = clearRecord p.2
  write_all := by
    intro t t' r recs plain hin _ h
    dsimp only [clearSide] at h
    split at h
    · cases h
      refine ⟨clearRecord plain, rfl, by simp [clearRecord]; omega, ?_⟩
      intro p hp
      rcases List.mem_append.mp hp with hp | hp
      · exact hin p hp
      · obtain rfl := List.mem_singleton.mp hp
        rfl
    · cases h
  write_records := by
    intro t t' bs h
    cases h
    exact ⟨by simp, id, fun _ _ h => h⟩
  alerted_write_all _ := id
  alerted_write_records _ := id
  read_records := by
    intro t r recs rest plain hin _ hopened hne
    refine ⟨rest.length, _, rfl, List.length_pos_iff.mpr hne, ?_, hopened, hin⟩
    rw [List.take_length]
  process := by
    intro t r recs plain hin _ hopened
    have htaken : r.taken = clearRecord plain := hin _ (List.mem_cons_self ..)
    have hdrop : r.taken.drop 5 = plain := by
      rw [htaken]
      rfl
    refine ⟨{ r with taken := [], opened := plain }, ?_, rfl, rfl, ?_⟩
    · simp only [clearSide, hdrop, hopened, List.nil_append]
      rw [if_pos htaken]
    · exact fun p hp => hin p (List.mem_cons_of_mem _ hp)
  read := by
    intro t r recs n hin _ hn hne
    refine ⟨r.opened.take n, { r with opened := r.opened.drop n }, ?_, ?_, ?_, rfl, hin⟩
    · simp only [clearSide, if_neg hne]
    · have hn' : n ≠ 0 := by omega
      simpa using ⟨hn', hne⟩
    · simp
  read_empty := by
    intro t r recs n hin _ _ hnil
    refine ⟨r, ?_, hnil, rfl, hin⟩
    simp only [clearSide, if_pos hnil]

theorem clear_duplex : clearLayer.Duplex where
  write_all := by
    intro t r r' recs plain res hin h
    dsimp only [clearSide] at h
    split at h <;> cases h <;> exact ⟨hin, rfl, rfl⟩
  write_records := by
    intro t r r' recs res hin h
    cases h
    exact ⟨hin, rfl, rfl⟩

/-! ### A message of several fragments over the clear session -/

variable {c : ClearConn}

variable (fuel) in
theorem clear_encrypt (hq : c.queued = []) (hlen : plain.length ≤ 16384) :
    encryptPayload clearSide (fuel + 2) c plain = some (.ok (clearRecord plain), c) := by
  obtain ⟨queued, taken, opened⟩ := c
  cases hq
  simp only [encryptPayload, clearSide, if_pos hlen, List.nil_append]
  rfl

theorem writeFrame_faultless (hw : w.faults = []) :
    writeFrame w f = (.ok (), ⟨w.wire ++ f.encode, []⟩) := by rw [writeFrame, hw]

variable (fuel w out) in
/-- On a transport without faults the fragment loop sends all of the plaintext. -/
theorem clear_sends (hq : c.queued = []) (hw : w.faults = [])
    (hlong : MAX_FRAGMENT_PLAINTEXT < (plainOf out.message_id out.payload).length)
    (hfuel : (plainOf out.message_id out.payload).length < fuel + 2) :
    ∃ w', sendEncrypted clearSide (fuel + 2) c w out = some (.ok (), c, w') := by
  let plain := plainOf out.message_id out.payload
  have hturn : ∀ s : FragmentState ClearConn, s.conn = c ∧ s.writer.faults = [] →
      s.offset < plain.length → ∃ w', w'.faults = [] ∧
        fragmentTurn clearSide (fuel + 2) out.channel plain s =
          .inl ⟨chunkEnd s.offset plain.length, c, w'⟩ := by
    rintro ⟨offset, conn, writer⟩ ⟨hconn, hfaults⟩ hlt
    obtain rfl : conn = c := hconn
    have hchunk : (chunkAt plain offset).length ≤ 16384 := by
      rw [length_chunkAt hlt, chunkEnd, MAX_FRAGMENT_PLAINTEXT]
      omega
    have henc := clear_encrypt fuel hq hchunk
    rw [chunkAt] at henc
    simp only [fragmentTurn, if_pos hlt, henc, writeFrame_faultless hfaults]
    exact ⟨_, rfl, rfl⟩
  have htotal : ∃ res, loop (fragmentTurn clearSide (fuel + 2) out.channel plain) (fuel + 2)
      ⟨0, c, w⟩ = some res ∧ ∃ w', res = some (.ok (), c, w') := by
    refine loop_total (I := fun s => s.conn = c ∧ s.writer.faults = [])
      (fun s => plain.length - s.offset) ⟨rfl, hw⟩ ?_ ?_ (by simpa using hfuel)
    · intro s s' hs hstep
      obtain ⟨hlt, -⟩ := fragmentTurn_inl hstep
      obtain ⟨w', hfaults, hnext⟩ := hturn s hs hlt
      cases hnext.symm.trans hstep
      refine ⟨⟨rfl, hfaults⟩, ?_⟩
      dsimp only [chunkEnd, MAX_FRAGMENT_PLAINTEXT]
      omega
    · rintro ⟨offset, conn, writer⟩ res ⟨hconn, hfaults⟩ hstep
      obtain rfl : conn = c := hconn
      rcases Nat.lt_or_ge offset plain.length with hlt | hge
      · obtain ⟨w', -, hnext⟩ := hturn ⟨offset, conn, writer⟩ ⟨rfl, hfaults⟩ hlt
        cases hnext.symm.trans hstep
      · rw [fragmentTurn, if_neg (Nat.not_lt.mpr hge)] at hstep
        cases hstep
        exact ⟨_, rfl⟩
  obtain ⟨res, hloop, w', rfl⟩ := htotal
  refine ⟨w', ?_⟩
  simp only [sendEncrypted, if_neg (Nat.not_le.mpr hlong)]
  rw [hloop]
  rfl

/-- Every fragment but the last is full. -/
theorem fragments_length (h : Fragments out sent) {k : Nat}
    (htypes : sent.map (·.1.frame_type) = .first :: List.replicate k .middle ++ [.last]) :
    ∃ n, 1 ≤ n ∧ n ≤ MAX_FRAGMENT_PLAINTEXT ∧
      (plainOf out.message_id out.payload).length = (k + 1) * MAX_FRAGMENT_PLAINTEXT + n := by
  obtain ⟨init, rest, rfl, hinit, hrest⟩ := List.map_eq_append_iff.mp htypes
  obtain ⟨p, rfl, -⟩ := List.map_eq_singleton_iff.mp hrest
  have hlast := h.each p (by simp)
  refine ⟨p.2.length, hlast.pos, hlast.le, ?_⟩
  have hfull : ∀ n ∈ init.map (·.2.length), n = MAX_FRAGMENT_PLAINTEXT := by
    intro n hn
    obtain ⟨q, hq, rfl⟩ := List.mem_map.mp hn
    refine (h.each q (List.mem_append_left _ hq)).full ?_
    have htype : q.1.frame_type ∈ init.map (·.1.frame_type) := List.mem_map_of_mem hq
    rw [hinit] at htype
    rcases List.mem_cons.mp htype with hfirst | hmiddle
    · exact .inl hfirst
    · exact .inr (List.eq_of_mem_replicate hmiddle)
  have hcount : init.length = k + 1 := by simpa using congrArg List.length hinit
  have hsum : (init.map (·.2.length)).sum = (k + 1) * MAX_FRAGMENT_PLAINTEXT := by
    rw [List.eq_replicate_of_mem hfull, List.length_map, hcount, List.sum_replicate_nat]
  rw [← h.flatten, List.map_append, List.flatten_append, List.length_append, List.length_flatten,
    List.map_map]
  simpa [Function.comp_def] using hsum

/-- A message of 15874 bytes goes out as a FIRST, a MIDDLE and a LAST frame. -/
theorem three_fragments_lossless : ∃ (out : OutboundMessage) (w' : Writer)
    (sent : List (Frame × Bytes)), out.payload.length = 15872 ∧
      w'.wire = encodeAll (sent.map (·.1)) ∧
      sendEncrypted clearSide 16000 ⟨[], [], []⟩ ⟨[], []⟩ out =
        some (.ok (), ⟨[], [], []⟩, w') ∧
      sent.map (·.1.frame_type) = [.first, .middle, .last] ∧
      ∃ enough, ∀ fuel' ≥ enough, ∃ r', decryptAll clearSide fuel' ⟨[], [], []⟩
        (sent.map (·.1.payload)) = some (.ok (sent.map (·.2)), r') := by
  obtain ⟨zeros, hz⟩ : ∃ zeros : Bytes, zeros.length = 15872 :=
    ⟨List.replicate 15872 0, List.length_replicate⟩
  have hplain : (plainOf 12 zeros).length = 15874 := by rw [plainOf_length, hz]
  have hempty : clearLayer.Settled ⟨[], [], []⟩ ⟨[], [], []⟩ [] := by
    refine ⟨?_, rfl, rfl⟩
    intro p hp
    cases hp
  obtain ⟨w', hsend⟩ := clear_sends 15998 ⟨[], []⟩ ⟨0, 12, zeros⟩ (c := ⟨[], [], []⟩) rfl rfl
    (by rw [hplain]; decide) (by rw [hplain]; decide)
  obtain ⟨sent, hwire, hfragments, enough, hdec⟩ :=
    sendEncrypted_lossless clearLayer ⟨0, 12, zeros⟩ hempty rfl (by rw [hplain]; decide) hsend id
  have htypes : sent.map (·.1.frame_type) = [.first, .middle, .last] := by
    obtain ⟨k, htypes⟩ := hfragments.several (by rw [hplain]; decide)
    obtain ⟨n, hpos, hle, hlen⟩ := fragments_length hfragments htypes
    rw [hplain, MAX_FRAGMENT_PLAINTEXT] at hlen
    unfold MAX_FRAGMENT_PLAINTEXT at hle
    obtain rfl : k = 1 := by omega
    exact htypes
  refine ⟨_, w', sent, hz, hwire, hsend, htypes, enough, fun fuel' hfuel => ?_⟩
  obtain ⟨r', hall, -⟩ := hdec fuel' hfuel
  exact ⟨r', hall⟩

end Aabox.SendEncrypted
