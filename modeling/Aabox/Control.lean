import Aabox.Framing
import Aabox.Lib.Chunks

/-!
# Reading one frame off the transport

`read_frame` is a future with two await points: a single read of up to 4096 bytes, and the
`read_exact` of the payload's remainder. What it has read so far lives in the future itself.
-/
namespace Aabox.Control
open Aabox.Lib Aabox.Framing

inductive ReadError
  | firstRead
  | eof
  | headerShort (n : Nat)
  | totalLengthShort (n : Nat)
  | remainder
  deriving DecidableEq, Repr

def ReadError.message : ReadError → String
  | .firstRead => "read first chunk"
  | .eof => "first read returned 0 bytes (EOF) — host disconnected before sending data"
  | .headerShort n => s!"first read returned {n} bytes — too few for frame header"
  | .totalLengthShort n => s!"first frame needs total_length but only got {n} bytes"
  | .remainder => "read frame payload remainder"

/-- What a read finds once the pieces that have arrived are used up. -/
inductive Tail
  | open | eof | failed
  deriving DecidableEq, Repr

structure Source where
  parts : List Bytes
  tail : Tail
  deriving DecidableEq, Repr

structure Header where
  channel_id : UInt8
  flags : UInt8
  frame_type : FrameType
  total_length : Option UInt32
  payload_len : Nat
  deriving DecidableEq, Repr

/-- The locals a pending `read_frame` holds across its await points. -/
inductive ReadFut
  | start
  | remainder (hdr : Header) (got : Bytes)
  deriving DecidableEq, Repr

inductive Outcome
  | pending (fut : ReadFut)
  | done (frame : Frame)
  | error (e : ReadError)
  deriving DecidableEq, Repr

def frameTypeOf (flags : UInt8) : FrameType :=
  let kind := flags &&& 0x03
  if kind = 0x03 then .bulk
  else if kind = 0x01 then .first
  else if kind = 0x02 then .last
  else .middle

/-- The bytes of the first read: header fields, and the part of the payload that came along.
Whatever follows the payload in this buffer is dropped with it. -/
def parseFirst (buf : Bytes) : Except ReadError (Header × Bytes) :=
  match buf with
  | [] => .error .eof
  | channel_id :: flags :: l₁ :: l₀ :: rest =>
    let payload_len := beValue [l₁, l₀]
    let frame_type := frameTypeOf flags
    if frame_type = .first then
      if rest.length < 4 then .error (.totalLengthShort buf.length)
      else
        let total_length := some (UInt32.ofNat (beValue (rest.take 4)))
        .ok ({ channel_id, flags, frame_type, total_length, payload_len },
          (rest.drop 4).take payload_len)
    else
      .ok ({ channel_id, flags, frame_type, total_length := none, payload_len },
        rest.take payload_len)
  | _ => .error (.headerShort buf.length)

def Header.finish (hdr : Header) (payload : Bytes) : Frame :=
  { channel_id := hdr.channel_id
    frame_type := hdr.frame_type
    control := hdr.flags &&& 0x04 != 0
    encrypted := hdr.flags &&& 0x08 != 0
    total_length := hdr.total_length
    payload }

/-- `read_exact` over the payload's remainder, skipped when nothing is missing. -/
def pollRemainder (hdr : Header) (got : Bytes) (src : Source) : Outcome × Source :=
  if got.length < hdr.payload_len then
    let more := readUpTo (hdr.payload_len - got.length) src.parts
    let payload := got ++ more.1
    let src' := { src with parts := more.2 }
    if payload.length = hdr.payload_len then (.done (hdr.finish payload), src')
    else if src.tail = .open then (.pending (.remainder hdr payload), src')
    else (.error .remainder, src')
  else (.done (hdr.finish got), src)

def pollStart (src : Source) : Outcome × Source :=
  match src.parts, src.tail with
  | [], .open => (.pending .start, src)
  | [], .eof => (.error .eof, src)
  | [], .failed => (.error .firstRead, src)
  | parts, tail =>
    let first := readOnce 4096 parts
    let src' : Source := { parts := first.2, tail }
    match parseFirst first.1 with
    | .error e => (.error e, src')
    | .ok (hdr, got) => pollRemainder hdr got src'

def poll (fut : ReadFut) (src : Source) : Outcome × Source :=
  match fut with
  | .start => pollStart src
  | .remainder hdr got => pollRemainder hdr got src

/-- The results of `n` calls of `read_frame` one after another, up to one that never returns. -/
def readFrames : Nat → Source → List (Except ReadError Frame)
  | 0, _ => []
  | n + 1, src =>
    match poll .start src with
    | (.done f, src') => .ok f :: readFrames n src'
    | (.error e, src') => .error e :: readFrames n src'
    | (.pending _, _) => []

variable {f : Frame} {hdr : Header} {got buf rest : Bytes} {src src' : Source} {r : Nat}

theorem frameTypeOf_eq (flags : UInt8) : frameTypeOf flags = FrameType.fromFlags flags := rfl

/-- The header fields of a frame as `read_frame` decodes them. -/
def headerOf (f : Frame) : Header :=
  { channel_id := f.channel_id, flags := f.flags, frame_type := f.frame_type
    total_length := f.total_length, payload_len := f.payload.length }

@[simp] theorem headerOf_payload_len (f : Frame) : (headerOf f).payload_len = f.payload.length := rfl

theorem finish_headerOf (f : Frame) : (headerOf f).finish f.payload = f := by
  have hc : (f.flags &&& 0x04 != 0) = f.control := control_flags f
  have he : (f.flags &&& 0x08 != 0) = f.encrypted := encrypted_flags f
  simp [Header.finish, headerOf, hc, he]

/-- A first read that holds the whole header decodes it, and keeps of the payload what it has. -/
theorem parseFirst_header (hf : f.Valid) (rest : Bytes) :
    parseFirst (f.header ++ rest) = .ok (headerOf f, rest.take f.payload.length) := by
  obtain ⟨l₁, l₀, hl, hlen⟩ := beValue_length hf
  have hft := (frameTypeOf_eq f.flags).trans (fromFlags_flags f)
  rcases Valid.total hf with ⟨hfirst, t, htl⟩ | ⟨hfirst, htl⟩
  · have hfour : (beBytes 4 t.toNat ++ rest).take 4 = beBytes 4 t.toNat := by simp
    have hdrop : (beBytes 4 t.toNat ++ rest).drop 4 = rest := by simp
    simp only [header_of_total hfirst htl, hl, List.cons_append, List.nil_append, parseFirst, hlen,
      hft, hfirst, if_true, hfour, hdrop, ofNat_beValue_toNat]
    rw [if_neg (by simp)]
    simp [headerOf, hfirst, htl]
  · simp only [header_of_no_total htl, hl, List.cons_append, List.nil_append, parseFirst, hlen,
      hft, if_neg hfirst]
    simp [headerOf, htl]

/-- A first read that stops inside the header is an error. -/
theorem parseFirst_short (hf : f.Valid) (hr : r < headerLen f.frame_type) :
    ∃ e, parseFirst (f.header.take r) = .error e := by
  obtain ⟨l₁, l₀, hl, hlen⟩ := beValue_length hf
  have hft := (frameTypeOf_eq f.flags).trans (fromFlags_flags f)
  by_cases hr4 : r < 4
  · have hr : r = 0 ∨ r = 1 ∨ r = 2 ∨ r = 3 := by omega
    rcases hr with rfl | rfl | rfl | rfl <;> simp [Frame.header, hl, parseFirst]
  · rcases Valid.total hf with ⟨hfirst, t, htl⟩ | ⟨hfirst, htl⟩
    · obtain ⟨k, rfl⟩ := Nat.exists_eq_add_of_le (Nat.le_of_not_lt hr4)
      have hk : k < 4 := by simp only [headerLen, hfirst, if_true] at hr; omega
      simp only [header_of_total hfirst htl, hl, Nat.add_comm 4 k, List.cons_append,
        List.nil_append, List.take_succ_cons, parseFirst, hft, hfirst, if_true]
      rw [if_pos (by simp; omega)]
      exact ⟨_, rfl⟩
    · simp [headerLen, hfirst, hr4] at hr

/-- With enough pieces left the remainder is read in full, and not a byte more. -/
theorem pollRemainder_done (hp : Pieces src.parts) (hgot : got.length ≤ hdr.payload_len)
    (hlen : hdr.payload_len ≤ got.length + src.parts.flatten.length) :
    pollRemainder hdr got src =
      (.done (hdr.finish (got ++ src.parts.flatten.take (hdr.payload_len - got.length))),
        { src with parts := skip (hdr.payload_len - got.length) src.parts }) := by
  unfold pollRemainder
  by_cases hlt : got.length < hdr.payload_len
  · have hfull : (got ++ src.parts.flatten.take (hdr.payload_len - got.length)).length
        = hdr.payload_len := by
      rw [List.length_append, List.length_take]
      omega
    simp only [if_pos hlt, readUpTo_fst, readUpTo_snd hp, if_pos hfull]
  · have h0 : hdr.payload_len - got.length = 0 := by omega
    simp [hlt, h0, skip_zero hp]

/-- Nothing can be returned that was not taken off the source. -/
theorem pollRemainder_consumes (hp : Pieces src.parts)
    (h : pollRemainder hdr got src = (.done f, src')) :
    src'.tail = src.tail ∧ Pieces src'.parts ∧ f.frame_type = hdr.frame_type ∧
      f.payload.length + src'.parts.flatten.length = got.length + src.parts.flatten.length := by
  unfold pollRemainder at h
  split at h
  · dsimp only at h
    rw [readUpTo_fst, readUpTo_snd hp] at h
    split at h
    · rename_i hfull
      obtain ⟨hf, rfl⟩ : hdr.finish _ = f ∧ _ = src' := by simpa using h
      subst hf
      refine ⟨rfl, pieces_skip hp _, rfl, ?_⟩
      simp only [Header.finish, flatten_skip, List.length_append, List.length_take, List.length_drop]
      omega
    · split at h <;> simp at h
  · obtain ⟨hf, rfl⟩ : hdr.finish got = f ∧ src = src' := by simpa using h
    subst hf
    exact ⟨rfl, hp, rfl, rfl⟩

theorem parseFirst_length {buf got : Bytes} (h : parseFirst buf = .ok (hdr, got)) :
    headerLen hdr.frame_type + got.length ≤ buf.length ∧ got.length ≤ hdr.payload_len := by
  unfold parseFirst at h
  split at h
  · cases h
  · rename_i channel_id flags l₁ l₀ rest
    dsimp only at h
    split at h
    · rename_i hfirst
      split at h
      · cases h
      · obtain ⟨rfl, rfl⟩ := Prod.mk.inj (Except.ok.inj h)
        simp only [headerLen, hfirst, if_true, List.length_take, List.length_drop, List.length_cons]
        omega
    · rename_i hfirst
      obtain ⟨rfl, rfl⟩ := Prod.mk.inj (Except.ok.inj h)
      simp only [headerLen, hfirst, if_false, List.length_take, List.length_cons]
      omega
  · cases h

theorem pollStart_eq (hne : src.parts ≠ []) :
    pollStart src =
      match parseFirst (readOnce 4096 src.parts).1 with
      | .error e => (.error e, { src with parts := (readOnce 4096 src.parts).2 })
      | .ok (hdr, got) => pollRemainder hdr got { src with parts := (readOnce 4096 src.parts).2 } := by
  obtain ⟨parts, tail⟩ := src
  cases parts with
  | nil => exact (hne rfl).elim
  | cons c cs => rfl

/-- A returned frame costs the source at least its encoded length. -/
theorem pollStart_consumes (hp : Pieces src.parts) (h : pollStart src = (.done f, src')) :
    src'.tail = src.tail ∧ Pieces src'.parts ∧
      headerLen f.frame_type + f.payload.length + src'.parts.flatten.length
        ≤ src.parts.flatten.length := by
  have hne : src.parts ≠ [] := by
    intro he
    obtain ⟨parts, tail⟩ := src
    obtain rfl : parts = [] := he
    cases tail <;> simp [pollStart] at h
  rw [pollStart_eq hne] at h
  have hfst := readOnce_fst hp 4096
  have hsnd := readOnce_snd hp 4096
  have hle := readable_zero_le src.parts
  split at h
  · simp at h
  · rename_i hdr got hparse
    obtain ⟨hbuf, _⟩ := parseFirst_length hparse
    obtain ⟨ht, hp', hft, hlen⟩ :=
      pollRemainder_consumes (by rw [hsnd]; exact pieces_skip hp _) h
    refine ⟨ht, hp', ?_⟩
    simp only [hfst, List.length_take] at hbuf
    simp only [hsnd, flatten_skip, List.length_drop] at hlen
    rw [hft]
    omega

end Aabox.Control
