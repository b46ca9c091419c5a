import Aabox.Lib.Bytes
import Mathlib.Tactic.Cases

/-! Wire frames: channel byte, flag byte, 16-bit length, and a total length on FIRST frames only. -/
namespace Aabox.Framing
open Aabox.Lib

def FLAG_MIDDLE : UInt8 := 0x00
def FLAG_FIRST : UInt8 := 0x01
def FLAG_LAST : UInt8 := 0x02
def FLAG_BULK : UInt8 := FLAG_FIRST ||| FLAG_LAST
def FLAG_CONTROL : UInt8 := 0x04
def FLAG_ENCRYPTED : UInt8 := 0x08

inductive FrameType
  | middle | first | last | bulk
  deriving DecidableEq, Repr

def FrameType.fromFlags (flags : UInt8) : FrameType :=
  let kind := flags &&& FLAG_BULK
  if kind = FLAG_BULK then .bulk
  else if kind = FLAG_FIRST then .first
  else if kind = FLAG_LAST then .last
  else .middle

def FrameType.bits : FrameType → UInt8
  | .middle => FLAG_MIDDLE
  | .first => FLAG_FIRST
  | .last => FLAG_LAST
  | .bulk => FLAG_BULK

structure Frame where
  channel_id : UInt8
  frame_type : FrameType
  control : Bool
  encrypted : Bool
  total_length : Option UInt32
  payload : Bytes
  deriving DecidableEq, Repr

/-- The flag byte `encode_into` writes. -/
def Frame.flags (f : Frame) : UInt8 :=
  f.frame_type.bits ||| (if f.control then FLAG_CONTROL else 0) |||
    (if f.encrypted then FLAG_ENCRYPTED else 0)

def Frame.encode (f : Frame) : Bytes :=
  f.channel_id :: f.flags :: beBytes 2 f.payload.length ++
    (match f.frame_type, f.total_length with
      | .first, some total => beBytes 4 total.toNat
      | _, _ => []) ++ f.payload

def headerLen (frame_type : FrameType) : Nat := if frame_type = .first then 8 else 4

/-- `none` is the source's `Ok(None)`: read more and retry. The second component is the buffer left.
-/
def Frame.parse (buf : Bytes) : Option Frame × Bytes :=
  match buf with
  | channel_id :: flags :: l₁ :: l₀ :: rest =>
    let payload_len := beValue [l₁, l₀]
    let frame_type := FrameType.fromFlags flags
    if buf.length < headerLen frame_type + payload_len then (none, buf)
    else
      let total_length :=
        if frame_type = .first then some (UInt32.ofNat (beValue (rest.take 4))) else none
      let body := rest.drop (headerLen frame_type - 4)
      (some {
        channel_id, frame_type, total_length
        control := flags &&& FLAG_CONTROL != 0
        encrypted := flags &&& FLAG_ENCRYPTED != 0
        payload := body.take payload_len }, body.drop payload_len)
  | _ => (none, buf)

def Frame.bulkControl (channel_id : UInt8) (message_id : UInt16) (body : Bytes) : Frame :=
  { channel_id, frame_type := .bulk, control := false, encrypted := false, total_length := none
    payload := beBytes 2 message_id.toNat ++ body }

/-- What the 16-bit length and the optional total length can carry without loss. -/
structure Frame.Valid (f : Frame) : Prop where
  payload_le : f.payload.length ≤ 65535
  total_iff : f.total_length.isSome ↔ f.frame_type = .first

/-- A frame the wire format represents faithfully. -/
abbrev WireFrame := { f : Frame // f.Valid }

def encodeAll (fs : List Frame) : Bytes := (fs.map Frame.encode).flatten

/-- `Frame::parse` repeated until it asks for more. -/
def parseAll : Nat → Bytes → List Frame × Bytes
  | 0, buf => ([], buf)
  | fuel + 1, buf =>
    match Frame.parse buf with
    | (none, rest) => ([], rest)
    | (some f, rest) =>
      let more := parseAll fuel rest
      (f :: more.1, more.2)

variable {f : Frame} {fs : List Frame}

theorem fromFlags_flags (f : Frame) : FrameType.fromFlags f.flags = f.frame_type := by
  unfold Frame.flags
  cases f.frame_type <;> cases f.control <;> cases f.encrypted <;> decide

theorem control_flags (f : Frame) : (f.flags &&& FLAG_CONTROL != 0) = f.control := by
  unfold Frame.flags
  cases f.frame_type <;> cases f.control <;> cases f.encrypted <;> decide

theorem encrypted_flags (f : Frame) : (f.flags &&& FLAG_ENCRYPTED != 0) = f.encrypted := by
  unfold Frame.flags
  cases f.frame_type <;> cases f.control <;> cases f.encrypted <;> decide

theorem headerLen_pos (t : FrameType) : 4 ≤ headerLen t := by
  unfold headerLen
  split <;> omega

/-- The bytes in front of the payload. -/
def Frame.header (f : Frame) : Bytes :=
  f.channel_id :: f.flags :: beBytes 2 f.payload.length ++
    (match f.frame_type, f.total_length with
      | .first, some total => beBytes 4 total.toNat
      | _, _ => [])

theorem encode_eq_header (f : Frame) : f.encode = f.header ++ f.payload := rfl

theorem Valid.total (hf : f.Valid) :
    (f.frame_type = .first ∧ ∃ t, f.total_length = some t) ∨
      (f.frame_type ≠ .first ∧ f.total_length = none) := by
  have ht := hf.total_iff
  cases h : f.total_length with
  | none => exact .inr ⟨by simpa [h] using ht, rfl⟩
  | some t => exact .inl ⟨by simpa [h] using ht, t, rfl⟩

theorem header_of_total {t : UInt32} (hft : f.frame_type = .first) (htl : f.total_length = some t) :
    f.header = f.channel_id :: f.flags :: beBytes 2 f.payload.length ++ beBytes 4 t.toNat := by
  simp [Frame.header, hft, htl]

theorem header_of_no_total (htl : f.total_length = none) :
    f.header = f.channel_id :: f.flags :: beBytes 2 f.payload.length := by
  simp [Frame.header, htl]

theorem length_header (hf : f.Valid) : f.header.length = headerLen f.frame_type := by
  rcases Valid.total hf with ⟨hft, t, htl⟩ | ⟨hft, htl⟩
  · simp [header_of_total hft htl, headerLen, hft]
  · simp [header_of_no_total htl, headerLen, hft]

theorem length_encode (hf : f.Valid) :
    f.encode.length = headerLen f.frame_type + f.payload.length := by
  rw [encode_eq_header, List.length_append, length_header hf]

theorem encodeAll_cons (f : Frame) (fs : List Frame) :
    encodeAll (f :: fs) = f.encode ++ encodeAll fs := by simp [encodeAll]

theorem encodeAll_append (fs gs : List Frame) :
    encodeAll (fs ++ gs) = encodeAll fs ++ encodeAll gs := by simp [encodeAll]

/-- The length field of a valid frame reads back as its payload length. -/
theorem beValue_length (hf : f.Valid) :
    ∃ l₁ l₀, beBytes 2 f.payload.length = [l₁, l₀] ∧ beValue [l₁, l₀] = f.payload.length := by
  refine ⟨_, _, rfl, beValue_beBytes_of_lt (w := 2) ?_⟩
  have := hf.payload_le
  omega

theorem ofNat_beValue_toNat (t : UInt32) : UInt32.ofNat (beValue (beBytes 4 t.toNat)) = t := by
  rw [beValue_beBytes_of_lt (w := 4) t.toNat_lt]
  exact UInt32.ofNat_toNat

theorem parse_encode (hf : f.Valid) (rest : Bytes) :
    Frame.parse (f.encode ++ rest) = (some f, rest) := by
  obtain ⟨l₁, l₀, hl, hlen⟩ := beValue_length hf
  rcases Valid.total hf with ⟨hft, t, htl⟩ | ⟨hft, htl⟩
  · have hfour : ∀ ys, (beBytes 4 t.toNat ++ ys).take 4 = beBytes 4 t.toNat := fun ys => by simp
    have hdrop : ∀ ys, (beBytes 4 t.toNat ++ ys).drop 4 = ys := fun ys => by simp
    simp only [encode_eq_header, header_of_total hft htl, hl, hft, List.cons_append,
      List.nil_append, List.append_assoc, Frame.parse, fromFlags_flags, hlen, headerLen, control_flags,
      encrypted_flags, if_true, hfour, hdrop, ofNat_beValue_toNat]
    rw [if_neg (by simp; omega)]
    simp [← hft, ← htl]
  · simp only [encode_eq_header, header_of_no_total htl, hl, List.cons_append, Frame.parse,
      fromFlags_flags, hlen, headerLen, control_flags, encrypted_flags, if_neg hft]
    rw [if_neg (by simp; omega)]
    simp [← htl]

theorem header_prefix (f : Frame) :
    ∃ l₁ l₀ tl, f.encode = f.channel_id :: f.flags :: l₁ :: l₀ :: tl ∧
      beBytes 2 f.payload.length = [l₁, l₀] := ⟨_, _, _, rfl, rfl⟩

/-- A frame that has not arrived in full is not parsed. -/
theorem parse_take_encode (hf : f.Valid) {m : Nat} (hm : m < f.encode.length) :
    (Frame.parse (f.encode.take m)).1 = none := by
  obtain ⟨l₁, l₀, tl, he, hl⟩ := header_prefix f
  have hlen : beValue [l₁, l₀] = f.payload.length := by
    obtain ⟨a, b, hab, hval⟩ := beValue_length hf
    simpa [← hl, hab] using hval
  have hsize := length_encode hf
  have htl := congrArg List.length he
  simp only [List.length_cons] at htl
  by_cases hm4 : m < 4
  · have hcases : m = 0 ∨ m = 1 ∨ m = 2 ∨ m = 3 := by omega
    rcases hcases with rfl | rfl | rfl | rfl <;> simp [he, Frame.parse]
  · obtain ⟨k, rfl⟩ := Nat.exists_eq_add_of_le' (Nat.le_of_not_lt hm4)
    simp only [he, List.take_succ_cons, Frame.parse, hlen, fromFlags_flags]
    rw [if_pos]
    simp only [List.length_cons, List.length_take]
    omega

theorem parseAll_encodeAll {fs : List Frame} (hfs : ∀ f ∈ fs, f.Valid) {fuel : Nat}
    (hn : fs.length < fuel) : parseAll fuel (encodeAll fs) = (fs, []) := by
  induction fs generalizing fuel with
  | nil =>
    obtain ⟨k, rfl⟩ := Nat.exists_eq_succ_of_ne_zero (by omega : fuel ≠ 0)
    rfl
  | cons f fs ih =>
    obtain ⟨k, rfl⟩ := Nat.exists_eq_succ_of_ne_zero (by omega : fuel ≠ 0)
    have hf := hfs f (List.mem_cons_self ..)
    have hrest : parseAll k (encodeAll fs) = (fs, []) :=
      ih (fun g hg => hfs g (List.mem_cons_of_mem _ hg)) (by simpa using hn)
    simp [parseAll, encodeAll_cons, parse_encode hf, hrest]

end Aabox.Framing
