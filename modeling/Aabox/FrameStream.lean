import Aabox.Framing
import Aabox.Lib.Feed

/-! The frame codec over a byte stream: both directions of the round trip. -/
namespace Aabox.Framing
open Aabox.Lib

variable {f : Frame} {buf rest : Bytes}

/-- The bytes of a frame with the four flag bits no constant names cleared. -/
def clearHighFlags : Bytes → Bytes
  | channel_id :: flags :: bs => channel_id :: (flags &&& 0x0f) :: bs
  | bs => bs

theorem parse_none (h : (Frame.parse buf).1 = none) : (Frame.parse buf).2 = buf := by
  unfold Frame.parse at h ⊢
  split at h
  · dsimp only at h ⊢
    split at h
    · rename_i hshort
      rw [if_pos hshort]
    · cases h
  · rfl

/-- The flag byte of a parsed frame is the one received, less its four high bits. -/
theorem flags_fromFlags (flags : UInt8) :
    (FrameType.fromFlags flags).bits ||| (if flags &&& FLAG_CONTROL != 0 then FLAG_CONTROL else 0) |||
      (if flags &&& FLAG_ENCRYPTED != 0 then FLAG_ENCRYPTED else 0) = flags &&& 0x0f := by
  obtain ⟨⟨x⟩⟩ := flags
  revert x
  decide +kernel

/-- A parse succeeds on a header, the total length of a FIRST frame, and a whole payload. -/
theorem parse_some (h : Frame.parse buf = (some f, rest)) :
    ∃ channel_id flags len total, buf = channel_id :: flags :: (len ++ total ++ f.payload ++ rest) ∧
      len.length = 2 ∧ total.length = headerLen (FrameType.fromFlags flags) - 4 ∧
      f.payload.length = beValue len ∧
      f = { channel_id
            frame_type := FrameType.fromFlags flags
            control := flags &&& FLAG_CONTROL != 0
            encrypted := flags &&& FLAG_ENCRYPTED != 0
            total_length := if FrameType.fromFlags flags = .first then
              some (UInt32.ofNat (beValue total)) else none
            payload := f.payload } := by
  unfold Frame.parse at h
  split at h
  · rename_i channel_id flags l₁ l₀ tl
    dsimp only at h
    split at h
    · cases h
    rename_i hlen
    have hpos := headerLen_pos (FrameType.fromFlags flags)
    simp only [List.length_cons] at hlen
    cases h
    refine ⟨channel_id, flags, [l₁, l₀], tl.take (headerLen (FrameType.fromFlags flags) - 4),
      ?_, rfl, ?_, ?_, ?_⟩
    · simp [-List.drop_drop]
    · rw [List.length_take]
      omega
    · simp only [List.length_take, List.length_drop]
      omega
    · rcases Decidable.em (FrameType.fromFlags flags = .first) with hft | hft <;>
        simp [hft, headerLen]
  · cases h

/-- Re-encoding a parsed frame gives the bytes it was parsed from, up to the high flag bits. -/
theorem encode_parse (h : Frame.parse buf = (some f, rest)) :
    ∃ consumed, buf = consumed ++ rest ∧ f.encode = clearHighFlags consumed := by
  obtain ⟨channel_id, flags, len, total, rfl, hlen, htotal, hpayload, hf⟩ := parse_some h
  refine ⟨channel_id :: flags :: (len ++ total ++ f.payload), by simp, ?_⟩
  have hflags : f.flags = flags &&& 0x0f := by
    rw [hf]
    exact flags_fromFlags flags
  have hsize : beBytes 2 f.payload.length = len := by
    rw [hpayload, ← hlen, beBytes_beValue]
  have hchannel : f.channel_id = channel_id := by rw [hf]
  have hheader : f.header = channel_id :: (flags &&& 0x0f) :: (len ++ total) := by
    rcases Decidable.em (FrameType.fromFlags flags = .first) with hft | hft
    · have hfour : total.length = 4 := by simpa [hft, headerLen] using htotal
      have hlt : beValue total < 2 ^ 32 := by
        have := beValue_lt total
        rw [hfour] at this
        omega
      have hvalue : beBytes 4 (UInt32.ofNat (beValue total)).toNat = total := by
        rw [UInt32.toNat_ofNat_of_lt' hlt, ← hfour, beBytes_beValue]
      have htl : f.total_length = some (UInt32.ofNat (beValue total)) := by rw [hf, if_pos hft]
      rw [header_of_total (by rw [hf, hft]) htl, hflags, hsize, hchannel, hvalue]
      rfl
    · have hnil : total = [] := by simpa [hft, headerLen] using htotal
      have htl : f.total_length = none := by rw [hf, if_neg hft]
      rw [header_of_no_total htl, hflags, hsize, hchannel, hnil, List.append_nil]
  rw [encode_eq_header, hheader]
  simp [clearHighFlags]

/-- The frames the wire format represents, with their codec. -/
def frameCode : PrefixCode UInt8 Frame where
  encode := Frame.encode
  parse := Frame.parse
  Valid := Frame.Valid
  encode_ne_nil := fun f => by simp [Frame.encode]
  parse_nil := rfl
  parse_encode := fun f rest hf => parse_encode hf rest
  parse_short := by
    intro f xs ys hf hxs hys
    have hlt : xs.length < f.encode.length := by
      rw [hxs, List.length_append]
      have := List.length_pos_iff.mpr hys
      omega
    have hnone := parse_take_encode hf hlt
    have htake : f.encode.take xs.length = xs := by rw [hxs, List.take_left]
    rw [htake] at hnone
    exact Prod.ext hnone (parse_none hnone)

/--
The codec over a stream: frames come back in order from their encodings however these are cut,
waiting for more leaves the buffer alone, and a parsed frame encodes to what was consumed.
-/
theorem codec_round_trip :
    (∀ (fs : List Frame) (chunks : List Bytes), (∀ f ∈ fs, f.Valid) →
      chunks.flatten = encodeAll fs → feed Frame.parse chunks [] = (fs, [])) ∧
    (∀ buf, (Frame.parse buf).1 = none → (Frame.parse buf).2 = buf) ∧
    (∀ buf f rest, Frame.parse buf = (some f, rest) →
      ∃ consumed, buf = consumed ++ rest ∧ f.encode = clearHighFlags consumed) := by
  refine ⟨?_, ?_, ?_⟩
  · intro fs chunks hfs hchunks
    exact frameCode.feed_encodeAll hfs hchunks
  · intro buf h
    exact parse_none h
  · intro buf f rest h
    exact encode_parse h

/-- A reply arriving in three reads, the first two of which end inside the header. -/
theorem codec_round_trip_cut :
    let reply := Frame.bulkControl 0 4 [8, 0]
    feed Frame.parse [reply.encode.take 1, (reply.encode.drop 1).take 2, reply.encode.drop 3] [] =
        ([reply], []) ∧
      (Frame.parse (reply.encode.take 3)).2 = reply.encode.take 3 ∧
      ∃ consumed, reply.encode = consumed ++ [] ∧ reply.encode = clearHighFlags consumed :=
  ⟨codec_round_trip.1 _ _
      (fun f hf => by rw [List.mem_singleton.mp hf]; exact ⟨by decide, by decide⟩) (by decide),
    codec_round_trip.2.1 _ (by decide), codec_round_trip.2.2 _ _ _ (by decide)⟩

end Aabox.Framing
