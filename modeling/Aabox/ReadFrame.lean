import Aabox.Control

/-! When the chunking of the transport does not show in the frames that are read. -/
namespace Aabox.Control
open Aabox.Lib Aabox.Framing

variable {f : Frame} {fs gs : List Frame} {cs : List Bytes} {rest : Bytes} {n o : Nat} {t : Tail}

/-- A way of cutting a byte string into non-empty read results. -/
structure Cutting (bytes : Bytes) where
  parts : List Bytes
  nonempty : Pieces parts
  flatten_eq : parts.flatten = bytes

/-- The bytes that the first read of `read_frame` returns at offset `o`. -/
def firstReadLen (cs : List Bytes) (o : Nat) : Nat := min 4096 (readable cs o)

/-- The read at each frame's first byte brings the whole header and nothing of the next frame. -/
def Aligned (cs : List Bytes) : List Frame → Nat → Prop
  | [], _ => True
  | f :: fs, o =>
    headerLen f.frame_type ≤ firstReadLen cs o ∧ firstReadLen cs o ≤ f.encode.length ∧
      Aligned cs fs (o + f.encode.length)

instance decidableAligned (cs : List Bytes) :
    (fs : List Frame) → (o : Nat) → Decidable (Aligned cs fs o)
  | [], _ => isTrue trivial
  | f :: fs, o =>
    have := decidableAligned cs fs (o + f.encode.length)
    inferInstanceAs (Decidable (_ ∧ _ ∧ _))

theorem aligned_skip (hp : Pieces cs) (n o : Nat) :
    Aligned (skip n cs) fs o ↔ Aligned cs fs (n + o) := by
  induction fs generalizing o with
  | nil => rfl
  | cons f fs ih =>
    simp only [Aligned, firstReadLen, readable_skip hp, ih, Nat.add_assoc]

theorem take_encode (hf : f.Valid) {r : Nat} (hr : headerLen f.frame_type ≤ r) :
    (f.encode ++ rest).take r =
      f.header ++ (f.payload ++ rest).take (r - headerLen f.frame_type) := by
  have hl := length_header hf
  rw [encode_eq_header, List.append_assoc, List.take_append, hl,
    List.take_of_length_le (by omega)]

theorem take_encode_short (hf : f.Valid) {r : Nat} (hr : r < headerLen f.frame_type) :
    (f.encode ++ rest).take r = f.header.take r := by
  have hl := length_header hf
  rw [encode_eq_header, List.append_assoc, List.take_append_of_le_length (by omega)]

/-- The payload in the first read, and the remainder behind it. -/
theorem split_payload (xs rest : Bytes) (k : Nat) :
    ((xs ++ rest).take k).take xs.length = xs.take k ∧
      ((xs ++ rest).drop k).take (xs.length - (xs.take k).length) = xs.drop k := by
  constructor
  · rw [List.take_take, List.take_append_of_le_length (Nat.min_le_left ..)]
    simp [Nat.min_comm, ← List.take_take]
  · by_cases hk : k ≤ xs.length
    · rw [List.drop_append_of_le_length hk]
      exact List.take_left' (by simp [hk])
    · have hle : xs.length ≤ k := Nat.le_of_not_le hk
      simp [List.take_of_length_le hle, List.drop_eq_nil_of_le hle]

/-- After a first read with the whole header, the payload's remainder is what is left to read. -/
theorem pollStart_header (later : Bytes) (hf : f.Valid) (hp : Pieces cs)
    (hc : cs.flatten ++ later = f.encode ++ rest)
    (hr : headerLen f.frame_type ≤ firstReadLen cs 0) :
    pollStart ⟨cs, t⟩ =
      pollRemainder (headerOf f) (f.payload.take (firstReadLen cs 0 - headerLen f.frame_type))
        ⟨skip (firstReadLen cs 0) cs, t⟩ := by
  have hpos := headerLen_pos f.frame_type
  have hle := readable_zero_le cs
  have hmin : firstReadLen cs 0 ≤ readable cs 0 := Nat.min_le_right ..
  have hne : cs ≠ [] := by
    rintro rfl
    simp [firstReadLen, readable] at hr
    omega
  have hfst : (readOnce 4096 cs).1 = (f.encode ++ rest).take (firstReadLen cs 0) := by
    rw [readOnce_fst hp, ← hc, List.take_append_of_le_length (by omega)]
    rfl
  rw [pollStart_eq hne, hfst, take_encode hf hr, parseFirst_header hf, readOnce_snd hp]
  dsimp only
  rw [(split_payload f.payload rest _).1]
  rfl

theorem pollRemainder_frame {k : Nat} (hp : Pieces cs)
    (hk : cs.flatten.take (f.payload.length - k) = f.payload.drop k) :
    pollRemainder (headerOf f) (f.payload.take k) ⟨cs, t⟩ =
      (.done f, ⟨skip (f.payload.length - k) cs, t⟩) := by
  have hlen := congrArg List.length hk
  rw [List.length_take, List.length_drop] at hlen
  have hneed : f.payload.length - (f.payload.take k).length = f.payload.length - k := by
    rw [List.length_take]
    omega
  have hgot : (f.payload.take k).length ≤ (headerOf f).payload_len := by
    rw [headerOf_payload_len, List.length_take]
    omega
  have hfull : (headerOf f).payload_len ≤ (f.payload.take k).length + cs.flatten.length := by
    rw [headerOf_payload_len]
    omega
  rw [pollRemainder_done hp hgot hfull, headerOf_payload_len, hneed, hk, List.take_append_drop,
    finish_headerOf]

/-- Short of the whole payload, the read takes all there is and waits. -/
theorem pollRemainder_partial {k : Nat} (hp : Pieces cs)
    (hshort : k + cs.flatten.length < f.payload.length)
    (hk : (f.payload.drop k).take cs.flatten.length = cs.flatten) :
    pollRemainder (headerOf f) (f.payload.take k) ⟨cs, .open⟩ =
      (.pending (.remainder (headerOf f) (f.payload.take (k + cs.flatten.length))), ⟨[], .open⟩) := by
  have hgot : (f.payload.take k).length = k := by
    rw [List.length_take]
    omega
  have hall : cs.flatten.take (f.payload.length - k) = cs.flatten :=
    List.take_of_length_le (by omega)
  have htake : f.payload.take k ++ cs.flatten = f.payload.take (k + cs.flatten.length) := by
    rw [List.take_add, hk]
  have hlen : (f.payload.take (k + cs.flatten.length)).length ≠ f.payload.length := by
    rw [List.length_take]
    omega
  have hnil := skip_eq_nil hp (n := f.payload.length - k) (by omega)
  unfold pollRemainder
  rw [headerOf_payload_len, hgot, if_pos (by omega)]
  dsimp only
  rw [readUpTo_fst, readUpTo_snd hp, hall, htake, if_neg hlen, if_pos rfl, hnil]

theorem drop_encode (hf : f.Valid) {r : Nat} (hr : headerLen f.frame_type ≤ r) :
    (f.encode ++ rest).drop r = (f.payload ++ rest).drop (r - headerLen f.frame_type) := by
  have hl := length_header hf
  rw [encode_eq_header, List.append_assoc, List.drop_append, hl, List.drop_eq_nil_of_le (by omega),
    List.nil_append]

/-- A first read with the whole header returns the frame, and loses what it read beyond it. -/
theorem pollStart_done (hf : f.Valid) (hp : Pieces cs) (hc : cs.flatten = f.encode ++ rest)
    (hr : headerLen f.frame_type ≤ firstReadLen cs 0) :
    pollStart ⟨cs, t⟩ = (.done f, ⟨skip (max (firstReadLen cs 0) f.encode.length) cs, t⟩) := by
  have hlen := length_encode hf
  have hk : (skip (firstReadLen cs 0) cs).flatten.take
      (f.payload.length - (firstReadLen cs 0 - headerLen f.frame_type)) =
      f.payload.drop (firstReadLen cs 0 - headerLen f.frame_type) := by
    have hsplit := (split_payload f.payload rest (firstReadLen cs 0 - headerLen f.frame_type)).2
    rw [flatten_skip, hc, drop_encode hf hr, ← hsplit]
    congr 1
    rw [List.length_take]
    omega
  rw [pollStart_header [] hf hp (by simpa using hc) hr,
    pollRemainder_frame (pieces_skip hp _) hk, skip_skip hp]
  congr 3
  omega

theorem pollStart_short (hf : f.Valid) (hp : Pieces cs) (hc : cs.flatten = f.encode ++ rest)
    (hr : firstReadLen cs 0 < headerLen f.frame_type) :
    ∃ e src', pollStart ⟨cs, t⟩ = (.error e, src') := by
  have hlen := length_encode hf
  have hpos := headerLen_pos f.frame_type
  have hne : cs ≠ [] := by
    rintro rfl
    have := congrArg List.length hc
    simp at this
    omega
  obtain ⟨e, he⟩ := parseFirst_short hf hr
  have hfst : (readOnce 4096 cs).1 = f.header.take (firstReadLen cs 0) := by
    rw [readOnce_fst hp, hc]
    exact take_encode_short hf hr
  rw [pollStart_eq hne, hfst, he]
  exact ⟨e, _, rfl⟩

/-- The frames that come back cannot have more bytes than the source had. -/
theorem readFrames_length_le (hp : Pieces cs) {tl : List (Except ReadError Frame)}
    (hg : ∀ g ∈ gs, g.Valid) (h : readFrames n ⟨cs, t⟩ = gs.map .ok ++ tl) :
    (encodeAll gs).length ≤ cs.flatten.length := by
  induction gs generalizing n cs with
  | nil => simp [encodeAll]
  | cons g gs ih =>
    obtain _ | n := n
    · simp [readFrames] at h
    rw [readFrames, poll] at h
    cases hs : pollStart ⟨cs, t⟩ with
    | mk out src' =>
      rw [hs] at h
      cases out with
      | pending fut => simp at h
      | error e => simp at h
      | done f =>
        obtain ⟨rfl, hrest⟩ : f = g ∧ readFrames n src' = gs.map .ok ++ tl := by simpa using h
        obtain ⟨ht, hp', hle⟩ := pollStart_consumes hp hs
        obtain ⟨parts, tail⟩ := src'
        obtain rfl : tail = t := ht
        have hih := ih hp' (fun g hg' => hg g (List.mem_cons_of_mem _ hg')) hrest
        rw [encodeAll_cons, List.length_append, length_encode (hg f (List.mem_cons_self ..))]
        exact (Nat.add_le_add_left hih _).trans hle

/-- The frames come back one by one, and then the end, exactly when the reads are aligned. -/
theorem readFrames_eq_iff (hfs : ∀ f ∈ fs, f.Valid) (hp : Pieces cs)
    (hc : cs.flatten = encodeAll fs) :
    readFrames (fs.length + 1) ⟨cs, .eof⟩ = fs.map .ok ++ [.error .eof] ↔ Aligned cs fs 0 := by
  induction fs generalizing cs with
  | nil =>
    obtain rfl : cs = [] := hp.flatten_eq_nil.mp (by simpa [encodeAll] using hc)
    exact iff_of_true rfl trivial
  | cons f fs ih =>
    have hf := hfs f (List.mem_cons_self ..)
    have hfs' := fun g hg => hfs g (List.mem_cons_of_mem f hg)
    rw [encodeAll_cons] at hc
    rw [List.length_cons, readFrames, poll, Aligned]
    by_cases hshort : firstReadLen cs 0 < headerLen f.frame_type
    · obtain ⟨e, src', he⟩ := pollStart_short (t := .eof) hf hp hc hshort
      simp [he, Nat.not_le.mpr hshort]
    have hr := Nat.le_of_not_lt hshort
    have hflat : ∀ k, (skip k cs).flatten.length = cs.flatten.length - k := by simp [flatten_skip]
    rw [pollStart_done hf hp hc hr]
    by_cases hover : firstReadLen cs 0 ≤ f.encode.length
    · have hskip : (skip f.encode.length cs).flatten = encodeAll fs := by
        rw [flatten_skip, hc, List.drop_left]
      have hih := ih hfs' (pieces_skip hp f.encode.length) hskip
      rw [aligned_skip hp] at hih
      simpa [hr, hover, Nat.max_eq_right hover] using hih
    · refine iff_of_false ?_ (fun h => hover h.2.1)
      intro h
      have hlt := Nat.lt_of_not_le hover
      have hrest : readFrames (fs.length + 1) ⟨skip (firstReadLen cs 0) cs, .eof⟩ =
          fs.map .ok ++ [.error .eof] := by
        simpa [Nat.max_eq_left (Nat.le_of_lt hlt)] using h
      have hle := readFrames_length_le (pieces_skip hp _) hfs' hrest
      have hread := readable_zero_le cs
      rw [hflat, hc, List.length_append] at hle
      rw [hc, List.length_append] at hread
      have hmin : firstReadLen cs 0 ≤ readable cs 0 := Nat.min_le_right ..
      omega

/-- Chunking does not show in what `read_frame` returns, and it agrees with `Frame::parse`,
exactly when every frame's first read is aligned. -/
theorem reads_iff_aligned (fs : List WireFrame) (cut : Cutting (encodeAll (fs.map (·.val)))) :
    (readFrames (fs.length + 1) ⟨cut.parts, .eof⟩ = fs.map (fun f => .ok f.val) ++ [.error .eof] ∧
      parseAll (fs.length + 1) cut.parts.flatten = (fs.map (·.val), [])) ↔
    Aligned cut.parts (fs.map (·.val)) 0 := by
  have hfs : ∀ f ∈ fs.map (·.val), f.Valid := by
    intro f hf
    obtain ⟨g, _, rfl⟩ := List.mem_map.mp hf
    exact g.property
  have hiff := readFrames_eq_iff hfs cut.nonempty cut.flatten_eq
  have hparse : parseAll (fs.length + 1) cut.parts.flatten = (fs.map (·.val), []) := by
    rw [cut.flatten_eq]
    exact parseAll_encodeAll hfs (by simp)
  rw [← hiff, List.map_map, List.length_map]
  exact and_iff_left hparse

/-- Two frames in one read: the second is lost, although `Frame::parse` finds both. -/
theorem coalesced_frames_lost :
    ¬ ∀ (fs : List WireFrame) (cut : Cutting (encodeAll (fs.map (·.val)))),
      readFrames (fs.length + 1) ⟨cut.parts, .eof⟩ =
          fs.map (fun f => .ok f.val) ++ [.error .eof] ∧
        parseAll (fs.length + 1) cut.parts.flatten = (fs.map (·.val), []) := by
  intro h
  let ping : WireFrame := ⟨Frame.bulkControl 0 11 [8, 1], by decide, by decide⟩
  let cut : Cutting (encodeAll ([ping, ping].map (·.val))) :=
    ⟨[encodeAll ([ping, ping].map (·.val))], by decide, by decide⟩
  exact absurd (h [ping, ping] cut).1 (by decide)

end Aabox.Control
