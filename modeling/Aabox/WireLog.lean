import Aabox.Lib.Wire
import Aabox.SendEncrypted

/-! The writes that one send makes, and what becomes of each. -/
namespace Aabox.SendEncrypted
open Aabox.Lib Aabox.Framing Aabox.Encrypted

variable {C : Type} {side : Side C} {fuel n : Nat} {conn conn' : C} {w w' : Writer} {f : Frame}
  {out : OutboundMessage} {plain : Bytes} {channel : UInt8} {s s' : FragmentState C}
  {res : Except SendError Unit} {as : List (Attempt Frame)}

/-- What the transport does to the write that comes after `i` more. -/
def Writer.faultAt (w : Writer) (i : Nat) : Option Nat := w.faults[i]?.join

/-- A frame handed to `write_frame`, with what the transport will do to it. -/
def attemptOf (w : Writer) (frame : Frame) : Attempt Frame := ⟨frame, w.faults.head?.join⟩

/-- The frame that a turn of the fragment loop builds, if its chunk can be encrypted. -/
def builtFragment (side : Side C) (fuel : Nat) (channel : UInt8) (plain : Bytes)
    (s : FragmentState C) : Option Frame :=
  if s.offset < plain.length then
    match encryptPayload side fuel s.conn (chunkAt plain s.offset) with
    | some (.ok ciphertext, _) =>
      some (fragmentFrame channel s.offset (chunkEnd s.offset plain.length) plain.length ciphertext)
    | _ => none
  else none

def fragmentAttempts (side : Side C) (fuel : Nat) (channel : UInt8) (plain : Bytes) :
    Nat → FragmentState C → List (Attempt Frame)
  | 0, _ => []
  | n + 1, s =>
    ((builtFragment side fuel channel plain s).map (attemptOf s.writer)).toList ++
      match fragmentTurn side fuel channel plain s with
      | .inl s' => fragmentAttempts side fuel channel plain n s'
      | .inr _ => []

/-- The frames `send_encrypted` hands to the transport, in order. -/
def sendAttempts (side : Side C) (fuel : Nat) (conn : C) (w : Writer) (out : OutboundMessage) :
    List (Attempt Frame) :=
  let plain := plainOf out.message_id out.payload
  if plain.length ≤ MAX_FRAGMENT_PLAINTEXT then
    match buildEncryptedFrame side fuel conn out.channel out.message_id out.payload with
    | some (.ok frame, _) => [attemptOf w frame]
    | _ => []
  else fragmentAttempts side fuel out.channel plain fuel ⟨0, conn, w⟩

/-- What the writes `as` have done to the transport, each with the fault that was due. -/
structure Logged (w w' : Writer) (as : List (Attempt Frame)) : Prop where
  wire : w'.wire = w.wire ++ wireOf Frame.encode as
  fault : ∀ i a, as[i]? = some a → a.fault = w.faultAt i
  later : ∀ i, w'.faultAt i = w.faultAt (as.length + i)

/-- An encrypted frame on the channel. -/
def Sealed (channel : UInt8) (a : Attempt Frame) : Prop :=
  a.item.encrypted = true ∧ a.item.channel_id = channel

theorem logged_nil (w : Writer) : Logged w w [] :=
  ⟨by simp [wireOf], fun _ _ h => by simp at h, fun i => by simp⟩

theorem logged_frame (h : writeFrame w f = (res, w')) : Logged w w' [attemptOf w f] := by
  have hfault : ∀ i a, [attemptOf w f][i]? = some a → a.fault = w.faultAt i := by
    intro i a ha
    rw [List.getElem?_singleton, Option.ite_none_right_eq_some] at ha
    obtain ⟨rfl, ha⟩ := ha
    cases ha
    rw [attemptOf, Writer.faultAt, List.head?_eq_getElem?]
  unfold writeFrame at h
  split at h <;> rename_i hfaults <;> cases h <;>
    refine ⟨?_, hfault, fun i => ?_⟩
  all_goals simp [attemptOf, Attempt.written, wireOf, Writer.faultAt, hfaults, Nat.add_comm 1]

/-- What follows extends the log. -/
theorem Logged.append {w₁ : Writer} {bs : List (Attempt Frame)} (has : Logged w w₁ as)
    (hbs : Logged w₁ w' bs) : Logged w w' (as ++ bs) where
  wire := by rw [hbs.wire, has.wire, wireOf_append, List.append_assoc]
  fault := by
    intro i a ha
    by_cases hi : i < as.length
    · rw [List.getElem?_append_left hi] at ha
      exact has.fault i a ha
    · have hi := Nat.le_of_not_lt hi
      rw [List.getElem?_append_right hi] at ha
      rw [hbs.fault _ a ha, has.later, Nat.add_sub_cancel' hi]
  later i := by rw [hbs.later, has.later, List.length_append, Nat.add_assoc]

theorem fragmentTurn_next (h : fragmentTurn side fuel channel plain s = .inl s') :
    ∃ frame, builtFragment side fuel channel plain s = some frame ∧
      Logged s.writer s'.writer [attemptOf s.writer frame] := by
  obtain ⟨hlt, cipher, conn, writer, henc, hwrite, rfl⟩ := fragmentTurn_inl h
  exact ⟨_, by rw [builtFragment, if_pos hlt, henc], logged_frame hwrite⟩

/-- The last turn builds no frame, or hands over one that the transport does not take. -/
theorem fragmentTurn_last
    (h : fragmentTurn side fuel channel plain s = .inr (some (res, conn', w'))) :
    Logged s.writer w'
      ((builtFragment side fuel channel plain s).map (attemptOf s.writer)).toList := by
  unfold fragmentTurn at h
  split at h
  · rename_i hlt
    dsimp only at h
    split at h
    · cases h
    · rename_i e conn henc
      have henc : encryptPayload side fuel s.conn (chunkAt plain s.offset) =
          some (.error e, conn) := henc
      cases h
      rw [builtFragment, if_pos hlt, henc]
      exact logged_nil _
    · rename_i cipher conn henc
      have henc : encryptPayload side fuel s.conn (chunkAt plain s.offset) =
          some (.ok cipher, conn) := henc
      split at h
      · rename_i e writer hwrite
        cases h
        rw [builtFragment, if_pos hlt, henc]
        exact logged_frame hwrite
      · cases h
  · rename_i hge
    cases h
    rw [builtFragment, if_neg hge]
    exact logged_nil _

theorem fragmentAttempts_logged
    (h : loop (fragmentTurn side fuel channel plain) n s = some (some (res, conn', w'))) :
    Logged s.writer w' (fragmentAttempts side fuel channel plain n s) := by
  induction n generalizing s with
  | zero => cases h
  | succ n ih =>
    cases hturn : fragmentTurn side fuel channel plain s with
    | inl s' =>
      rw [loop_next hturn] at h
      obtain ⟨frame, hbuilt, hlog⟩ := fragmentTurn_next hturn
      rw [fragmentAttempts, hturn, hbuilt]
      exact hlog.append (ih h)
    | inr last =>
      rw [loop_done hturn] at h
      obtain rfl := Option.some.inj h
      rw [fragmentAttempts, hturn]
      simpa using fragmentTurn_last hturn

/-- A send puts on the wire what the transport takes of the frames it hands over. -/
theorem sendEncrypted_logged (h : sendEncrypted side fuel conn w out = some (res, conn', w')) :
    Logged w w' (sendAttempts side fuel conn w out) := by
  unfold sendEncrypted at h
  unfold sendAttempts
  dsimp only at h ⊢
  split at h
  · rename_i hshort
    rw [if_pos hshort]
    rw [buildEncryptedFrame] at h ⊢
    cases henc : encryptPayload side fuel conn (plainOf out.message_id out.payload) with
    | none => simp [henc] at h
    | some enc =>
      obtain ⟨e | cipher, c⟩ := enc
      · simp only [henc] at h
        cases h
        exact logged_nil _
      · simp only [henc] at h
        split at h <;> rename_i hwrite <;> cases h <;> exact logged_frame hwrite
  · rename_i hlong
    rw [if_neg hlong]
    exact fragmentAttempts_logged (Option.join_eq_some_iff.mp h)

theorem builtFragment_sealed (w : Writer) (h : builtFragment side fuel channel plain s = some f) :
    Sealed channel (attemptOf w f) := by
  unfold builtFragment at h
  split at h
  · split at h <;> cases h
    exact ⟨rfl, rfl⟩
  · cases h

theorem fragmentAttempts_sealed {a : Attempt Frame}
    (ha : a ∈ fragmentAttempts side fuel channel plain n s) : Sealed channel a := by
  induction n generalizing s with
  | zero => cases ha
  | succ n ih =>
    rcases List.mem_append.mp ha with ha | ha
    · rw [Option.mem_toList] at ha
      obtain ⟨frame, hbuilt, rfl⟩ := Option.map_eq_some_iff.mp ha
      exact builtFragment_sealed s.writer hbuilt
    · split at ha
      · exact ih ha
      · cases ha

theorem sendAttempts_sealed {a : Attempt Frame} (ha : a ∈ sendAttempts side fuel conn w out) :
    Sealed out.channel a := by
  unfold sendAttempts at ha
  dsimp only at ha
  split at ha
  · rw [buildEncryptedFrame] at ha
    cases henc : encryptPayload side fuel conn (plainOf out.message_id out.payload) with
    | none => simp [henc] at ha
    | some enc =>
      obtain ⟨e | cipher, c⟩ := enc
      · simp [henc] at ha
      · simp only [henc, List.mem_singleton] at ha
        rw [ha]
        exact ⟨rfl, rfl⟩
  · exact fragmentAttempts_sealed ha

end Aabox.SendEncrypted
