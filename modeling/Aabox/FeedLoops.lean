import Aabox.SendEncrypted
import Aabox.TlsTunnel

/-! When the loops that feed `read_tls` come to an end. -/
namespace Aabox.FeedLoops
open Aabox.Lib Aabox.Framing Aabox.Encrypted Aabox.TlsTunnel

variable {C : Type} {side : Side C} {conn : C} {bs : Bytes}

/-- What `read_tls` does with input at hand: a connection that has received a close_notify takes
nothing and stays as it is; another one takes at least a byte or fails, and is not closed by it. -/
structure ReadTls (side : Side C) where
  closed : C → Prop
  refuses : ∀ {c bs}, closed c → bs ≠ [] → side.tls_read_records c bs = (.ok 0, c)
  takes : ∀ {c c' bs n}, ¬ closed c → bs ≠ [] → side.tls_read_records c bs = (.ok n, c') →
    0 < n ∧ ¬ closed c'

/-- With enough fuel there is a result. -/
def Ends {ρ : Type} (f : Nat → Option ρ) : Prop := ∃ fuel, f fuel ≠ none

variable (contract : ReadTls side)

/-- An open connection uses up its input, or fails on the way. -/
theorem feedLoop_ends (h : ¬ contract.closed conn) (bs : Bytes) :
    Ends fun fuel => feedLoop side fuel conn bs := by
  have hnext : ∀ s s', ¬ contract.closed s.2 → feedTurn side s = .inl s' →
      ¬ contract.closed s'.2 ∧ s'.1.length < s.1.length := by
    rintro ⟨rest, c⟩ s' hopen hturn
    cases rest with
    | nil => cases hturn
    | cons b rest =>
      rw [feedTurn] at hturn
      · cases hread : side.tls_read_records c (b :: rest) with
        | mk res c' =>
          rw [hread] at hturn
          obtain e | n := res
          · cases hturn
          · cases hturn
            obtain ⟨hpos, hopen'⟩ := contract.takes hopen (List.cons_ne_nil b rest) hread
            refine ⟨hopen', ?_⟩
            rw [List.length_drop, List.length_cons]
            omega
      · exact List.cons_ne_nil b rest
  obtain ⟨r, hr, -⟩ := loop_total (Q := fun _ => True) (s := (bs, conn)) (fun s => s.1.length) h hnext
    (fun _ _ _ _ => trivial) (Nat.lt_succ_self _)
  exact ⟨_, fun hnone => Option.some_ne_none r (hr.symm.trans hnone)⟩

/-- A closed connection is asked again and again for the same bytes. -/
theorem feedLoop_hangs (h : contract.closed conn) (hne : bs ≠ []) (fuel : Nat) :
    feedLoop side fuel conn bs = none := by
  obtain ⟨b, rest, rfl⟩ := List.exists_cons_of_ne_nil hne
  refine loop_diverges (I := fun s => s = (b :: rest, conn)) rfl ?_ fuel
  rintro s rfl
  refine ⟨_, ?_, rfl⟩
  rw [feedTurn, contract.refuses h hne]
  · rfl
  · exact hne

theorem feedLoop_ends_iff :
    (Ends fun fuel => feedLoop side fuel conn bs) ↔ (contract.closed conn → bs = []) := by
  constructor
  · rintro ⟨fuel, hends⟩ hclosed
    by_contra hne
    exact hends (feedLoop_hangs contract hclosed hne fuel)
  · intro h
    rcases Classical.em (contract.closed conn) with hclosed | hopen
    · obtain rfl := h hclosed
      exact ⟨1, fun hnone => by cases hnone⟩
    · exact feedLoop_ends contract hopen bs

theorem decryptPayload_feed (side : Side C) (fuel : Nat) (conn : C) (ciphertext : Bytes) :
    decryptPayload side fuel conn ciphertext =
      match feedLoop side fuel conn ciphertext with
      | none => none
      | some (.error e, conn) => some (.error e, conn)
      | some (.ok (), conn) =>
        match side.tls_process_new_packets conn with
        | (.error _, conn) => some (.error .processNewPackets, conn)
        | (.ok (), conn) => loop (readTurn side) fuel ([], conn) := rfl

variable {tls : Connection C} {frame : Frame} {body : Bytes} {d : Driver C} {pc : Pc}

/-- Taking a frame returns when its feed loop does. -/
theorem takeFrame_ends_iff (hbody : sslHandshakeBody frame = .ok body) :
    (Ends fun fuel => takeFrame tls fuel conn frame) ↔
      Ends fun fuel => feedLoop tls.toSide fuel conn body := by
  constructor
  · rintro ⟨fuel, hends⟩
    refine ⟨fuel, fun hnone => hends ?_⟩
    simp only [takeFrame, hbody, hnone]
  · rintro ⟨fuel, hends⟩
    refine ⟨fuel, fun hnone => hends ?_⟩
    simp only [takeFrame, hbody] at hnone
    split at hnone
    · assumption
    · cases hnone
    · split at hnone <;> cases hnone

theorem receive_ends_iff :
    (Ends fun fuel => receive tls fuel d pc (.ok frame)) ↔
      Ends fun fuel => takeFrame tls fuel d.conn frame := by
  constructor
  · rintro ⟨fuel, hends⟩
    refine ⟨fuel, fun hnone => hends ?_⟩
    simp only [receive, hnone]
  · rintro ⟨fuel, hends⟩
    refine ⟨fuel, fun hnone => hends ?_⟩
    simp only [receive] at hnone
    split at hnone
    · assumption
    · cases hnone
    · cases hnone

/-- The loops that feed `read_tls` end for a connection that has not received a close_notify, and
for one that has only if there is nothing to feed it. -/
theorem feeds_end_iff (tls : Connection C) (contract : ReadTls tls.toSide) :
    (∀ (conn : C) (ciphertext : Bytes),
      (Ends fun fuel => feedLoop tls.toSide fuel conn ciphertext) ↔
        (contract.closed conn → ciphertext = [])) ∧
    (∀ (d : Driver C) (frame : Frame) (body : Bytes), d.pc = .reading →
      sslHandshakeBody frame = .ok body →
      ((Ends fun fuel => clientNext tls fuel d (.receive (.ok frame))) ↔
        (contract.closed d.conn → body = [])) ∧
      ((Ends fun fuel => serverNext tls fuel d (.receive (.ok frame))) ↔
        (contract.closed d.conn → body = []))) := by
  refine ⟨fun conn ciphertext => feedLoop_ends_iff contract, ?_⟩
  intro d frame body hpc hbody
  have htake : (Ends fun fuel => takeFrame tls fuel d.conn frame) ↔
      (contract.closed d.conn → body = []) :=
    (takeFrame_ends_iff hbody).trans (feedLoop_ends_iff contract)
  refine ⟨?_, ?_⟩
  · simp only [clientNext, hpc]
    exact receive_ends_iff.trans htake
  · simp only [serverNext, hpc]
    exact receive_ends_iff.trans htake

/-- A session in the clear that knows the close_notify alert. -/
structure AlertConn where
  taken : Bytes
  opened : Bytes
  closed : Bool
  deriving DecidableEq, Repr

def closeNotify : Bytes := [21, 3, 3, 0, 2, 1, 0]

def alertSide : Side AlertConn where
  tls_writer_write_all c _ := (.ok (), c)
  tls_reader_read c n :=
    if c.opened ≠ [] then (.ok (c.opened.take n), { c with opened := c.opened.drop n })
    else if c.closed then (.ok [], c)
    else (.error .wouldBlock, c)
  tls_write_records c := (.ok [], c)
  tls_read_records c bs :=
    if c.closed then (.ok 0, c) else (.ok bs.length, { c with taken := c.taken ++ bs })
  tls_process_new_packets c :=
    if c.taken = closeNotify then (.ok (), { c with taken := [], closed := true })
    else if c.taken = SendEncrypted.clearRecord (c.taken.drop 5) then
      (.ok (), { c with taken := [], opened := c.opened ++ c.taken.drop 5 })
    else (.error (), c)

def alertContract : ReadTls alertSide where
  closed c := c.closed = true
  refuses := by
    intro c bs hclosed _
    simp only [alertSide, hclosed, if_true]
  takes := by
    intro c c' bs n hopen hne hread
    simp only [alertSide, hopen] at hread
    cases hread
    exact ⟨List.length_pos_iff.mpr hne, Bool.false_ne_true⟩

def alertTls : Connection AlertConn :=
  { alertSide with is_handshaking := fun _ => false, wants_write := fun _ => false }

/-- Without an alert before it a record is taken in. -/
theorem feed_ends_open :
    Ends fun fuel => feedLoop alertSide fuel ⟨[], [], false⟩ (SendEncrypted.clearRecord [0, 11]) :=
  ((feeds_end_iff alertTls alertContract).1 _ _).mpr fun hclosed => Bool.noConfusion hclosed

/-- A frame with the close_notify alert is decrypted to nothing, and the next frame never is. -/
theorem hangs_after_close_notify :
    ∃ conn, decryptPayload alertSide 2 ⟨[], [], false⟩ closeNotify = some (.ok [], conn) ∧
      ¬ Ends fun fuel => decryptPayload alertSide fuel conn (SendEncrypted.clearRecord [0, 11]) := by
  refine ⟨⟨[], [], true⟩, by rfl, ?_⟩
  rintro ⟨fuel, hends⟩
  have hclosed : alertContract.closed ⟨[], [], true⟩ := rfl
  have hhangs : feedLoop alertSide fuel ⟨[], [], true⟩ (SendEncrypted.clearRecord [0, 11]) = none :=
    feedLoop_hangs alertContract hclosed (by decide) fuel
  apply hends
  simp only [decryptPayload_feed, hhangs]

end Aabox.FeedLoops
