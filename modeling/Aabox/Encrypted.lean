import Aabox.Lib.Bytes
import Aabox.Lib.Loop
import Mathlib.Tactic.Cases

/-!
# Payloads over the TLS tunnel

The record layer is a parameter: the five operations the source's `Side` trait asks of it.
-/
namespace Aabox.Encrypted
open Aabox.Lib

inductive IoError
  | wouldBlock | other
  deriving DecidableEq, Repr

/-- `tls_write_records` returns the bytes it appends, `tls_read_records` how many it consumes. -/
structure Side (C : Type) where
  tls_writer_write_all : C → Bytes → Except IoError Unit × C
  tls_reader_read : C → Nat → Except IoError Bytes × C
  tls_write_records : C → Except IoError Bytes × C
  tls_read_records : C → Bytes → Except IoError Nat × C
  tls_process_new_packets : C → Except Unit Unit × C

inductive CryptError
  | writeAll | writeTls | readTls | processNewPackets | readerRead
  deriving DecidableEq, Repr

def CryptError.message : CryptError → String
  | .writeAll => "rustls writer.write_all"
  | .writeTls => "rustls write_tls"
  | .readTls => "rustls read_tls"
  | .processNewPackets => "rustls process_new_packets"
  | .readerRead => "rustls reader.read"

variable {C T R : Type} {tx : Side T} {rx : Side R}

def drainTurn (side : Side C) : Bytes × C → (Bytes × C) ⊕ (Except CryptError Bytes × C)
  | (out, conn) =>
    match side.tls_write_records conn with
    | (.error _, conn) => .inr (.error .writeTls, conn)
    | (.ok [], conn) => .inr (.ok out, conn)
    | (.ok (b :: bs), conn) => .inl (out ++ b :: bs, conn)

def encryptPayload (side : Side C) (fuel : Nat) (conn : C) (plaintext : Bytes) :
    Option (Except CryptError Bytes × C) :=
  match side.tls_writer_write_all conn plaintext with
  | (.error _, conn) => some (.error .writeAll, conn)
  | (.ok (), conn) => loop (drainTurn side) fuel ([], conn)

def feedTurn (side : Side C) : Bytes × C → (Bytes × C) ⊕ (Except CryptError Unit × C)
  | ([], conn) => .inr (.ok (), conn)
  | (rest, conn) =>
    match side.tls_read_records conn rest with
    | (.error _, conn) => .inr (.error .readTls, conn)
    | (.ok n, conn) => .inl (rest.drop n, conn)

def readTurn (side : Side C) : Bytes × C → (Bytes × C) ⊕ (Except CryptError Bytes × C)
  | (out, conn) =>
    match side.tls_reader_read conn 4096 with
    | (.ok [], conn) => .inr (.ok out, conn)
    | (.ok (b :: bs), conn) => .inl (out ++ b :: bs, conn)
    | (.error .wouldBlock, conn) => .inr (.ok out, conn)
    | (.error .other, conn) => .inr (.error .readerRead, conn)

def decryptPayload (side : Side C) (fuel : Nat) (conn : C) (ciphertext : Bytes) :
    Option (Except CryptError Bytes × C) :=
  match loop (feedTurn side) fuel (ciphertext, conn) with
  | none => none
  | some (.error e, conn) => some (.error e, conn)
  | some (.ok (), conn) =>
    match side.tls_process_new_packets conn with
    | (.error _, conn) => some (.error .processNewPackets, conn)
    | (.ok (), conn) => loop (readTurn side) fuel ([], conn)

/-- Ciphertexts decrypted one after the other. -/
def decryptAll (side : Side C) (fuel : Nat) (conn : C) :
    List Bytes → Option (Except CryptError (List Bytes) × C)
  | [] => some (.ok [], conn)
  | c :: cs =>
    match decryptPayload side fuel conn c with
    | none => none
    | some (.error e, conn) => some (.error e, conn)
    | some (.ok plain, conn) =>
      match decryptAll side fuel conn cs with
      | none => none
      | some (.error e, conn) => some (.error e, conn)
      | some (.ok plains, conn) => some (.ok (plain :: plains), conn)

/-- The most plaintext that is encrypted at once. -/
def MAX_FRAGMENT_PLAINTEXT : Nat := 0x1F00

/-- What is expected of a TLS library between two peers. `inFlight` lists what the sender has sealed
and the receiver has not opened, record by record with the plaintext inside. A sender is `alerted`
once it has queued an alert of its own, as when its keys are used up; what it accepts then need not
arrive. A receiver takes in a record only when all that it opened before has been read. -/
structure RecordLayer (tx : Side T) (rx : Side R) where
  queued : T → Bytes
  alerted : T → Prop
  taken : R → Bytes
  opened : R → Bytes
  inFlight : T → R → List (Bytes × Bytes) → Prop
  write_all : ∀ {t t' r recs plain}, inFlight t r recs → plain.length ≤ MAX_FRAGMENT_PLAINTEXT →
    tx.tls_writer_write_all t plain = (.ok (), t') →
      ∃ sealed, queued t' = queued t ++ sealed ∧ sealed.length < plain.length + 4096 ∧
        inFlight t' r (recs ++ [(sealed, plain)])
  write_records : ∀ {t t' bs}, tx.tls_write_records t = (.ok bs, t') →
    queued t = bs ++ queued t' ∧ (bs = [] → queued t = []) ∧
      ∀ r recs, inFlight t r recs → inFlight t' r recs
  alerted_write_all : ∀ {t t' plain res}, tx.tls_writer_write_all t plain = (res, t') →
    alerted t → alerted t'
  alerted_write_records : ∀ {t t' res}, tx.tls_write_records t = (res, t') →
    alerted t → alerted t'
  read_records : ∀ {t r recs rest plain}, inFlight t r ((taken r ++ rest, plain) :: recs) →
    ¬ alerted t → opened r = [] → rest ≠ [] →
      ∃ n r', rx.tls_read_records r rest = (.ok n, r') ∧ 0 < n ∧
        taken r' = taken r ++ rest.take n ∧ opened r' = [] ∧
          inFlight t r' ((taken r ++ rest, plain) :: recs)
  process : ∀ {t r recs plain}, inFlight t r ((taken r, plain) :: recs) → ¬ alerted t →
    opened r = [] → ∃ r', rx.tls_process_new_packets r = (.ok (), r') ∧ taken r' = [] ∧
      opened r' = plain ∧ inFlight t r' recs
  read : ∀ {t r recs n}, inFlight t r recs → ¬ alerted t → 0 < n → opened r ≠ [] →
    ∃ bs r', rx.tls_reader_read r n = (.ok bs, r') ∧ bs ≠ [] ∧ opened r = bs ++ opened r' ∧
      taken r' = taken r ∧ inFlight t r' recs
  read_empty : ∀ {t r recs n}, inFlight t r recs → ¬ alerted t → 0 < n → opened r = [] →
    ∃ r', rx.tls_reader_read r n = (.error .wouldBlock, r') ∧ opened r' = [] ∧
      taken r' = taken r ∧ inFlight t r' recs

/-- What the receiver itself sends does not touch what is on its way to it. -/
structure RecordLayer.Duplex (layer : RecordLayer tx rx) : Prop where
  write_all : ∀ {t r r' recs plain res}, layer.inFlight t r recs →
    rx.tls_writer_write_all r plain = (res, r') →
      layer.inFlight t r' recs ∧ layer.taken r' = layer.taken r ∧ layer.opened r' = layer.opened r
  write_records : ∀ {t r r' recs res}, layer.inFlight t r recs →
    rx.tls_write_records r = (res, r') →
      layer.inFlight t r' recs ∧ layer.taken r' = layer.taken r ∧ layer.opened r' = layer.opened r

/-- The receiver has opened and read all it took; `recs` are still on their way. -/
structure RecordLayer.Settled (layer : RecordLayer tx rx) (t : T) (r : R)
    (recs : List (Bytes × Bytes)) : Prop where
  inFlight : layer.inFlight t r recs
  taken : layer.taken r = []
  opened : layer.opened r = []

variable {layer : RecordLayer tx rx} {t t' : T} {r r' : R} {recs : List (Bytes × Bytes)}
  {plain cipher : Bytes} {fuel fuel' : Nat}

/-- A turn of the drain that goes on has taken some bytes from the connection. -/
theorem drainTurn_inl {side : Side C} {s s' : Bytes × C} (h : drainTurn side s = .inl s') :
    ∃ bs c, side.tls_write_records s.2 = (.ok bs, c) ∧ s' = (s.1 ++ bs, c) := by
  obtain ⟨out, conn⟩ := s
  rw [drainTurn] at h
  rcases hw : side.tls_write_records conn with ⟨e | _ | ⟨b, bs⟩, c⟩
  · rw [hw] at h
    cases h
  · rw [hw] at h
    cases h
  · rw [hw] at h
    cases h
    exact ⟨b :: bs, c, rfl, rfl⟩

/-- The drain ends with an error, or with the connection that has nothing more to give. -/
theorem drainTurn_inr {side : Side C} {s : Bytes × C} {res : Except CryptError Bytes × C}
    (h : drainTurn side s = .inr res) :
    (∃ e, side.tls_write_records s.2 = (.error e, res.2) ∧ res.1 = .error .writeTls) ∨
      (side.tls_write_records s.2 = (.ok [], res.2) ∧ res.1 = .ok s.1) := by
  obtain ⟨out, conn⟩ := s
  rw [drainTurn] at h
  rcases hw : side.tls_write_records conn with ⟨e | _ | ⟨b, bs⟩, c⟩
  · rw [hw] at h
    cases h
    exact .inl ⟨e, rfl, rfl⟩
  · rw [hw] at h
    cases h
    exact .inr ⟨rfl, rfl⟩
  · rw [hw] at h
    cases h

/-- What both operations of a sender keep of its connection. -/
structure Side.SendsKeep (side : Side C) (P : C → Prop) : Prop where
  write_all : ∀ {c c' plain res}, P c → side.tls_writer_write_all c plain = (res, c') → P c'
  write_records : ∀ {c c' res}, P c → side.tls_write_records c = (res, c') → P c'

/-- What the three operations of a receiver keep of its connection. -/
structure Side.ReceivesKeep (side : Side C) (P : C → Prop) : Prop where
  read_records : ∀ {c c' bs res}, P c → side.tls_read_records c bs = (res, c') → P c'
  process : ∀ {c c' res}, P c → side.tls_process_new_packets c = (res, c') → P c'
  read : ∀ {c c' n res}, P c → side.tls_reader_read c n = (res, c') → P c'

/-- An encryption keeps it too, whether or not it succeeds. -/
theorem encryptPayload_keeps {side : Side C} {P : C → Prop} (hkeep : side.SendsKeep P) {conn : C}
    {res : Except CryptError Bytes × C} (hc : P conn)
    (h : encryptPayload side fuel conn plain = some res) : P res.2 := by
  unfold encryptPayload at h
  rcases hw : side.tls_writer_write_all conn plain with ⟨e | ⟨⟨⟩⟩, c⟩
  · rw [hw] at h
    cases h
    exact hkeep.write_all hc hw
  · rw [hw] at h
    refine loop_rule (I := fun s => P s.2) (Q := fun res => P res.2) (hkeep.write_all hc hw) ?_ ?_ h
    · intro s s' hs hstep
      obtain ⟨bs, c, hw, rfl⟩ := drainTurn_inl hstep
      exact hkeep.write_records hs hw
    · intro s res hs hstep
      rcases drainTurn_inr hstep with ⟨e, hw, -⟩ | ⟨hw, -⟩
      · exact hkeep.write_records hs hw
      · exact hkeep.write_records hs hw

theorem feed_keeps {side : Side C} {P : C → Prop} (hkeep : side.ReceivesKeep P) {conn : C}
    {res : Except CryptError Unit × C} (hc : P conn)
    (h : loop (feedTurn side) fuel (cipher, conn) = some res) : P res.2 := by
  refine loop_rule (I := fun s => P s.2) (Q := fun res => P res.2) hc ?_ ?_ h
  · rintro ⟨_ | ⟨b, bs⟩, c⟩ s hs hstep
    · cases hstep
    · rcases hread : side.tls_read_records c (b :: bs) with ⟨e | n, c'⟩
      · simp [feedTurn, hread] at hstep
      · simp only [feedTurn, hread, Sum.inl.injEq] at hstep
        subst hstep
        exact hkeep.read_records hs hread
  · rintro ⟨_ | ⟨b, bs⟩, c⟩ res hs hstep
    · cases hstep
      exact hs
    · rcases hread : side.tls_read_records c (b :: bs) with ⟨e | n, c'⟩
      · simp only [feedTurn, hread, Sum.inr.injEq] at hstep
        subst hstep
        exact hkeep.read_records hs hread
      · simp [feedTurn, hread] at hstep

/-- A turn of the reading is one read, whatever becomes of it. -/
theorem readTurn_read {side : Side C} {s : Bytes × C} {c : C}
    (h : (∃ s', readTurn side s = .inl s' ∧ s'.2 = c) ∨
      ∃ res, readTurn side s = .inr res ∧ res.2 = c) :
    ∃ res, side.tls_reader_read s.2 4096 = (res, c) := by
  obtain ⟨out, conn⟩ := s
  rcases hread : side.tls_reader_read conn 4096 with ⟨(_ | _) | _ | _, c'⟩ <;>
    simp only [readTurn, hread, Sum.inl.injEq, Sum.inr.injEq, reduceCtorEq, false_and,
      exists_false, or_false, false_or, exists_eq_left'] at h <;>
    exact ⟨_, by rw [h]⟩

theorem read_keeps {side : Side C} {P : C → Prop} (hkeep : side.ReceivesKeep P) {conn : C}
    {out : Bytes} {res : Except CryptError Bytes × C} (hc : P conn)
    (h : loop (readTurn side) fuel (out, conn) = some res) : P res.2 := by
  refine loop_rule (I := fun s => P s.2) (Q := fun res => P res.2) hc ?_ ?_ h
  · intro s s' hs hstep
    obtain ⟨_, hread⟩ := readTurn_read (.inl ⟨s', hstep, rfl⟩)
    exact hkeep.read hs hread
  · intro s res hs hstep
    obtain ⟨_, hread⟩ := readTurn_read (.inr ⟨res, hstep, rfl⟩)
    exact hkeep.read hs hread

/-- A decryption keeps it too, whether or not it succeeds. -/
theorem decryptPayload_keeps {side : Side C} {P : C → Prop} (hkeep : side.ReceivesKeep P) {conn : C}
    {res : Except CryptError Bytes × C} (hc : P conn)
    (h : decryptPayload side fuel conn cipher = some res) : P res.2 := by
  rw [decryptPayload] at h
  cases hfeed : loop (feedTurn side) fuel (cipher, conn) with
  | none => simp [hfeed] at h
  | some fed =>
    have hfed := feed_keeps hkeep hc hfeed
    rw [hfeed] at h
    obtain ⟨e | ⟨⟨⟩⟩, c₁⟩ := fed
    · cases h
      exact hfed
    · rcases hproc : side.tls_process_new_packets c₁ with ⟨e | ⟨⟨⟩⟩, c₂⟩
      · simp only [hproc] at h
        cases h
        exact hkeep.process hfed hproc
      · simp only [hproc] at h
        exact read_keeps hkeep (hkeep.process hfed hproc) h

/-- A sender that is alerted stays so. -/
theorem RecordLayer.alerted_sends (layer : RecordLayer tx rx) : tx.SendsKeep layer.alerted where
  write_all h hw := layer.alerted_write_all hw h
  write_records h hw := layer.alerted_write_records hw h

/-- Draining the sender gives its queue, and leaves it empty. -/
theorem drain_ok (hq : layer.inFlight t r recs) {out : Bytes}
    (h : loop (drainTurn tx) fuel ([], t) = some (.ok out, t')) :
    out = layer.queued t ∧ layer.queued t' = [] ∧ layer.inFlight t' r recs := by
  let I : Bytes × T → Prop := fun s =>
    s.1 ++ layer.queued s.2 = layer.queued t ∧ layer.inFlight s.2 r recs
  let Q : Except CryptError Bytes × T → Prop := fun res =>
    ∀ out, res.1 = .ok out →
      out = layer.queued t ∧ layer.queued res.2 = [] ∧ layer.inFlight res.2 r recs
  have hrule : Q (.ok out, t') := by
    refine loop_rule (I := I) ⟨rfl, hq⟩ ?_ ?_ h
    · rintro s s' ⟨hout, hin⟩ hstep
      obtain ⟨bs, c, hw, rfl⟩ := drainTurn_inl hstep
      obtain ⟨hsplit, -, hkeep⟩ := layer.write_records hw
      refine ⟨?_, hkeep r recs hin⟩
      rw [← hout, hsplit, List.append_assoc]
    · rintro s res ⟨hout, hin⟩ hstep out h
      rcases drainTurn_inr hstep with ⟨e, hw, he⟩ | ⟨hw, hok⟩
      · rw [he] at h
        cases h
      · obtain ⟨hsplit, hnil, hkeep⟩ := layer.write_records hw
        have hempty := hnil rfl
        rw [hempty, List.append_nil] at hout
        rw [hempty] at hsplit
        refine ⟨?_, (List.append_eq_nil_iff.mp hsplit.symm).2, hkeep r recs hin⟩
        rw [← hout, Except.ok.inj (hok.symm.trans h)]
  exact hrule out rfl

/-- One payload becomes one record in flight. -/
theorem encryptPayload_ok (hin : layer.inFlight t r recs) (hq : layer.queued t = [])
    (hlen : plain.length ≤ MAX_FRAGMENT_PLAINTEXT)
    (h : encryptPayload tx fuel t plain = some (.ok cipher, t')) :
    cipher.length < plain.length + 4096 ∧ layer.queued t' = [] ∧
      layer.inFlight t' r (recs ++ [(cipher, plain)]) := by
  unfold encryptPayload at h
  cases hw : tx.tls_writer_write_all t plain with
  | mk res c =>
    rw [hw] at h
    rcases res with e | ⟨⟨⟩⟩
    · simp at h
    · obtain ⟨sealed, hsealed, hover, hin'⟩ := layer.write_all hin hlen hw
      obtain ⟨rfl, hq', hin''⟩ := drain_ok hin' h
      rw [hq, List.nil_append] at hsealed
      rw [hsealed]
      exact ⟨hover, hq', hin''⟩

/-- Feeding the receiver a record's bytes takes them all. -/
theorem feed_ok {rest : Bytes} (hin : layer.inFlight t r ((layer.taken r ++ rest, plain) :: recs))
    (hcalm : ¬ layer.alerted t) (hopened : layer.opened r = []) (hfuel : rest.length < fuel) :
    ∃ r', loop (feedTurn rx) fuel (rest, r) = some (.ok (), r') ∧
      layer.inFlight t r' ((layer.taken r', plain) :: recs) ∧ layer.opened r' = [] := by
  let I : Bytes × R → Prop := fun s =>
    layer.inFlight t s.2 ((layer.taken s.2 ++ s.1, plain) :: recs) ∧ layer.opened s.2 = []
  let Q : Except CryptError Unit × R → Prop := fun res =>
    res.1 = .ok () ∧ layer.inFlight t res.2 ((layer.taken res.2, plain) :: recs) ∧
      layer.opened res.2 = []
  have htotal : ∃ res, loop (feedTurn rx) fuel (rest, r) = some res ∧ Q res := by
    refine loop_total (I := I) (fun s => s.1.length) ⟨hin, hopened⟩ ?_ ?_ hfuel
    · rintro ⟨_ | ⟨b, bs⟩, c⟩ s' ⟨hin, hop⟩ hstep
      · cases hstep
      · obtain ⟨n, c', hread, hpos, htaken, hopened, hin'⟩ :=
          layer.read_records hin hcalm hop (List.cons_ne_nil b bs)
        simp only [feedTurn, hread, Sum.inl.injEq] at hstep
        subst hstep
        refine ⟨⟨?_, hopened⟩, ?_⟩
        · rw [htaken, List.append_assoc, List.take_append_drop]
          exact hin'
        · simp only [List.length_drop, List.length_cons]
          omega
    · rintro ⟨_ | ⟨b, bs⟩, c⟩ res ⟨hin, hop⟩ hstep
      · cases hstep
        rw [List.append_nil] at hin
        exact ⟨rfl, hin, hop⟩
      · obtain ⟨n, c', hread, -⟩ := layer.read_records hin hcalm hop (List.cons_ne_nil b bs)
        simp [feedTurn, hread] at hstep
  obtain ⟨⟨res, r'⟩, hloop, hres, hin', hop⟩ := htotal
  obtain rfl : res = .ok () := hres
  exact ⟨r', hloop, hin', hop⟩

/-- Reading until the reader would block gives everything that was opened. -/
theorem read_ok (hin : layer.inFlight t r recs) (hcalm : ¬ layer.alerted t)
    (htaken : layer.taken r = []) (hfuel : (layer.opened r).length < fuel) :
    ∃ r', loop (readTurn rx) fuel ([], r) = some (.ok (layer.opened r), r') ∧
      layer.Settled t r' recs := by
  let I : Bytes × R → Prop := fun s =>
    layer.inFlight t s.2 recs ∧ layer.taken s.2 = [] ∧ s.1 ++ layer.opened s.2 = layer.opened r
  let Q : Except CryptError Bytes × R → Prop := fun res =>
    res.1 = .ok (layer.opened r) ∧ layer.Settled t res.2 recs
  have htotal : ∃ res, loop (readTurn rx) fuel ([], r) = some res ∧ Q res := by
    refine loop_total (I := I) (fun s => (layer.opened s.2).length) ⟨hin, htaken, rfl⟩ ?_ ?_ hfuel
    · rintro ⟨out, c⟩ s' ⟨hin, htaken, hout⟩ hstep
      by_cases hop : layer.opened c = []
      · obtain ⟨c', hread, -⟩ := layer.read_empty (n := 4096) hin hcalm (by decide) hop
        simp [readTurn, hread] at hstep
      · obtain ⟨bs, c', hread, hne, hsplit, htaken', hin'⟩ :=
          layer.read (n := 4096) hin hcalm (by decide) hop
        obtain ⟨b, bs, rfl⟩ := List.exists_cons_of_ne_nil hne
        simp only [readTurn, hread, Sum.inl.injEq] at hstep
        subst hstep
        refine ⟨⟨hin', htaken'.trans htaken, ?_⟩, ?_⟩
        · rw [← hout, hsplit, List.append_assoc]
        · simp only [hsplit, List.length_append, List.length_cons]
          omega
    · rintro ⟨out, c⟩ res ⟨hin, htaken, hout⟩ hstep
      by_cases hop : layer.opened c = []
      · obtain ⟨c', hread, hop', htaken', hin'⟩ :=
          layer.read_empty (n := 4096) hin hcalm (by decide) hop
        simp only [readTurn, hread, Sum.inr.injEq] at hstep
        subst hstep
        rw [hop, List.append_nil] at hout
        exact ⟨congrArg _ hout, hin', htaken'.trans htaken, hop'⟩
      · obtain ⟨bs, c', hread, hne, -⟩ := layer.read (n := 4096) hin hcalm (by decide) hop
        obtain ⟨b, bs, rfl⟩ := List.exists_cons_of_ne_nil hne
        simp [readTurn, hread] at hstep
  obtain ⟨⟨res, r'⟩, hloop, hres, hset⟩ := htotal
  obtain rfl : res = .ok (layer.opened r) := hres
  exact ⟨r', hloop, hset⟩

/-- The next record in flight decrypts to what was encrypted. -/
theorem decryptPayload_ok (h : layer.Settled t r ((cipher, plain) :: recs))
    (hcalm : ¬ layer.alerted t) (hc : cipher.length < fuel) (hp : plain.length < fuel) :
    ∃ r', decryptPayload rx fuel r cipher = some (.ok plain, r') ∧ layer.Settled t r' recs := by
  have hin : layer.inFlight t r ((layer.taken r ++ cipher, plain) :: recs) := by
    rw [h.taken, List.nil_append]
    exact h.inFlight
  obtain ⟨r₁, hfeed, hin₁, hop₁⟩ := feed_ok hin hcalm h.opened hc
  obtain ⟨r₂, hproc, htaken₂, hop₂, hin₂⟩ := layer.process hin₁ hcalm hop₁
  obtain ⟨r₃, hread, hset⟩ := read_ok hin₂ hcalm htaken₂ (by rw [hop₂]; exact hp)
  refine ⟨r₃, ?_, hset⟩
  simp only [decryptPayload, hfeed, hproc, hread, hop₂]

theorem decryptAll_ok (h : layer.Settled t r recs) (hcalm : ¬ layer.alerted t)
    (hfuel : ∀ rec ∈ recs, rec.1.length < fuel ∧ rec.2.length < fuel) :
    ∃ r', decryptAll rx fuel r (recs.map (·.1)) = some (.ok (recs.map (·.2)), r') ∧
      layer.Settled t r' [] := by
  induction recs generalizing r with
  | nil => exact ⟨r, rfl, h⟩
  | cons rec recs ih =>
    obtain ⟨hc, hp⟩ := hfuel rec (List.mem_cons_self ..)
    obtain ⟨r₁, hdec, hset⟩ := decryptPayload_ok h hcalm hc hp
    obtain ⟨r₂, hall, hset'⟩ := ih hset fun rec' h' => hfuel rec' (List.mem_cons_of_mem _ h')
    refine ⟨r₂, ?_, hset'⟩
    simp only [List.map_cons, decryptAll, hdec, hall]

theorem decryptPayload_mono {side : Side C} {conn : C} {res : Except CryptError Bytes × C}
    (h : decryptPayload side fuel conn cipher = some res) (hle : fuel ≤ fuel') :
    decryptPayload side fuel' conn cipher = some res := by
  unfold decryptPayload at h ⊢
  cases hfeed : loop (feedTurn side) fuel (cipher, conn) with
  | none => simp [hfeed] at h
  | some fed =>
    rw [hfeed] at h
    rw [loop_mono hfeed hle]
    obtain ⟨e | ⟨⟨⟩⟩, conn₁⟩ := fed
    · exact h
    · dsimp only at h ⊢
      cases hproc : side.tls_process_new_packets conn₁ with
      | mk processed conn₂ =>
        rw [hproc] at h
        obtain e | ⟨⟨⟩⟩ := processed
        · exact h
        · exact loop_mono h hle

/-- Whenever the decryption of the next record in flight returns, it returns its plaintext. -/
theorem decryptPayload_some (h : layer.Settled t r ((cipher, plain) :: recs))
    (hcalm : ¬ layer.alerted t) {res : Except CryptError Bytes × R}
    (hsome : decryptPayload rx fuel r cipher = some res) :
    res.1 = .ok plain ∧ layer.Settled t res.2 recs := by
  obtain ⟨r', hdec, hset⟩ := decryptPayload_ok h hcalm
    (show cipher.length < fuel + cipher.length + plain.length + 1 by omega) (by omega)
  have hmono := decryptPayload_mono hsome
    (show fuel ≤ fuel + cipher.length + plain.length + 1 by omega)
  obtain rfl : res = (.ok plain, r') := Option.some.inj (hmono.symm.trans hdec)
  exact ⟨rfl, hset⟩

theorem RecordLayer.Settled.of_same (h : layer.Settled t r recs) (hin : layer.inFlight t r' recs)
    (htaken : layer.taken r' = layer.taken r) (hopened : layer.opened r' = layer.opened r) :
    layer.Settled t r' recs :=
  ⟨hin, htaken.trans h.taken, hopened.trans h.opened⟩

/-- Sending in the other direction leaves what is on its way as it is. -/
theorem RecordLayer.Duplex.sends (hdup : layer.Duplex) :
    rx.SendsKeep fun r => layer.Settled t r recs where
  write_all h hw := by
    obtain ⟨hin, htaken, hopened⟩ := hdup.write_all h.inFlight hw
    exact h.of_same hin htaken hopened
  write_records h hw := by
    obtain ⟨hin, htaken, hopened⟩ := hdup.write_records h.inFlight hw
    exact h.of_same hin htaken hopened

end Aabox.Encrypted
