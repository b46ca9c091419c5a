import Aabox.ControlLoop
import Aabox.FrameStream
import Aabox.InboundFragments
import Aabox.Lib.Groups
import Mathlib.Data.List.Forall2

/-!
# What the head unit reads

The first request, the replies, navigation, audio and video share one tunnel and one stream of
frames, and their long messages are cut into fragments.
-/
namespace Aabox.HeadUnit
open Aabox.Lib Aabox.Framing Aabox.Encrypted Aabox.SendEncrypted Aabox.Messages Aabox.HandleFrame
  Aabox.InboundFragments Aabox.Startup Aabox.ControlLoop

def endsMessage : FrameType → Bool
  | .bulk | .last => true
  | .first | .middle => false

/-- The fragments of one message, put together. -/
def joined (g : List (Frame × Bytes)) : Option Message :=
  g.head?.bind fun p => (readMessage p.1.channel_id (g.map (·.2)).flatten).toOption

/-- A head unit parses the frames as the bytes come, opens their payloads, and puts together what
ends with a BULK or a LAST frame. The result is `none` when anything is left over. -/
def headUnit {R : Type} (rx : Side R) (fuel : Nat) (r : R) (chunks : List Bytes) :
    Option (List Message) :=
  match feed Frame.parse chunks [] with
  | (frames, []) =>
    match decryptAll rx fuel r (frames.map (·.payload)) with
    | some (.ok plains, _) =>
      match cut (fun p => endsMessage p.1.frame_type) (frames.zip plains) with
      | (gs, []) => gs.mapM joined
      | _ => none
    | _ => none
  | _ => none

variable {T R F : Type} {tx : Side T} {rx : Side R} {layer : RecordLayer tx rx} {t t' : T}
  {r r₀ : R} {recs : List (Bytes × Bytes)} {p : StartupProst} {fl : Sensor.Floats F}
  {fuel fuel' : Nat} {w w' w₀ : Writer} {s s' : RunState T F} {session session' : Session T F}
  {turn : Turn} {turns : List Turn} {out : OutboundMessage} {outs said : List OutboundMessage}
  {g : List (Frame × Bytes)} {gs : List (List (Frame × Bytes))} {plain cipher : Bytes}

/-- What the sender takes in does not touch what it sends, short of making it queue an alert. -/
structure Receiving (layer : RecordLayer tx rx) : Prop where
  read_records : ∀ {t t' r recs bs res}, layer.inFlight t r recs →
    tx.tls_read_records t bs = (res, t') →
      layer.inFlight t' r recs ∧ layer.queued t' = layer.queued t
  process : ∀ {t t' r recs res}, layer.inFlight t r recs →
    tx.tls_process_new_packets t = (res, t') → ¬ layer.alerted t' →
      layer.inFlight t' r recs ∧ layer.queued t' = layer.queued t
  read : ∀ {t t' r recs n res}, layer.inFlight t r recs →
    tx.tls_reader_read t n = (res, t') →
      layer.inFlight t' r recs ∧ layer.queued t' = layer.queued t
  alerted : tx.ReceivesKeep layer.alerted

/-- The messages that the turns of a run have to send. -/
def saidIn (side : Side T) (p : StartupProst) (fl : Sensor.Floats F) (fuel : Nat) :
    RunState T F → List Turn → List OutboundMessage
  | _, [] => []
  | s, turn :: turns =>
    ((turnMessages side p fl fuel s.session turn).map (·.2)).getD [] ++
      match next side p fl fuel s turn with
      | some s => saidIn side p fl fuel s turns
      | none => []

/-- What a turn has to send is sent, and its length fits the field of a FIRST frame. -/
def Sends (side : Side T) (p : StartupProst) (fl : Sensor.Floats F) (fuel : Nat) (s : RunState T F)
    (turn : Turn) : Prop :=
  ∀ x ∈ turnMessages side p fl fuel s.session turn,
    (∀ out ∈ x.2, (plainOf out.message_id out.payload).length < 2 ^ 32) ∧
      (sendAll side fuel x.1 x.2).map (·.1.isOk) = some true

instance (side : Side T) (p : StartupProst) (fl : Sensor.Floats F) (fuel : Nat) (s : RunState T F)
    (turn : Turn) : Decidable (Sends side p fl fuel s turn) :=
  inferInstanceAs (Decidable (∀ x ∈ turnMessages side p fl fuel s.session turn, _ ∧ _))

/-- The connection has sealed what it had and nothing else, unless it is alerted. -/
def Kept (layer : RecordLayer tx rx) (r : R) (recs : List (Bytes × Bytes)) (queue : Bytes) (t : T) :
    Prop :=
  ¬ layer.alerted t → layer.inFlight t r recs ∧ layer.queued t = queue

theorem Receiving.kept (hrecv : Receiving layer) (queue : Bytes) :
    tx.ReceivesKeep (Kept layer r recs queue) where
  read_records := by
    intro t t' bs res h hread hcalm
    obtain ⟨hin, hq⟩ := h fun halert => hcalm (hrecv.alerted.read_records halert hread)
    obtain ⟨hin', hq'⟩ := hrecv.read_records hin hread
    exact ⟨hin', hq'.trans hq⟩
  process := by
    intro t t' res h hproc hcalm
    obtain ⟨hin, hq⟩ := h fun halert => hcalm (hrecv.alerted.process halert hproc)
    obtain ⟨hin', hq'⟩ := hrecv.process hin hproc hcalm
    exact ⟨hin', hq'.trans hq⟩
  read := by
    intro t t' n res h hread hcalm
    obtain ⟨hin, hq⟩ := h fun halert => hcalm (hrecv.alerted.read halert hread)
    obtain ⟨hin', hq'⟩ := hrecv.read hin hread
    exact ⟨hin', hq'.trans hq⟩

theorem decryptPayload_kept (hrecv : Receiving layer) (hin : layer.inFlight t r recs)
    {res : Except CryptError Bytes × T} (hcalm : ¬ layer.alerted res.2)
    (h : decryptPayload tx fuel t cipher = some res) :
    layer.inFlight res.2 r recs ∧ layer.queued res.2 = layer.queued t := by
  have hkept : Kept layer r recs (layer.queued t) t := fun _ => ⟨hin, rfl⟩
  exact decryptPayload_keeps (hrecv.kept _) hkept h hcalm

/-- An encryption that succeeds has drained what the connection had queued. -/
theorem encryptPayload_drained (layer : RecordLayer tx rx)
    (h : encryptPayload tx fuel t plain = some (.ok cipher, t')) : layer.queued t' = [] := by
  rw [encryptPayload] at h
  rcases hw : tx.tls_writer_write_all t plain with ⟨e | ⟨⟨⟩⟩, c⟩
  · simp [hw] at h
  · simp only [hw] at h
    let Q : Except CryptError Bytes × T → Prop := fun res =>
      ∀ out, res.1 = .ok out → layer.queued res.2 = []
    have hrule : Q (.ok cipher, t') := by
      refine loop_rule (Q := Q) (I := fun _ => True) trivial (fun _ _ _ _ => trivial) ?_ h
      intro s res _ hstep out hok
      rcases drainTurn_inr hstep with ⟨e, _, he⟩ | ⟨hwrite, _⟩
      · rw [he] at hok
        cases hok
      · obtain ⟨hsplit, hnil, _⟩ := layer.write_records hwrite
        rw [← hnil rfl, hsplit, List.nil_append]
    exact hrule cipher rfl

theorem sendEncrypted_drained (hq : layer.queued t = [])
    (h : sendEncrypted tx fuel t w out = some (.ok (), t', w')) : layer.queued t' = [] := by
  unfold sendEncrypted at h
  dsimp only at h
  split at h
  · rw [buildEncryptedFrame] at h
    rcases henc : encryptPayload tx fuel t (plainOf out.message_id out.payload) with
      _ | ⟨e | cipher, conn⟩
    · simp [henc] at h
    · simp [henc] at h
    · simp only [henc] at h
      split at h
      · simp at h
      · cases h
        exact encryptPayload_drained layer henc
  · let Q : Option (Except SendError Unit × T × Writer) → Prop := fun res =>
      ∀ x, res = some x → x.1 = .ok () → layer.queued x.2.1 = []
    have hrule : Q (some (.ok (), t', w')) := by
      refine loop_rule (Q := Q) (I := fun s => layer.queued s.conn = []) hq ?_ ?_
        (Option.join_eq_some_iff.mp h)
      · intro s s' _ hstep
        obtain ⟨_, cipher, conn, writer, henc, _, rfl⟩ := fragmentTurn_inl hstep
        exact encryptPayload_drained layer henc
      · rintro s _ hs hstep x rfl hok
        rcases fragmentTurn_inr hstep with ⟨_, rfl⟩ | ⟨⟨e, he⟩, _⟩
        · exact hs
        · rw [he] at hok
          cases hok
    exact hrule _ rfl rfl

theorem decryptAll_append {as bs xs ys : List Bytes} {r₁ r₂ : R}
    (has : decryptAll rx fuel r as = some (.ok xs, r₁))
    (hbs : decryptAll rx fuel r₁ bs = some (.ok ys, r₂)) :
    decryptAll rx fuel r (as ++ bs) = some (.ok (xs ++ ys), r₂) := by
  induction as generalizing r xs with
  | nil =>
    cases has
    exact hbs
  | cons a as ih =>
    rw [decryptAll] at has
    rw [List.cons_append, decryptAll]
    rcases hone : decryptPayload rx fuel r a with _ | ⟨e | x, c⟩
    · simp [hone] at has
    · simp [hone] at has
    · simp only [hone] at has ⊢
      rcases hrest : decryptAll rx fuel c as with _ | ⟨e | zs, c'⟩
      · simp [hrest] at has
      · simp [hrest] at has
      · simp only [hrest] at has
        cases has
        rw [ih hrest]
        rfl

/-- Each of the messages said so far is on the wire as one group of fragments, and a head unit that
has read them all waits for more. -/
structure Reads (layer : RecordLayer tx rx) (fuel : Nat) (r₀ : R) (w₀ : Writer)
    (gs : List (List (Frame × Bytes))) (t : T) (w : Writer) (said : List OutboundMessage) :
    Prop where
  wire : w.wire = w₀.wire ++ encodeAll (gs.flatten.map (·.1))
  each : List.Forall₂ Fragments said gs
  opened : ∃ r, decryptAll rx fuel r₀ (gs.flatten.map (·.1.payload)) =
    some (.ok (gs.flatten.map (·.2)), r) ∧ layer.Settled t r []
  drained : layer.queued t = []

theorem reads_send (h : Reads layer fuel' r₀ w₀ gs t w said) (hfuel : 65536 ≤ fuel')
    (hsize : (plainOf out.message_id out.payload).length < 2 ^ 32)
    (hsend : sendEncrypted tx fuel t w out = some (.ok (), t', w'))
    (hcalm : ¬ layer.alerted t') :
    ∃ g, Reads layer fuel' r₀ w₀ (gs ++ [g]) t' w' (said ++ [out]) := by
  obtain ⟨r, hall, hset⟩ := h.opened
  obtain ⟨g, hwire, hfragments, hin⟩ := sendEncrypted_sent hset.inFlight h.drained hsize hsend
  have hshort : ∀ rec ∈ records g, rec.1.length < fuel' ∧ rec.2.length < fuel' := by
    intro rec hrec
    obtain ⟨p, hp, rfl⟩ := List.mem_map.mp hrec
    have hfits := (hfragments.each p hp).valid.payload_le
    have hle := (hfragments.each p hp).le
    unfold MAX_FRAGMENT_PLAINTEXT at hle
    dsimp only
    omega
  obtain ⟨r', hmore, hset'⟩ := decryptAll_ok ⟨hin, hset.taken, hset.opened⟩ hcalm hshort
  simp only [records, List.map_map, Function.comp_def] at hmore
  refine ⟨g, ?_, ?_, ⟨r', ?_, hset'⟩, sendEncrypted_drained h.drained hsend⟩
  · rw [hwire, h.wire, List.append_assoc, ← encodeAll_append]
    simp
  · exact List.rel_append h.each (.cons hfragments .nil)
  · simpa using decryptAll_append hall hmore

theorem reads_sendAll (h : Reads layer fuel' r₀ w₀ gs session.conn session.writer said)
    (hfuel : 65536 ≤ fuel')
    (hsize : ∀ out ∈ outs, (plainOf out.message_id out.payload).length < 2 ^ 32)
    (hsend : sendAll tx fuel session outs = some (.ok (), session'))
    (hcalm : ¬ layer.alerted session'.conn) :
    ∃ gs', Reads layer fuel' r₀ w₀ gs' session'.conn session'.writer (said ++ outs) := by
  induction outs generalizing session said gs with
  | nil =>
    cases hsend
    exact ⟨gs, by rwa [List.append_nil]⟩
  | cons out outs ih =>
    rw [sendAll] at hsend
    rcases hone : sendEncrypted tx fuel session.conn session.writer out with
      _ | ⟨e | ⟨⟨⟩⟩, conn, writer⟩
    · simp [hone] at hsend
    · simp [hone] at hsend
    · simp only [hone] at hsend
      have hmid : ¬ layer.alerted conn :=
        fun halert => hcalm (sendAll_keeps layer.alerted_sends halert hsend).1
      obtain ⟨g, hreads⟩ := reads_send h hfuel (hsize out (List.mem_cons_self ..)) hone hmid
      obtain ⟨gs', hrest⟩ := @ih { session with conn, writer } _ _ hreads
        (fun out h => hsize out (List.mem_cons_of_mem _ h)) hsend
      exact ⟨gs', by simpa using hrest⟩

/-- All that a turn does to the connection before it sends is to decrypt a payload. -/
theorem turnMessages_conn (h : turnMessages tx p fl fuel session turn = some (session', outs)) :
    session'.writer = session.writer ∧ (session'.conn = session.conn ∨
      ∃ cipher res, decryptPayload tx fuel session.conn cipher = some res ∧
        session'.conn = res.2) := by
  cases turn with
  | request | closed | nav | audio | video =>
    cases h
    exact ⟨rfl, .inl rfl⟩
  | frame frame =>
    have hconn : ∀ {m conn}, openFrame tx fuel session.conn frame = some (m, conn) →
        conn = session.conn ∨
          ∃ cipher res, decryptPayload tx fuel session.conn cipher = some res ∧ conn = res.2 := by
      intro m conn hopen
      rw [openFrame] at hopen
      split at hopen
      · rcases hdec : decryptPayload tx fuel session.conn frame.payload with _ | ⟨e | plain, c⟩
        · simp [hdec] at hopen
        · simp only [hdec] at hopen
          cases hopen
          exact .inr ⟨_, _, hdec, rfl⟩
        · simp only [hdec] at hopen
          cases hopen
          exact .inr ⟨_, _, hdec, rfl⟩
      · cases hopen
        exact .inl rfl
    rw [turnMessages] at h
    rcases hopen : openFrame tx fuel session.conn frame with _ | ⟨e | m, conn⟩
    · simp [hopen] at h
    · simp only [hopen] at h
      cases h
      exact ⟨rfl, hconn hopen⟩
    · simp only [hopen] at h
      cases h
      exact ⟨rfl, hconn hopen⟩

theorem turnMessages_alerted (hrecv : Receiving layer)
    (h : turnMessages tx p fl fuel session turn = some (session', outs))
    (halert : layer.alerted session.conn) : layer.alerted session'.conn := by
  obtain ⟨-, hsame | ⟨cipher, res, hdec, hconn⟩⟩ := turnMessages_conn h
  · rwa [hsame]
  · rw [hconn]
    exact decryptPayload_keeps hrecv.alerted halert hdec

/-- What a turn does before it sends leaves what is already sent alone. -/
theorem reads_turn (hrecv : Receiving layer)
    (h : Reads layer fuel' r₀ w₀ gs session.conn session.writer said)
    (hmsgs : turnMessages tx p fl fuel session turn = some (session', outs))
    (hcalm : ¬ layer.alerted session'.conn) :
    Reads layer fuel' r₀ w₀ gs session'.conn session'.writer said := by
  obtain ⟨hwriter, hsame | ⟨cipher, res, hdec, hconn⟩⟩ := turnMessages_conn hmsgs
  · rw [hwriter, hsame]
    exact h
  · obtain ⟨r, hall, hset⟩ := h.opened
    rw [hconn] at hcalm
    obtain ⟨hin, hq⟩ := decryptPayload_kept hrecv hset.inFlight hcalm hdec
    rw [hwriter, hconn]
    exact ⟨h.wire, h.each, ⟨r, hall, hin, hset.taken, hset.opened⟩, hq.trans h.drained⟩

/-- A step of the loop sends what its turn has to send. -/
theorem next_sends (h : next tx p fl fuel s turn = some s') :
    ∃ session outs res, turnMessages tx p fl fuel s.session turn = some (session, outs) ∧
      sendAll tx fuel session outs = some (res, s'.session) := by
  obtain ⟨phase, session, log⟩ := s
  unfold next at h
  dsimp only at h ⊢
  split at h
  · split at h <;> rename_i hsend <;> cases h <;> exact ⟨_, _, _, rfl, hsend⟩
  · obtain ⟨⟨res, session'⟩, hframe, rfl⟩ := Option.map_eq_some_iff.mp h
    obtain ⟨s₁, outs, res', hmsgs, -, hsend⟩ := handleFrame_messages hframe
    exact ⟨_, _, _, hmsgs, hsend⟩
  · cases h
    exact ⟨_, _, _, rfl, rfl⟩
  · obtain ⟨⟨res, session'⟩, hsend, rfl⟩ := Option.map_eq_some_iff.mp h
    exact ⟨_, _, _, rfl, hsend⟩
  · obtain ⟨⟨res, session'⟩, hsend, rfl⟩ := Option.map_eq_some_iff.mp h
    exact ⟨_, _, _, rfl, hsend⟩
  · obtain ⟨⟨res, session'⟩, hsend, rfl⟩ := Option.map_eq_some_iff.mp h
    exact ⟨_, _, _, rfl, hsend⟩
  · cases h

/-- A connection that is alerted stays so. -/
theorem calm_back (hrecv : Receiving layer) (hnext : next tx p fl fuel s turn = some s')
    (h : ¬ layer.alerted s'.session.conn) : ¬ layer.alerted s.session.conn := by
  obtain ⟨session, outs, res, hmsgs, hsend⟩ := next_sends hnext
  intro halert
  have hopened := turnMessages_alerted hrecv hmsgs halert
  exact h (sendAll_keeps layer.alerted_sends hopened hsend).1

theorem reads_step (hrecv : Receiving layer) (hfuel : 65536 ≤ fuel')
    (h : Reads layer fuel' r₀ w₀ gs s.session.conn s.session.writer said)
    (hstep : Guard (Steps (next tx p fl fuel)) (Sends tx p fl fuel) s turn s')
    (hcalm : ¬ layer.alerted s'.session.conn) :
    ∃ gs', Reads layer fuel' r₀ w₀ gs' s'.session.conn s'.session.writer
      (said ++ ((turnMessages tx p fl fuel s.session turn).map (·.2)).getD []) := by
  obtain ⟨hnext, hsends⟩ := hstep
  obtain ⟨session, outs, res, hmsgs, hsend⟩ := next_sends hnext
  obtain ⟨hsize, hok⟩ := hsends _ hmsgs
  dsimp only at hsize hok
  rw [hsend] at hok
  obtain e | ⟨⟨⟩⟩ := res
  · cases hok
  · have hmid : ¬ layer.alerted session.conn :=
      fun halert => hcalm (sendAll_keeps layer.alerted_sends halert hsend).1
    rw [hmsgs]
    exact reads_sendAll (reads_turn hrecv h hmsgs hmid) hfuel hsize hsend hcalm

theorem reads_run (hrecv : Receiving layer) (hfuel : 65536 ≤ fuel')
    (hrun : Run (Guard (Steps (next tx p fl fuel)) (Sends tx p fl fuel)) s turns s')
    (hcalm : ¬ layer.alerted s'.session.conn)
    (h : Reads layer fuel' r₀ w₀ gs s.session.conn s.session.writer said) :
    ∃ gs', Reads layer fuel' r₀ w₀ gs' s'.session.conn s'.session.writer
      (said ++ saidIn tx p fl fuel s turns) := by
  induction hrun generalizing gs said with
  | refl => exact ⟨gs, by simpa [saidIn] using h⟩
  | stepL hstep hrest ih =>
    have hmid := hrest.backward (fun s turn s' h =>
      calm_back hrecv (show next tx p fl fuel s turn = some s' from h.1)) hcalm
    obtain ⟨gs₁, hreads⟩ := reads_step hrecv hfuel h hstep hmid
    obtain ⟨gs', hrest⟩ := ih hcalm hreads
    have hnext : next tx p fl fuel _ _ = some _ := hstep.1
    refine ⟨gs', ?_⟩
    rw [saidIn, hnext]
    simpa using hrest

/-- The fragments of a message end with their last one, and put together they are the message. -/
theorem fragments_joined (h : Fragments out g) :
    Closed (fun p => endsMessage p.1.frame_type) g ∧ joined g = some (wholeMessage out) := by
  have hclosed : Closed endsMessage (g.map fun p => p.1.frame_type) := by
    by_cases hshort : (plainOf out.message_id out.payload).length ≤ MAX_FRAGMENT_PLAINTEXT
    · rw [h.single hshort]
      exact ⟨[], .bulk, rfl, rfl, by simp⟩
    · obtain ⟨k, htypes⟩ := h.several (Nat.lt_of_not_le hshort)
      rw [htypes]
      refine ⟨.first :: List.replicate k .middle, .last, rfl, rfl, ?_⟩
      intro b hb
      rcases List.mem_cons.mp hb with rfl | hb
      · rfl
      · rw [List.eq_of_mem_replicate hb]
        rfl
  have hg := closed_of_map hclosed
  refine ⟨hg, ?_⟩
  obtain ⟨init, a, rfl, -, -⟩ := hg
  obtain ⟨q, rest, hcons⟩ : ∃ q rest, init ++ [a] = q :: rest :=
    List.exists_cons_of_ne_nil (by simp)
  have hchannel := (h.each q (by simp [hcons])).channel
  rw [joined, h.flatten, hcons]
  simp only [List.head?_cons, Option.bind_some, hchannel, readMessage_plainOf]
  rfl

theorem fragments_all (h : List.Forall₂ Fragments said gs) :
    (∀ g ∈ gs, Closed (fun p => endsMessage p.1.frame_type) g) ∧
      (∀ f ∈ gs.flatten.map (·.1), f.Valid) ∧ gs.mapM joined = some (said.map wholeMessage) := by
  induction h with
  | nil => exact ⟨by simp, by simp, rfl⟩
  | @cons out g said gs hfragments _ ih =>
    obtain ⟨hclosed, hvalid, hjoined⟩ := ih
    obtain ⟨hg, hmessage⟩ := fragments_joined hfragments
    refine ⟨List.forall_mem_cons.mpr ⟨hg, hclosed⟩, ?_, ?_⟩
    · rw [List.flatten_cons, List.map_append]
      refine List.forall_mem_append.mpr ⟨?_, hvalid⟩
      intro f hf
      obtain ⟨p, hp, rfl⟩ := List.mem_map.mp hf
      exact (hfragments.each p hp).valid
    · rw [List.mapM_cons, hmessage, hjoined]
      rfl

theorem headUnit_reads (h : Reads layer fuel' r₀ w₀ gs t w said) {chunks : List Bytes}
    (hchunks : w.wire = w₀.wire ++ chunks.flatten) :
    headUnit rx fuel' r₀ chunks = some (said.map wholeMessage) := by
  obtain ⟨r, hall, -⟩ := h.opened
  obtain ⟨hclosed, hvalid, hjoined⟩ := fragments_all h.each
  have hstream : chunks.flatten = encodeAll (gs.flatten.map (·.1)) :=
    List.append_cancel_left (hchunks.symm.trans h.wire)
  have hfeed : feed Frame.parse chunks [] = (gs.flatten.map (·.1), []) :=
    frameCode.feed_encodeAll hvalid hstream
  have hzip : (gs.flatten.map (·.1)).zip (gs.flatten.map (·.2)) = gs.flatten := by
    rw [← List.unzip_fst, ← List.unzip_snd, List.zip_unzip]
  rw [headUnit, hfeed]
  simp only [List.map_map, Function.comp_def, hall, hzip, cut_flatten hclosed, hjoined]

/-- In every run whose sends succeed, whatever the order of the replies, navigation, audio and
video, and however the transport cuts what is written, the head unit reads the messages that were
sent, in order, each once and whole, for as long as the sender's TLS library has queued no alert. -/
theorem head_unit_reads_all (layer : RecordLayer tx rx) (hrecv : Receiving layer)
    (hset : layer.Settled session.conn r₀ []) (hq : layer.queued session.conn = [])
    (hfuel : 65536 ≤ fuel')
    (hrun : Run (Guard (Steps (next tx p fl fuel)) (Sends tx p fl fuel)) (start session) turns s)
    (hcalm : ¬ layer.alerted s.session.conn) {chunks : List Bytes}
    (hchunks : s.session.writer.wire = session.writer.wire ++ chunks.flatten) :
    headUnit rx fuel' r₀ chunks =
      some ((saidIn tx p fl fuel (start session) turns).map wholeMessage) := by
  have hstart : Reads layer fuel' r₀ session.writer [] (start session).session.conn
      (start session).session.writer [] := by
    refine ⟨?_, .nil, ⟨r₀, rfl, hset⟩, hq⟩
    simp [start, encodeAll]
  obtain ⟨gs, hreads⟩ := reads_run hrecv hfuel hrun hcalm hstart
  rw [List.nil_append] at hreads
  exact headUnit_reads hreads hchunks

theorem clear_receiving : Receiving clearLayer where
  read_records := by
    intro t t' r recs bs res hin h
    cases h
    exact ⟨hin, rfl⟩
  process := by
    intro t t' r recs res hin h _
    dsimp only [clearSide] at h
    split at h <;> cases h <;> exact ⟨hin, rfl⟩
  read := by
    intro t t' r recs n res hin h
    dsimp only [clearSide] at h
    split at h <;> cases h <;> exact ⟨hin, rfl⟩
  alerted := ⟨fun h _ => h, fun h _ => h, fun h _ => h⟩

/-- The request, the reply to a ping, and a message on the audio channel that takes two frames,
wherever the transport cuts the bytes in two. -/
theorem head_unit_reads_three : ∃ (wire : Bytes) (said : List Message),
    (∀ n, headUnit clearSide 65536 ⟨[], [], []⟩ [wire.take n, wire.drop n] = some said) ∧
      said.map (fun m => (m.channel, m.msg_id, m.body.length)) =
        [(0, 5, 0), (0, 12, 0), (4, 0, 7940)] := by
  let turns : List Turn := [.request, .frame pingFrame, .audio ⟨4, 0, List.replicate 7940 7⟩]
  have hrun : (turns.foldlM (guarded (next clearSide okBodies FixRouting.wholeUnits 8000)
      (Sends clearSide okBodies FixRouting.wholeUnits 8000))
      (start FixRouting.freshSession)).isSome = true := by
    decide +kernel
  obtain ⟨s, hrun⟩ := Option.isSome_iff_exists.mp hrun
  have hset : clearLayer.Settled FixRouting.freshSession.conn ⟨[], [], []⟩ [] := by
    refine ⟨?_, rfl, rfl⟩
    intro p hp
    cases hp
  let said := (saidIn clearSide okBodies FixRouting.wholeUnits 8000
    (start FixRouting.freshSession) turns).map wholeMessage
  have hread : ∀ n, headUnit clearSide 65536 ⟨[], [], []⟩
      [s.session.writer.wire.take n, s.session.writer.wire.drop n] = some said := by
    intro n
    exact head_unit_reads_all clearLayer clear_receiving hset rfl (by decide)
      (run_guard_iff_foldlM.mpr hrun) id (by simp [FixRouting.freshSession])
  exact ⟨_, said, hread, by decide +kernel⟩

end Aabox.HeadUnit
