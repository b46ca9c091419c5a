import Aabox.Lib.Run
import Aabox.TlsTunnel

/-! The two drivers against each other: what each has sent when it returns, and how they wait. -/
namespace Aabox.Handshake
open Aabox.Lib Aabox.Framing Aabox.Control Aabox.Encrypted Aabox.TlsTunnel

variable {C S : Type}

/-- Both ends; a frame that a driver receives may be any frame the transport comes up with. -/
structure Pair (C S : Type) where
  client : Driver C
  server : Driver S

inductive PairEvent
  | client (ev : DriverEvent)
  | server (ev : DriverEvent)
  deriving DecidableEq, Repr

def next (tls : Connection C) (peer : Connection S) (fuel : Nat) (s : Pair C S) :
    PairEvent → Option (Pair C S)
  | .client ev => (clientNext tls fuel s.client ev).map fun client => { s with client }
  | .server ev => (serverNext peer fuel s.server ev).map fun server => { s with server }

/-- A connection to begin with: the handshake lies ahead, or there is nothing to send. -/
def Initial (tls : Connection C) (conn : C) : Prop :=
  tls.is_handshaking conn = true ∨ tls.wants_write conn = false

/-- What `write_tls` gives at once fits the length field of one frame. -/
def FitsFrame (tls : Connection C) (conn : C) : Prop :=
  ∀ buf ∈ (tls.tls_write_records conn).1.toOption, buf.length ≤ 65533

/-- The frame does not end the handshake with a flight of the connection's own left to send. -/
def PeerFlightLast (tls : Connection C) (fuel : Nat) (conn : C) (frame : Frame) : Prop :=
  ∀ taken ∈ takeFrame tls fuel conn frame, taken.1 = .ok () → Initial tls taken.2

/-- The client is not the one to send the last flight, and no buffer outgrows its frame. -/
def Flushing (tls : Connection C) (peer : Connection S) (fuel : Nat) (s : Pair C S) :
    PairEvent → Prop
  | .client (.receive (.ok frame)) => PeerFlightLast tls fuel s.client.conn frame
  | .client .turn => s.client.pc = .draining → FitsFrame tls s.client.conn
  | .server .turn => s.server.pc = .draining → FitsFrame peer s.server.conn
  | _ => True

instance (tls : Connection C) (conn : C) : Decidable (Initial tls conn) :=
  inferInstanceAs (Decidable (_ ∨ _))

instance (tls : Connection C) (conn : C) : Decidable (FitsFrame tls conn) :=
  inferInstanceAs (Decidable (∀ buf ∈ _, _))

instance (tls : Connection C) (fuel : Nat) (conn : C) (frame : Frame) :
    Decidable (PeerFlightLast tls fuel conn frame) :=
  inferInstanceAs
    (Decidable (∀ taken ∈ takeFrame tls fuel conn frame, taken.1 = .ok () → Initial tls taken.2))

instance (tls : Connection C) (peer : Connection S) (fuel : Nat) (s : Pair C S) :
    (e : PairEvent) → Decidable (Flushing tls peer fuel s e)
  | .client (.receive (.ok _)) => inferInstanceAs (Decidable (PeerFlightLast _ _ _ _))
  | .client .turn => inferInstanceAs (Decidable (_ → FitsFrame _ _))
  | .server .turn => inferInstanceAs (Decidable (_ → FitsFrame _ _))
  | .client (.receive (.error _)) | .client .writeFails | .server (.receive _)
  | .server .writeFails => isTrue trivial

/-- Nothing is left to send, and what `write_tls` gave has gone out in order, in frames that carry
it whole. -/
structure Flushed (tls : Connection C) (d : Driver C) : Prop where
  quiet : tls.wants_write d.conn = false
  sent : ∃ chunks : List Bytes, chunks.flatten = d.produced.flatten ∧
    d.sent = chunks.map sslHandshakeFrame ∧ ∀ f ∈ d.sent, f.Valid

variable {tls : Connection C} {peer : Connection S} {fuel : Nat} {d d' : Driver C} {s t : Pair C S}
  {c₀ : C} {s₀ : S} {es : List PairEvent} {ev : DriverEvent} {pc : Pc} {frame : Frame}
  {r : Except ReadError Frame} {body : Bytes}

/-- What is out so far, unless a write has failed. -/
def Sent (d : Driver C) : Prop :=
  (∃ chunks : List Bytes, chunks.flatten = d.produced.flatten ∧
    d.sent = chunks.map sslHandshakeFrame ∧ ∀ f ∈ d.sent, f.Valid) ∨
    ∃ e, d.pc = .returned (.error e)

theorem valid_sslHandshakeFrame (h : body.length ≤ 65533) : (sslHandshakeFrame body).Valid := by
  refine ⟨?_, ?_⟩
  · simp [sslHandshakeFrame, Frame.bulkControl]
    omega
  · simp [sslHandshakeFrame, Frame.bulkControl]

theorem sent_start (conn : C) : Sent (start conn) := .inl ⟨[], rfl, rfl, by simp [start]⟩

/-- The drain stays where it is, or returns an error. -/
theorem drain_pc {written : Bool} (hstep : drain tls d written = some d') :
    d'.pc = d.pc ∨ ∃ e, d'.pc = .returned (.error e) := by
  unfold TlsTunnel.drain at hstep
  split at hstep
  · cases hstep
    exact .inr ⟨_, rfl⟩
  · split at hstep <;> cases hstep
    exact .inl rfl
  · dsimp only at hstep
    split at hstep <;> cases hstep
    · exact .inl rfl
    · exact .inr ⟨_, rfl⟩

/-- The drain sends what it takes from the connection. -/
theorem drain_sent {written : Bool} (h : Sent d) (hpc : d.pc = .draining)
    (hfits : written = true → FitsFrame tls d.conn) (hstep : drain tls d written = some d') :
    Sent d' := by
  have hlog : ∃ chunks : List Bytes, chunks.flatten = d.produced.flatten ∧
      d.sent = chunks.map sslHandshakeFrame ∧ ∀ f ∈ d.sent, f.Valid := by
    rcases h with hlog | ⟨e, he⟩
    · exact hlog
    · rw [hpc] at he
      cases he
  obtain ⟨chunks, hflat, hsent, hvalid⟩ := hlog
  unfold TlsTunnel.drain at hstep
  split at hstep
  · cases hstep
    exact .inr ⟨_, rfl⟩
  · split at hstep <;> cases hstep
    exact .inl ⟨chunks, by simpa using hflat, hsent, hvalid⟩
  · rename_i b bs conn hwrite
    dsimp only at hstep
    split at hstep <;> cases hstep
    · rename_i hwritten
      have hlen := hfits hwritten (b :: bs) (by rw [hwrite]; rfl)
      refine .inl ⟨chunks ++ [b :: bs], ?_, ?_, ?_⟩
      · simp [hflat]
      · simp [hsent]
      · intro f hf
        rcases List.mem_append.mp hf with hf | hf
        · exact hvalid f hf
        · obtain rfl := List.mem_singleton.mp hf
          exact valid_sslHandshakeFrame hlen
    · exact .inr ⟨_, rfl⟩

/-- A frame leaves what has been sent alone, and is an error or taken in whole. -/
theorem receive_cases (h : receive tls fuel d pc r = some d') :
    d'.produced = d.produced ∧ d'.sent = d.sent ∧
      ((∃ e, d'.pc = .returned (.error e)) ∨
        d'.pc = pc ∧ ∃ frame, r = .ok frame ∧
        takeFrame tls fuel d.conn frame = some (.ok (), d'.conn)) := by
  unfold receive at h
  split at h
  · cases h
    exact ⟨rfl, rfl, .inl ⟨_, rfl⟩⟩
  · rename_i frame
    split at h
    · cases h
    · cases h
      exact ⟨rfl, rfl, .inl ⟨_, rfl⟩⟩
    · rename_i conn htake
      cases h
      exact ⟨rfl, rfl, .inr ⟨rfl, frame, rfl, htake⟩⟩

theorem clientNext_cases (h : clientNext tls fuel d ev = some d') :
    (d.pc = .test ∧ d' = { d with
      pc := if tls.is_handshaking d.conn then .draining else .returned (.ok ()) }) ∨
    (d.pc = .draining ∧ ∃ written, drain tls d written = some d' ∧ (written = true → ev = .turn)) ∨
    (d.pc = .draining ∧ tls.wants_write d.conn = false ∧ d' = { d with
      pc := if tls.is_handshaking d.conn then .reading else .test }) ∨
    (d.pc = .reading ∧ ∃ r, ev = .receive r ∧ receive tls fuel d .test r = some d') := by
  unfold clientNext at h
  split at h
  · rename_i hpc
    cases h
    exact .inl ⟨hpc, rfl⟩
  · rename_i hpc
    split at h
    · exact .inr (.inl ⟨hpc, true, h, fun _ => rfl⟩)
    · rename_i hquiet
      cases h
      exact .inr (.inr (.inl ⟨hpc, by simpa using hquiet, rfl⟩))
  · rename_i hpc
    split at h
    · exact .inr (.inl ⟨hpc, false, h, fun hw => by cases hw⟩)
    · cases h
  · rename_i r hpc
    exact .inr (.inr (.inr ⟨hpc, r, rfl, h⟩))
  · cases h

theorem serverNext_cases (h : serverNext tls fuel d ev = some d') :
    (d.pc = .test ∧ tls.is_handshaking d.conn = true ∧ d' = { d with
      pc := if tls.wants_write d.conn then .draining else .reading }) ∨
    (d.pc = .test ∧ tls.is_handshaking d.conn = false ∧ d' = { d with pc := .returned (.ok ()) }) ∨
    (d.pc = .draining ∧ ∃ written, drain tls d written = some d' ∧ (written = true → ev = .turn)) ∨
    (d.pc = .draining ∧ tls.wants_write d.conn = false ∧ d' = { d with pc := .test }) ∨
    (d.pc = .reading ∧ ∃ r, ev = .receive r ∧ receive tls fuel d .draining r = some d') := by
  unfold serverNext at h
  split at h
  · rename_i hpc
    split at h
    · rename_i hhs
      cases h
      refine .inl ⟨hpc, hhs, ?_⟩
      rw [hhs]
      cases tls.wants_write d.conn <;> rfl
    · rename_i hhs
      cases h
      exact .inr (.inl ⟨hpc, by simpa using hhs, rfl⟩)
  · rename_i hpc
    split at h
    · exact .inr (.inr (.inl ⟨hpc, true, h, fun _ => rfl⟩))
    · rename_i hquiet
      cases h
      exact .inr (.inr (.inr (.inl ⟨hpc, by simpa using hquiet, rfl⟩)))
  · rename_i hpc
    split at h
    · exact .inr (.inr (.inl ⟨hpc, false, h, fun hw => by cases hw⟩))
    · cases h
  · rename_i r hpc
    exact .inr (.inr (.inr (.inr ⟨hpc, r, rfl, h⟩)))
  · cases h

/-- A driver in `read_frame` has nothing to send. -/
def WaitsQuiet (tls : Connection C) (d : Driver C) : Prop :=
  d.pc = .reading → tls.wants_write d.conn = false

theorem waitsQuiet_drain {written : Bool} (hpc : d.pc = .draining)
    (hstep : drain tls d written = some d') : WaitsQuiet tls d' := by
  rcases drain_pc hstep with hpc' | ⟨e, hpc'⟩
  · simp [WaitsQuiet, hpc', hpc]
  · simp [WaitsQuiet, hpc']

theorem waitsQuiet_receive (hpc : pc ≠ .reading) (hstep : receive tls fuel d pc r = some d') :
    WaitsQuiet tls d' := by
  obtain ⟨-, -, ⟨e, hpc'⟩ | ⟨hpc', -⟩⟩ := receive_cases hstep
  · simp [WaitsQuiet, hpc']
  · simp [WaitsQuiet, hpc', hpc]

theorem waitsQuiet_client (hstep : clientNext tls fuel d ev = some d') : WaitsQuiet tls d' := by
  rcases clientNext_cases hstep with ⟨-, rfl⟩ | ⟨hpc, written, hdrain, -⟩ | ⟨-, hquiet, rfl⟩ |
    ⟨-, r, -, hreceive⟩
  · cases hhs : tls.is_handshaking d.conn <;> simp [WaitsQuiet]
  · exact waitsQuiet_drain hpc hdrain
  · exact fun _ => hquiet
  · exact waitsQuiet_receive (by simp) hreceive

theorem waitsQuiet_server (hstep : serverNext tls fuel d ev = some d') : WaitsQuiet tls d' := by
  rcases serverNext_cases hstep with ⟨-, -, rfl⟩ | ⟨-, -, rfl⟩ | ⟨hpc, written, hdrain, -⟩ |
    ⟨-, -, rfl⟩ | ⟨-, r, -, hreceive⟩
  · cases hw : tls.wants_write d.conn <;> simp [WaitsQuiet, hw]
  · simp [WaitsQuiet]
  · exact waitsQuiet_drain hpc hdrain
  · simp [WaitsQuiet]
  · exact waitsQuiet_receive (by simp) hreceive

/-- The two drivers never wait for each other while one of them has something to send. -/
theorem waits_run (h : Run (Steps (next tls peer fuel)) ⟨start c₀, start s₀⟩ es s) :
    WaitsQuiet tls s.client ∧ WaitsQuiet peer s.server := by
  refine h.invariant (I := fun s => WaitsQuiet tls s.client ∧ WaitsQuiet peer s.server) ?_
    (by simp [WaitsQuiet, start])
  intro s e t hs hstep
  cases e with
  | client ev =>
    obtain ⟨d, hd, rfl⟩ := Option.map_eq_some_iff.mp hstep
    exact ⟨waitsQuiet_client hd, hs.2⟩
  | server ev =>
    obtain ⟨d, hd, rfl⟩ := Option.map_eq_some_iff.mp hstep
    exact ⟨hs.1, waitsQuiet_server hd⟩

/-- A driver that has returned has nothing left to send; before the loop's test it has nothing to
send unless the handshake goes on. -/
structure DriverInv (tls : Connection C) (d : Driver C) : Prop where
  sent : Sent d
  test : d.pc = .test → Initial tls d.conn
  returned : d.pc = .returned (.ok ()) → tls.wants_write d.conn = false

theorem driverInv_start {conn : C} (h : Initial tls conn) : DriverInv tls (start conn) :=
  ⟨sent_start conn, fun _ => h, by simp [start]⟩

/-- A step that leaves the log alone keeps it, if the driver had not failed. -/
theorem Sent.congr (h : Sent d) (hpc : ∀ e, d.pc ≠ .returned (.error e))
    (hproduced : d'.produced = d.produced) (hsent : d'.sent = d.sent) : Sent d' := by
  rcases h with hlog | ⟨e, he⟩
  · rw [← hproduced, ← hsent] at hlog
    exact .inl hlog
  · exact (hpc e he).elim

theorem driverInv_error {e : TunnelError} (hpc : d.pc = .returned (.error e)) : DriverInv tls d :=
  ⟨.inr ⟨e, hpc⟩, by simp [hpc], by simp [hpc]⟩

theorem driverInv_move (h : DriverInv tls d) (hpc : ∀ e, d.pc ≠ .returned (.error e))
    (htest : pc = .test → Initial tls d.conn)
    (hreturned : pc = .returned (.ok ()) → tls.wants_write d.conn = false) :
    DriverInv tls { d with pc } := ⟨h.sent.congr hpc rfl rfl, htest, hreturned⟩

/-- An initial connection that does not handshake has nothing to send. -/
theorem Initial.quiet {conn : C} (h : Initial tls conn) (hhs : tls.is_handshaking conn = false) :
    tls.wants_write conn = false := by
  rcases h with hinit | hquiet
  · rw [hhs] at hinit
    cases hinit
  · exact hquiet

theorem driverInv_drain {written : Bool} (h : DriverInv tls d) (hpc : d.pc = .draining)
    (hfits : written = true → FitsFrame tls d.conn) (hstep : drain tls d written = some d') :
    DriverInv tls d' := by
  rcases drain_pc hstep with hpc' | ⟨e, hpc'⟩
  · exact ⟨drain_sent h.sent hpc hfits hstep, by simp [hpc', hpc], by simp [hpc', hpc]⟩
  · exact driverInv_error hpc'

theorem driverInv_receive (h : DriverInv tls d) (hpc : d.pc = .reading)
    (hret : pc ≠ .returned (.ok ()))
    (htest : ∀ frame conn, r = .ok frame → takeFrame tls fuel d.conn frame = some (.ok (), conn) →
      pc = .test → Initial tls conn)
    (hstep : receive tls fuel d pc r = some d') : DriverInv tls d' := by
  obtain ⟨hproduced, hsent, ⟨e, hpc'⟩ | ⟨hpc', frame, hr, htake⟩⟩ := receive_cases hstep
  · exact driverInv_error hpc'
  · exact ⟨h.sent.congr (by simp [hpc]) hproduced hsent,
      fun ht => htest frame _ hr htake (hpc'.symm.trans ht), fun hret' => (hret (hpc' ▸ hret')).elim⟩

theorem driverInv_client (h : DriverInv tls d)
    (hfits : ev = .turn → d.pc = .draining → FitsFrame tls d.conn)
    (hlast : ∀ frame, ev = .receive (.ok frame) → PeerFlightLast tls fuel d.conn frame)
    (hstep : clientNext tls fuel d ev = some d') : DriverInv tls d' := by
  rcases clientNext_cases hstep with ⟨hpc, rfl⟩ | ⟨hpc, written, hdrain, hturn⟩ | ⟨hpc, hquiet, rfl⟩ |
    ⟨hpc, r, rfl, hreceive⟩
  · cases hhs : tls.is_handshaking d.conn with
    | true => exact driverInv_move h (by simp [hpc]) (by simp) (by simp)
    | false => exact driverInv_move h (by simp [hpc]) (by simp) fun _ => (h.test hpc).quiet hhs
  · exact driverInv_drain h hpc (fun hw => hfits (hturn hw) hpc) hdrain
  · exact driverInv_move h (by simp [hpc]) (fun _ => .inr hquiet) fun _ => hquiet
  · refine driverInv_receive h hpc (by simp) ?_ hreceive
    rintro frame conn rfl htake -
    exact hlast frame rfl _ htake rfl

theorem driverInv_server (h : DriverInv tls d)
    (hfits : ev = .turn → d.pc = .draining → FitsFrame tls d.conn)
    (hstep : serverNext tls fuel d ev = some d') : DriverInv tls d' := by
  rcases serverNext_cases hstep with ⟨hpc, -, rfl⟩ | ⟨hpc, hhs, rfl⟩ | ⟨hpc, written, hdrain, hturn⟩ |
    ⟨hpc, hquiet, rfl⟩ | ⟨hpc, r, rfl, hreceive⟩
  · cases hw : tls.wants_write d.conn <;>
      exact driverInv_move h (by simp [hpc]) (by simp) (by simp)
  · exact driverInv_move h (by simp [hpc]) (by simp) fun _ => (h.test hpc).quiet hhs
  · exact driverInv_drain h hpc (fun hw => hfits (hturn hw) hpc) hdrain
  · exact driverInv_move h (by simp [hpc]) (fun _ => .inr hquiet) fun _ => hquiet
  · exact driverInv_receive h hpc (by simp) (by simp) hreceive

theorem pairInv_step {e : PairEvent} (h : DriverInv tls s.client ∧ DriverInv peer s.server)
    (hstep : Guard (Steps (next tls peer fuel)) (Flushing tls peer fuel) s e t) :
    DriverInv tls t.client ∧ DriverInv peer t.server := by
  obtain ⟨hnext, hflushing⟩ := hstep
  cases e with
  | client ev =>
    obtain ⟨d, hd, rfl⟩ := Option.map_eq_some_iff.mp hnext
    refine ⟨driverInv_client h.1 ?_ ?_ hd, h.2⟩
    · rintro rfl
      exact hflushing
    · rintro frame rfl
      exact hflushing
  | server ev =>
    obtain ⟨d, hd, rfl⟩ := Option.map_eq_some_iff.mp hnext
    refine ⟨h.1, driverInv_server h.2 ?_ hd⟩
    rintro rfl
    exact hflushing

theorem flushed_of_returned (h : DriverInv tls d) (hpc : d.pc = .returned (.ok ())) :
    Flushed tls d := by
  refine ⟨h.returned hpc, ?_⟩
  rcases h.sent with hlog | ⟨e, he⟩
  · exact hlog
  · rw [hpc] at he
    cases he

/-- When the client's peer has the last flight, each driver that returns has sent all there was,
and the two never wait for each other with something to send. -/
theorem flushed_run (hclient : Initial tls c₀) (hserver : Initial peer s₀)
    (h : Run (Guard (Steps (next tls peer fuel)) (Flushing tls peer fuel))
      ⟨start c₀, start s₀⟩ es s) :
    (s.client.pc = .returned (.ok ()) → Flushed tls s.client) ∧
    (s.server.pc = .returned (.ok ()) → Flushed peer s.server) ∧
    (s.client.pc = .reading → s.server.pc = .reading →
      tls.wants_write s.client.conn = false ∧ peer.wants_write s.server.conn = false) := by
  have hinv := h.invariant (I := fun s => DriverInv tls s.client ∧ DriverInv peer s.server)
    (fun _ _ _ hs hstep => pairInv_step hs hstep) ⟨driverInv_start hclient, driverInv_start hserver⟩
  obtain ⟨hwaits, hwaits'⟩ := waits_run (h.mono fun _ _ _ hstep => hstep.1)
  exact ⟨flushed_of_returned hinv.1, flushed_of_returned hinv.2,
    fun hc hs => ⟨hwaits hc, hwaits' hs⟩⟩

/-- A connection that goes through a script of flights, its own and its peer's. -/
inductive Flight
  | own (bytes : Bytes)
  | peer (bytes : Bytes)
  deriving DecidableEq, Repr

structure FlightConn where
  script : List Flight
  out : Bytes
  taken : Bytes
  deriving DecidableEq, Repr

/-- The connection's own flights up to its peer's next one are put out. -/
def release : List Flight → Bytes → FlightConn
  | .own bytes :: script, out => release script (out ++ bytes)
  | script, out => ⟨script, out, []⟩

def flightTls : Connection FlightConn where
  tls_writer_write_all c _ := (.error .other, c)
  tls_reader_read c _ := (.error .wouldBlock, c)
  tls_write_records c := (.ok c.out, { c with out := [] })
  tls_read_records c bs := (.ok bs.length, { c with taken := c.taken ++ bs })
  tls_process_new_packets c :=
    match c.script with
    | .peer bytes :: script => if c.taken = bytes then (.ok (), release script c.out) else (.ok (), c)
    | _ => if c.taken = [] then (.ok (), c) else (.error (), c)
  is_handshaking c := c.script ≠ []
  wants_write c := c.out ≠ []

/-- From the first test to the wait for the peer's flight. -/
def hello : List PairEvent := [.client .turn, .client .turn, .client .turn, .server .turn]

/-- The server answers the client's flight, which takes it to its next test or wait. -/
def answer (from_client from_server : Bytes) : List PairEvent :=
  [.server (.receive (.ok (sslHandshakeFrame from_client))), .server .turn, .server .turn,
    .server .turn, .client (.receive (.ok (sslHandshakeFrame from_server))), .client .turn]

/-- A full handshake of TLS 1.2, in which the server sends last, leaves nothing behind. -/
theorem flushed_full : ∃ s : Pair FlightConn FlightConn,
    Flushed flightTls s.client ∧ Flushed flightTls s.server := by
  obtain ⟨s, hexec, hs⟩ : ∃ s ∈
      (hello ++ answer [1] [2] ++ [PairEvent.client .turn, .client .turn] ++
        answer [3] [4]).foldlM
        (guarded (next flightTls flightTls 2) (Flushing flightTls flightTls 2))
        ⟨start (release [.own [1], .peer [2], .own [3], .peer [4]] []),
          start (release [.peer [1], .own [2], .peer [3], .own [4]] [])⟩,
      s.client.pc = .returned (.ok ()) ∧ s.server.pc = .returned (.ok ()) := by decide
  obtain ⟨hclient, hserver, -⟩ := flushed_run (by decide) (by decide)
    (run_guard_iff_foldlM.mpr hexec)
  exact ⟨s, hclient hs.1, hserver hs.2⟩

/-- A resumed handshake of TLS 1.2, in which the client sends last: it returns with its last flight
unsent, for which the server waits. -/
theorem last_flight_unsent :
    ¬ ∀ (es : List PairEvent) (s : Pair FlightConn FlightConn),
      Run (Steps (next flightTls flightTls 2))
        ⟨start (release [.own [1], .peer [2], .own [3]] []),
          start (release [.peer [1], .own [2], .peer [3]] [])⟩ es s →
      s.client.pc = .returned (.ok ()) → Flushed flightTls s.client := by
  intro h
  obtain ⟨s, hexec, hpc, hwants, -⟩ : ∃ s ∈ (hello ++ answer [1] [2]).foldlM
      (next flightTls flightTls 2)
      ⟨start (release [.own [1], .peer [2], .own [3]] []),
        start (release [.peer [1], .own [2], .peer [3]] [])⟩,
      s.client.pc = .returned (.ok ()) ∧ flightTls.wants_write s.client.conn = true ∧
        s.server.pc = .reading := by decide
  have hquiet := (h _ s (run_iff_foldlM.mpr hexec) hpc).quiet
  rw [hwants] at hquiet
  cases hquiet

end Aabox.Handshake
