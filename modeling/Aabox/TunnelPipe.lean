import Aabox.Handshake
import Aabox.Lib.Fifo

/-!
# The tunnel carries two byte streams

The two handshake drivers over links that keep the frames in order. What `write_tls` gives at one
end is what `read_tls` takes at the other.
-/
namespace Aabox.TunnelPipe
open Aabox.Lib Aabox.Framing Aabox.Control Aabox.Encrypted Aabox.TlsTunnel Aabox.Handshake

variable {C S : Type}

/-- `up` and `down` are the frames in transit, to the server and to the client. -/
structure Tunnel (C S : Type) where
  client : Driver C
  server : Driver S
  up : List Frame
  down : List Frame

inductive Act
  | turn | writeFails
  | readFails (e : ReadError)
  | read
  deriving DecidableEq, Repr

inductive Event
  | client (act : Act)
  | server (act : Act)
  deriving DecidableEq, Repr

/-- An end of the tunnel, the frames it has on the way out and those on their way to it. -/
structure End (C : Type) where
  driver : Driver C
  outgoing : List Frame
  incoming : List Frame

def step (driverNext : Driver C → DriverEvent → Option (Driver C)) (x : End C) :
    Act → Option (End C)
  | .turn => (driverNext x.driver .turn).map fun driver =>
      { x with driver, outgoing := x.outgoing ++ driver.sent.drop x.driver.sent.length }
  | .writeFails => (driverNext x.driver .writeFails).map fun driver => { x with driver }
  | .readFails e => (driverNext x.driver (.receive (.error e))).map fun driver => { x with driver }
  | .read =>
    match x.incoming with
    | frame :: incoming =>
      (driverNext x.driver (.receive (.ok frame))).map fun driver => { x with driver, incoming }
    | [] => none

def next (tls : Connection C) (peer : Connection S) (fuel : Nat) (s : Tunnel C S) :
    Event → Option (Tunnel C S)
  | .client act => (step (clientNext tls fuel) ⟨s.client, s.up, s.down⟩ act).map fun x =>
      { s with client := x.driver, up := x.outgoing, down := x.incoming }
  | .server act => (step (serverNext peer fuel) ⟨s.server, s.down, s.up⟩ act).map fun x =>
      { s with server := x.driver, down := x.outgoing, up := x.incoming }

def start (c : C) (s : S) : Tunnel C S := ⟨TlsTunnel.start c, TlsTunnel.start s, [], []⟩

/-- What a connection hands to the transport fits a frame. -/
def Fits (tls : Connection C) (peer : Connection S) (s : Tunnel C S) : Event → Prop
  | .client .turn => s.client.pc = .draining → FitsFrame tls s.client.conn
  | .server .turn => s.server.pc = .draining → FitsFrame peer s.server.conn
  | _ => True

instance (tls : Connection C) (peer : Connection S) (s : Tunnel C S) :
    (e : Event) → Decidable (Fits tls peer s e)
  | .client .turn | .server .turn => inferInstanceAs (Decidable (_ → FitsFrame _ _))
  | .client .writeFails | .client (.readFails _) | .client .read | .server .writeFails
  | .server (.readFails _) | .server .read => isTrue trivial

/-- `seen` is all the input that `read_tls` has taken. -/
structure Input (tls : Connection C) (seen : C → Bytes) : Prop where
  read : ∀ {c c' bs n}, tls.tls_read_records c bs = (.ok n, c') → seen c' = seen c ++ bs.take n
  readFails : ∀ {c c' bs e}, tls.tls_read_records c bs = (.error e, c') → seen c' = seen c
  write : ∀ {c c' res}, tls.tls_write_records c = (res, c') → seen c' = seen c
  process : ∀ {c c' res}, tls.tls_process_new_packets c = (res, c') → seen c' = seen c

def bodyOf (frame : Frame) : Bytes := (sslHandshakeBody frame).toOption.getD []

def Failed (d : Driver C) : Prop := ∃ e, d.pc = .returned (.error e)

/-- What is read at one end is the beginning of what the other has written. As long as neither has
failed, the rest is in transit. -/
structure Flow (d : Driver C) (link : List Frame) (receiver : Driver S) (heard : Bytes) : Prop where
  valid : ∀ f ∈ link, f.Valid
  order : heard <+: d.produced.flatten
  transit : ¬ Failed receiver → ∃ lost,
    d.produced.flatten = heard ++ (link.map bodyOf).flatten ++ lost ∧ (¬ Failed d → lost = [])

variable {tls : Connection C} {peer : Connection S} {fuel : Nat} {c c' c₀ : C} {s₀ : S}
  {seen : C → Bytes} {heard : S → Bytes} {body : Bytes} {frame : Frame} {d d' : Driver C}
  {r : Driver S} {pc : Pc} {link : List Frame} {s t : Tunnel C S} {e : Event} {xs : List Event}
  {ev : DriverEvent} {bs : Bytes}

theorem bodyOf_sslHandshakeFrame (body : Bytes) : bodyOf (sslHandshakeFrame body) = body := by
  rfl

/-- `c'` has taken the beginning of `body`, and all of it after a success. -/
def Took (seen : C → Bytes) (c : C) (body : Bytes) (c' : C) (success : Prop) : Prop :=
  ∃ taken rest, body = taken ++ rest ∧ seen c' = seen c ++ taken ∧ (success → rest = [])

theorem took_nothing {success : Prop} (h : seen c' = seen c) (hbody : success → body = []) :
    Took seen c body c' success := ⟨[], body, rfl, by rw [h, List.append_nil], hbody⟩

/-- The feed takes the body as far as it gets. -/
theorem feedLoop_took (hin : Input tls seen) {res : Except CryptError Unit}
    (h : feedLoop tls.toSide fuel c body = some (res, c')) :
    Took seen c body c' (res = .ok ()) := by
  refine loop_rule (I := fun x : Bytes × C => ∃ taken, body = taken ++ x.1 ∧
    seen x.2 = seen c ++ taken) (Q := fun x => Took seen c body x.2 (x.1 = .ok ()))
    ⟨[], rfl, (List.append_nil _).symm⟩ ?_ ?_ h
  · rintro ⟨rest, c₁⟩ x ⟨taken, hbody, hseen⟩ hturn
    cases rest with
    | nil => cases hturn
    | cons b rest =>
      simp only [feedTurn] at hturn
      rcases hread : tls.tls_read_records c₁ (b :: rest) with ⟨e | n, c₂⟩
      · simp [hread] at hturn
      · simp only [hread, Sum.inl.injEq] at hturn
        obtain rfl := hturn
        refine ⟨taken ++ (b :: rest).take n, ?_, ?_⟩
        · rw [hbody, List.append_assoc, List.take_append_drop]
        · rw [hin.read hread, hseen, List.append_assoc]
  · rintro ⟨rest, c₁⟩ x ⟨taken, hbody, hseen⟩ hturn
    cases rest with
    | nil =>
      cases hturn
      exact ⟨taken, [], hbody, hseen, fun _ => rfl⟩
    | cons b rest =>
      simp only [feedTurn] at hturn
      rcases hread : tls.tls_read_records c₁ (b :: rest) with ⟨e | n, c₂⟩
      · simp only [hread, Sum.inr.injEq] at hturn
        obtain rfl := hturn
        exact ⟨taken, b :: rest, hbody, (hin.readFails hread).trans hseen, by simp⟩
      · simp [hread] at hturn

theorem takeFrame_took (hin : Input tls seen) {res : Except TunnelError Unit}
    (h : takeFrame tls fuel c frame = some (res, c')) :
    Took seen c (bodyOf frame) c' (res = .ok ()) := by
  unfold takeFrame at h
  cases hbody : sslHandshakeBody frame with
  | error e =>
    simp only [hbody] at h
    cases h
    exact took_nothing rfl (by simp)
  | ok body =>
    have hof : bodyOf frame = body := by simp [bodyOf, hbody, Except.toOption]
    simp only [hbody] at h
    rw [hof]
    rcases hfeed : feedLoop tls.toSide fuel c body with _ | ⟨e | ⟨⟨⟩⟩, c₁⟩
    · simp [hfeed] at h
    · simp only [hfeed] at h
      cases h
      obtain ⟨taken, rest, hsplit, hseen, -⟩ := feedLoop_took hin hfeed
      exact ⟨taken, rest, hsplit, hseen, by simp⟩
    · obtain ⟨taken, rest, hsplit, hseen, hok⟩ := feedLoop_took hin hfeed
      simp only [hfeed] at h
      rcases hprocess : tls.tls_process_new_packets c₁ with ⟨e | ⟨⟨⟩⟩, c₂⟩ <;>
        simp only [hprocess] at h <;> cases h <;>
        exact ⟨taken, rest, hsplit, (hin.process hprocess).trans hseen, fun _ => hok rfl⟩

/-- What the peer's frame, if the event brings one, has for the connection. -/
def brought : DriverEvent → Bytes
  | .receive (.ok frame) => bodyOf frame
  | _ => []

/-- What one step of a driver does to its two streams. -/
structure Moves (tls : Connection C) (seen : C → Bytes) (d : Driver C) (ev : DriverEvent)
    (d' : Driver C) : Prop where
  live : ¬ Failed d
  wrote : ∃ frames more, d'.sent = d.sent ++ frames ∧
    d'.produced.flatten = d.produced.flatten ++ (frames.map bodyOf).flatten ++ more ∧
    (¬ Failed d' → more = []) ∧ (frames ≠ [] → ev = .turn ∧ d.pc = .draining) ∧
    (FitsFrame tls d.conn → ∀ f ∈ frames, f.Valid)
  read : Took seen d.conn (brought ev) d'.conn (¬ Failed d')

theorem not_failed (hpc : d.pc = pc) (hne : ∀ e, pc ≠ .returned (.error e)) : ¬ Failed d := by
  rintro ⟨e, he⟩
  exact hne e (hpc.symm.trans he)

/-- Neither stream moves. -/
theorem moves_pc (hpc : d.pc = pc) (hne : ∀ e, pc ≠ .returned (.error e)) (pc' : Pc)
    (hev : brought ev = []) : Moves tls seen d ev { d with pc := pc' } :=
  ⟨not_failed hpc hne, ⟨[], [], by simp⟩, took_nothing rfl fun _ => hev⟩

theorem drain_moves (hin : Input tls seen) {written : Bool} (hpc : d.pc = .draining)
    (hturn : written = true → ev = .turn) (hev : brought ev = []) (h : drain tls d written = some d') :
    Moves tls seen d ev d' := by
  have hlive : ¬ Failed d := not_failed hpc (by simp)
  unfold TlsTunnel.drain at h
  split at h
  · rename_i e c hwrite
    cases h
    exact ⟨hlive, ⟨[], [], by simp⟩, took_nothing (hin.write hwrite) fun _ => hev⟩
  · rename_i c hwrite
    split at h <;> cases h
    exact ⟨hlive, ⟨[], [], by simp⟩, took_nothing (hin.write hwrite) fun _ => hev⟩
  · rename_i b bs c hwrite
    dsimp only at h
    split at h <;> cases h
    · rename_i hwritten
      refine ⟨hlive, ⟨[sslHandshakeFrame (b :: bs)], [], rfl, ?_, fun _ => rfl,
        fun _ => ⟨hturn hwritten, hpc⟩, ?_⟩, took_nothing (hin.write hwrite) fun _ => hev⟩
      · simp [bodyOf_sslHandshakeFrame]
      · intro hfits f hf
        rw [List.mem_singleton.mp hf]
        exact valid_sslHandshakeFrame (hfits (b :: bs) (by rw [hwrite]; rfl))
    · refine ⟨hlive, ⟨[], b :: bs, by simp, by simp, ?_, by simp, by simp⟩,
        took_nothing (hin.write hwrite) fun _ => hev⟩
      intro hfailed
      exact (hfailed ⟨_, rfl⟩).elim

theorem receive_moves (hin : Input tls seen) (hpc : d.pc = .reading) {r : Except ReadError Frame}
    (h : receive tls fuel d pc r = some d') : Moves tls seen d (.receive r) d' := by
  have hlive : ¬ Failed d := not_failed hpc (by simp)
  unfold receive at h
  split at h
  · cases h
    exact ⟨hlive, ⟨[], [], by simp⟩, took_nothing rfl fun _ => rfl⟩
  · split at h
    · cases h
    · rename_i e c htake
      cases h
      obtain ⟨taken, rest, hsplit, hseen, -⟩ := takeFrame_took hin htake
      refine ⟨hlive, ⟨[], [], by simp⟩, taken, rest, hsplit, hseen, ?_⟩
      intro hfailed
      exact (hfailed ⟨_, rfl⟩).elim
    · rename_i c htake
      cases h
      obtain ⟨taken, rest, hsplit, hseen, hok⟩ := takeFrame_took hin htake
      exact ⟨hlive, ⟨[], [], by simp⟩, taken, rest, hsplit, hseen, fun _ => hok rfl⟩

theorem client_brought (h : clientNext tls fuel d ev = some d') (hpc : d.pc ≠ .reading) :
    brought ev = [] := by
  cases ev with
  | turn | writeFails => rfl
  | receive r => cases hd : d.pc <;> simp_all [clientNext]

theorem server_brought (h : serverNext tls fuel d ev = some d') (hpc : d.pc ≠ .reading) :
    brought ev = [] := by
  cases ev with
  | turn | writeFails => rfl
  | receive r => cases hd : d.pc <;> simp_all [serverNext]

theorem client_moves (hin : Input tls seen) (h : clientNext tls fuel d ev = some d') :
    Moves tls seen d ev d' := by
  rcases clientNext_cases h with ⟨hpc, rfl⟩ | ⟨hpc, written, hdrain, hturn⟩ | ⟨hpc, -, rfl⟩ |
    ⟨hpc, r, rfl, hreceive⟩
  · exact moves_pc hpc (by simp) _ (client_brought h (by simp [hpc]))
  · exact drain_moves hin hpc hturn (client_brought h (by simp [hpc])) hdrain
  · exact moves_pc hpc (by simp) _ (client_brought h (by simp [hpc]))
  · exact receive_moves hin hpc hreceive

theorem server_moves (hin : Input tls seen) (h : serverNext tls fuel d ev = some d') :
    Moves tls seen d ev d' := by
  rcases serverNext_cases h with ⟨hpc, -, rfl⟩ | ⟨hpc, -, rfl⟩ | ⟨hpc, written, hdrain, hturn⟩ |
    ⟨hpc, -, rfl⟩ | ⟨hpc, r, rfl, hreceive⟩
  · exact moves_pc hpc (by simp) _ (server_brought h (by simp [hpc]))
  · exact moves_pc hpc (by simp) _ (server_brought h (by simp [hpc]))
  · exact drain_moves hin hpc hturn (server_brought h (by simp [hpc])) hdrain
  · exact moves_pc hpc (by simp) _ (server_brought h (by simp [hpc]))
  · exact receive_moves hin hpc hreceive

/-- The sender's step. -/
theorem flow_wrote {out : Bytes} {r : Driver S} (h : Flow d link r out)
    (hmove : Moves tls seen d ev d')
    (hfits : ev = .turn → d.pc = .draining → FitsFrame tls d.conn) :
    ∃ frames, d'.sent = d.sent ++ frames ∧ (frames ≠ [] → ev = .turn) ∧
      Flow d' (link ++ frames) r out := by
  obtain ⟨frames, more, hsent, hproduced, hmore, hturn, hvalid⟩ := hmove.wrote
  refine ⟨frames, hsent, fun hne => (hturn hne).1, ?_, ?_, ?_⟩
  · refine List.forall_mem_append.mpr ⟨h.valid, ?_⟩
    intro f hf
    obtain ⟨hev, hpc⟩ := hturn (List.ne_nil_of_mem hf)
    exact hvalid (hfits hev hpc) f hf
  · rw [hproduced, List.append_assoc]
    exact h.order.trans (List.prefix_append _ _)
  · intro hr
    obtain ⟨lost, htransit, hlost⟩ := h.transit hr
    obtain rfl := hlost hmove.live
    refine ⟨more, ?_, hmore⟩
    rw [hproduced, htransit]
    simp

theorem flow_silent {out : Bytes} {r : Driver S} (h : Flow d link r out)
    (hmove : Moves tls seen d ev d') (hev : ev ≠ .turn) : Flow d' link r out := by
  obtain ⟨frames, -, hturn, hflow⟩ := flow_wrote h hmove fun he => (hev he).elim
  obtain rfl : frames = [] := by
    by_contra hne
    exact hev (hturn hne)
  rwa [List.append_nil] at hflow

/-- The receiver's step on a frame. -/
theorem flow_read {hears : S → Bytes} {r r' : Driver S}
    (h : Flow d (frame :: link) r (hears r.conn))
    (hmove : Moves peer hears r (.receive (.ok frame)) r') : Flow d link r' (hears r'.conn) := by
  obtain ⟨taken, rest, hbody, hheard, hnil⟩ := hmove.read
  obtain ⟨lost, htransit, hlost⟩ := h.transit hmove.live
  have hflat : d.produced.flatten =
      hears r'.conn ++ (rest ++ (link.map bodyOf).flatten ++ lost) := by
    rw [htransit, List.map_cons, List.flatten_cons, show bodyOf frame = taken ++ rest from hbody,
      hheard]
    simp
  refine ⟨(List.forall_mem_cons.mp h.valid).2, ⟨_, hflat.symm⟩, ?_⟩
  intro hr
  obtain rfl := hnil hr
  exact ⟨lost, by simpa using hflat, hlost⟩

/-- The receiver's steps on its own, and the ends of its reads. -/
theorem flow_other {hears : S → Bytes} {r r' : Driver S} (h : Flow d link r (hears r.conn))
    (hmove : Moves peer hears r ev r') (hev : brought ev = []) : Flow d link r' (hears r'.conn) := by
  obtain ⟨taken, rest, hbody, hheard, -⟩ := hmove.read
  rw [hev] at hbody
  obtain ⟨rfl, -⟩ := List.append_eq_nil_iff.mp hbody.symm
  rw [List.append_nil] at hheard
  rw [hheard]
  exact ⟨h.valid, h.order, fun _ => h.transit hmove.live⟩

structure Flows (seen : C → Bytes) (hears : S → Bytes) (x : End C) (o : Driver S) : Prop where
  outgoing : Flow x.driver x.outgoing o (hears o.conn)
  incoming : Flow o x.incoming x.driver (seen x.driver.conn)

theorem step_flows {driverNext : Driver C → DriverEvent → Option (Driver C)} {x x' : End C}
    {act : Act} {o : Driver S}
    (hmoves : ∀ ev d', driverNext x.driver ev = some d' → Moves tls seen x.driver ev d')
    (hfits : act = .turn → x.driver.pc = .draining → FitsFrame tls x.driver.conn)
    (h : Flows seen heard x o) (hstep : step driverNext x act = some x') :
    Flows seen heard x' o := by
  cases act with
  | turn =>
    obtain ⟨d', hnext, rfl⟩ := Option.map_eq_some_iff.mp hstep
    have hmove := hmoves .turn d' hnext
    obtain ⟨frames, hsent, -, hflow⟩ := flow_wrote h.outgoing hmove fun _ => hfits rfl
    refine ⟨?_, flow_other h.incoming hmove rfl⟩
    dsimp only
    rwa [hsent, List.drop_left]
  | writeFails =>
    obtain ⟨d', hnext, rfl⟩ := Option.map_eq_some_iff.mp hstep
    have hmove := hmoves .writeFails d' hnext
    exact ⟨flow_silent h.outgoing hmove (by simp), flow_other h.incoming hmove rfl⟩
  | readFails e =>
    obtain ⟨d', hnext, rfl⟩ := Option.map_eq_some_iff.mp hstep
    have hmove := hmoves (.receive (.error e)) d' hnext
    exact ⟨flow_silent h.outgoing hmove (by simp), flow_other h.incoming hmove rfl⟩
  | read =>
    rw [step] at hstep
    split at hstep
    · rename_i f rest hlink
      obtain ⟨d', hnext, rfl⟩ := Option.map_eq_some_iff.mp hstep
      have hmove := hmoves (.receive (.ok f)) d' hnext
      have hincoming := h.incoming
      rw [hlink] at hincoming
      exact ⟨flow_silent h.outgoing hmove (by simp), flow_read hincoming hmove⟩
    · cases hstep

theorem Moves.grows (h : Moves tls seen d ev d') :
    d.produced.flatten <+: d'.produced.flatten ∧ seen d.conn <+: seen d'.conn := by
  obtain ⟨frames, more, -, hproduced, -⟩ := h.wrote
  obtain ⟨taken, rest, -, hseen, -⟩ := h.read
  rw [hproduced, hseen, List.append_assoc]
  exact ⟨List.prefix_append _ _, List.prefix_append _ _⟩

theorem step_moves {driverNext : Driver C → DriverEvent → Option (Driver C)} {x x' : End C}
    {act : Act} (h : step driverNext x act = some x') :
    ∃ ev, driverNext x.driver ev = some x'.driver := by
  cases act with
  | turn =>
    obtain ⟨d', hnext, rfl⟩ := Option.map_eq_some_iff.mp h
    exact ⟨_, hnext⟩
  | writeFails =>
    obtain ⟨d', hnext, rfl⟩ := Option.map_eq_some_iff.mp h
    exact ⟨_, hnext⟩
  | readFails e =>
    obtain ⟨d', hnext, rfl⟩ := Option.map_eq_some_iff.mp h
    exact ⟨_, hnext⟩
  | read =>
    rw [step] at h
    split at h
    · obtain ⟨d', hnext, rfl⟩ := Option.map_eq_some_iff.mp h
      exact ⟨_, hnext⟩
    · cases h

/-- The streams in both directions. -/
structure Inv (seen : C → Bytes) (heard : S → Bytes) (s : Tunnel C S) : Prop where
  up : Flow s.client s.up s.server (heard s.server.conn)
  down : Flow s.server s.down s.client (seen s.client.conn)

theorem inv_step (hc : Input tls seen) (hs : Input peer heard) (h : Inv seen heard s)
    (hstep : Guard (Steps (next tls peer fuel)) (Fits tls peer) s e t) : Inv seen heard t := by
  obtain ⟨hnext, hfits⟩ := hstep
  cases e with
  | client act =>
    obtain ⟨x, hx, rfl⟩ := Option.map_eq_some_iff.mp hnext
    have hflows : Flows seen heard ⟨s.client, s.up, s.down⟩ s.server := ⟨h.up, h.down⟩
    obtain ⟨hout, hinn⟩ := step_flows (fun _ _ => client_moves hc) (by rintro rfl; exact hfits)
      hflows hx
    exact ⟨hout, hinn⟩
  | server act =>
    obtain ⟨x, hx, rfl⟩ := Option.map_eq_some_iff.mp hnext
    have hflows : Flows heard seen ⟨s.server, s.down, s.up⟩ s.client := ⟨h.down, h.up⟩
    obtain ⟨hout, hinn⟩ := step_flows (fun _ _ => server_moves hs) (by rintro rfl; exact hfits)
      hflows hx
    exact ⟨hinn, hout⟩

theorem next_grows (hc : Input tls seen) (hs : Input peer heard)
    (hnext : next tls peer fuel s e = some t) :
    (s.client.produced.flatten <+: t.client.produced.flatten ∧
      seen s.client.conn <+: seen t.client.conn) ∧
    (s.server.produced.flatten <+: t.server.produced.flatten ∧
      heard s.server.conn <+: heard t.server.conn) := by
  cases e with
  | client act =>
    obtain ⟨x, hx, rfl⟩ := Option.map_eq_some_iff.mp hnext
    obtain ⟨ev, hd⟩ := step_moves hx
    exact ⟨(client_moves hc hd).grows, List.prefix_rfl, List.prefix_rfl⟩
  | server act =>
    obtain ⟨x, hx, rfl⟩ := Option.map_eq_some_iff.mp hnext
    obtain ⟨ev, hd⟩ := step_moves hx
    exact ⟨⟨List.prefix_rfl, List.prefix_rfl⟩, (server_moves hs hd).grows⟩

theorem inv_start (hc : seen c₀ = []) (hs : heard s₀ = []) : Inv seen heard (start c₀ s₀) := by
  refine ⟨⟨by simp [start], ?_, fun _ => ⟨[], ?_, fun _ => rfl⟩⟩,
    ⟨by simp [start], ?_, fun _ => ⟨[], ?_, fun _ => rfl⟩⟩⟩ <;> simp [start, TlsTunnel.start, hc, hs]

/-- A connection that keeps a record of its input. -/
def logged (tls : Connection C) : Connection (C × Bytes) where
  tls_writer_write_all x bs :=
    let r := tls.tls_writer_write_all x.1 bs
    (r.1, r.2, x.2)
  tls_reader_read x n :=
    let r := tls.tls_reader_read x.1 n
    (r.1, r.2, x.2)
  tls_write_records x :=
    let r := tls.tls_write_records x.1
    (r.1, r.2, x.2)
  tls_read_records x bs :=
    let r := tls.tls_read_records x.1 bs
    (r.1, r.2, x.2 ++ bs.take (r.1.toOption.getD 0))
  tls_process_new_packets x :=
    let r := tls.tls_process_new_packets x.1
    (r.1, r.2, x.2)
  is_handshaking x := tls.is_handshaking x.1
  wants_write x := tls.wants_write x.1

end Aabox.TunnelPipe
