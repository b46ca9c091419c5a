import Aabox.NavPipeline

/-! What the instructions that reach the loop are about, when the source is the routing one. -/
namespace Aabox.NavRoutes
open Aabox.Lib Aabox.Nav Aabox.NavRunner Aabox.DestinationWatch Aabox.Osrm Aabox.NavPipeline

variable {F : Type} {geo : Geo F} {outcome : Nat → Option (Route F)} {src src' : OsrmNavSource F}
  {p fix : Sensor.PositionFix F} {dest d : Destination F} {route : Route F} {instr : NavInstruction}
  {requests requests' : List (RouteRequest F)} {res : Except Unit (Option NavInstruction)}

/-- The route in place answers a request for the destination that it was fetched for. -/
structure Answered (outcome : Nat → Option (Route F)) (src : OsrmNavSource F) : Prop where
  client : src.client.outcome = outcome
  route : ∀ route, src.route = some route → ∃ k req d, src.client.requests[k]? = some req ∧
    outcome k = some route ∧ src.fetched_for = some d ∧ req.end_lat = d.lat ∧ req.end_lon = d.lon

/-- The instruction is that of a step of a route which was requested for the destination. -/
def Addressed (geo : Geo F) (outcome : Nat → Option (Route F)) (requests : List (RouteRequest F))
    (d : Destination F) (instr : NavInstruction) : Prop :=
  ∃ k req route step p, requests[k]? = some req ∧ req.end_lat = d.lat ∧ req.end_lon = d.lon ∧
    outcome k = some route ∧ step ∈ route.steps ∧
    instr = instructionOf geo step (PositionFix.distanceTo geo p step.lat step.lon)

theorem getElem?_of_prefix {α : Type} {xs ys : List α} {k : Nat} {x : α} (h : xs <+: ys)
    (hk : xs[k]? = some x) : ys[k]? = some x := by
  obtain ⟨zs, rfl⟩ := h
  exact (List.getElem?_append_left (List.getElem?_eq_some_iff.mp hk).1).trans hk

theorem Addressed.mono (h : Addressed geo outcome requests d instr)
    (hle : requests <+: requests') : Addressed geo outcome requests' d instr := by
  obtain ⟨k, req, route, step, p, hreq, h⟩ := h
  exact ⟨k, req, route, step, p, getElem?_of_prefix hle hreq, h⟩

/-- The instruction in place is for the destination in place. -/
theorem addressed_current (hinv : Osrm.Inv geo src) (hans : Answered outcome src)
    (hcur : src.current = some instr) :
    ∃ d, src.destination = some d ∧ Addressed geo outcome src.client.requests d instr := by
  obtain ⟨route, step, p, hroute, hstep, -, hinstr⟩ := hinv.caches.2 instr hcur
  obtain ⟨k, req, d, hreq, hout, hfor, hlat, hlon⟩ := hans.route route hroute
  obtain ⟨-, hfetched⟩ := hinv.fetched (by rw [hroute]; rfl)
  exact ⟨d, hfetched ▸ hfor, k, req, route, step, p, hreq, hlat, hlon, hout,
    List.mem_of_getElem? hstep, hinstr⟩

/-- A call leaves a source whose route is answered for, and asks no request back. -/
structure Called (outcome : Nat → Option (Route F)) (src : OsrmNavSource F)
    (res : Except Unit (Option NavInstruction)) (src' : OsrmNavSource F) : Prop where
  answered : Answered outcome src'
  requests : src.client.requests <+: src'.client.requests
  current : ∀ instr, res = .ok (some instr) → src'.current = some instr

theorem answered_install (hans : Answered outcome src) (a b : F) (dest : Destination F)
    (hfound : outcome src.client.requests.length = some route) :
    Answered outcome ({ src with client := (src.client.route a b dest.lat dest.lon).2 }.install
      route dest) where
  client := hans.client
  route := by
    rintro r hr
    obtain rfl : route = r := Option.some.inj hr
    refine ⟨src.client.requests.length, ⟨a, b, dest.lat, dest.lon⟩, dest, ?_, hfound, rfl, rfl, rfl⟩
    simp [OsrmNavSource.install, OsrmClient.route]

theorem answered_client (hans : Answered outcome src) (a b c d : F) :
    Answered outcome { src with client := (src.client.route a b c d).2 } where
  client := hans.client
  route := by
    rintro r hr
    obtain ⟨k, req, dest, hreq, h⟩ := hans.route r hr
    exact ⟨k, req, dest, getElem?_of_prefix (List.prefix_append _ _) hreq, h⟩

theorem Answered.with_current (hans : Answered outcome src) (current : Option NavInstruction) :
    Answered outcome { src with current } := ⟨hans.client, hans.route⟩

theorem route_eq (hans : Answered outcome src) (a b c d : F) :
    src.client.route a b c d =
      (outcome src.client.requests.length, (src.client.route a b c d).2) := by
  rw [OsrmClient.route, hans.client]

variable (geo) in
theorem fetch_called (hans : Answered outcome src) (hfix : src.last_fix = some p)
    (hdest : src.destination = some dest) : ∃ res src', src.fetch geo p dest = some (res, src') ∧
      Called outcome src res src' ∧ src'.destination = some dest := by
  unfold OsrmNavSource.fetch
  rw [route_eq hans]
  cases hout : outcome src.client.requests.length with
  | none =>
    exact ⟨_, _, rfl, ⟨answered_client hans _ _ _ _, List.prefix_append _ _, fun _ h => by cases h⟩,
      hdest⟩
  | some r =>
    obtain ⟨current, hbuild, -⟩ := @rebuilt F geo
      ({ src with client := (src.client.route p.lat p.lon dest.lat dest.lon).2 }.install r dest)
      (install_inRange _ _ _) (fun _ => by simp [OsrmNavSource.install, hfix])
      (fun _ => by simp [OsrmNavSource.install, hdest])
    dsimp only
    rw [hbuild]
    refine ⟨_, _, rfl, ⟨(answered_install hans _ _ _ hout).with_current _, List.prefix_append _ _,
      fun _ h => Except.ok.inj h⟩, hdest⟩

variable (geo) in
theorem set_called (hans : Answered outcome src) (dest : Destination F) : ∃ res src',
    (OsrmNavSource.calls geo).set_destination src dest = (res, src') ∧
      Called outcome src res src' ∧ Osrm.Inv geo src' ∧ src'.destination = some dest := by
  obtain ⟨answer, src', hset, hinv, -⟩ := setDestination_spec geo src dest
  refine ⟨answer, src', by simp [OsrmNavSource.calls, hset], ?_⟩
  have hbare : Answered outcome
      { src with destination := some dest, route := none, next_idx := 0, current := none } :=
    ⟨hans.client, fun route h => by cases h⟩
  obtain ⟨client, destination, route, next_idx, last_fix, current, fetched_for, installs⟩ := src
  cases last_fix with
  | none =>
    cases hset
    exact ⟨⟨hbare, List.prefix_refl _, fun _ h => by cases h⟩, hinv, rfl⟩
  | some p =>
    obtain ⟨res, src₁, hfetch, hcalled, hdest⟩ := fetch_called geo hbare rfl rfl
    obtain ⟨rfl, rfl⟩ := Prod.mk.inj (Option.some.inj (hset.symm.trans hfetch))
    exact ⟨⟨hcalled.answered, hcalled.requests, hcalled.current⟩, hinv, hdest⟩

variable (geo) in
/-- A recalculation keeps the destination, and the route it leaves is answered for. -/
theorem recalc_answered (hans : Answered outcome src) (fix : Sensor.PositionFix F)
    (dest : Destination F) : Answered outcome (src.recalc geo fix dest) ∧
      src.client.requests <+: (src.recalc geo fix dest).client.requests ∧
      (src.recalc geo fix dest).destination = src.destination := by
  unfold OsrmNavSource.recalc
  split
  · rw [route_eq hans]
    cases hout : outcome src.client.requests.length with
    | none => exact ⟨answered_client hans _ _ _ _, List.prefix_append _ _, rfl⟩
    | some r => exact ⟨answered_install hans _ _ _ hout, List.prefix_append _ _, rfl⟩
  · exact ⟨hans, List.prefix_refl _, rfl⟩

theorem update_called (hinv : Osrm.Inv geo src) (hans : Answered outcome src)
    (fix : Sensor.PositionFix F) : ∃ res src',
    (OsrmNavSource.calls geo).update_position src fix = (res, src') ∧
      Called outcome src res src' ∧ Osrm.Inv geo src' ∧ src'.destination = src.destination := by
  obtain ⟨answer, src', hupdate, hinv', -⟩ := updatePosition_spec hinv fix
  refine ⟨answer, src', by simp [OsrmNavSource.calls, hupdate], ?_⟩
  have hmoved : Answered outcome { src with last_fix := some fix } := ⟨hans.client, hans.route⟩
  cases hdest : src.destination with
  | none =>
    obtain ⟨rfl, rfl⟩ := Prod.mk.inj
      (Option.some.inj (hupdate.symm.trans (updatePosition_undirected hdest)))
    exact ⟨⟨hmoved, List.prefix_refl _, fun _ h => by cases h⟩, hinv', hdest⟩
  | some dest =>
    cases hroute : src.route with
    | none =>
      obtain ⟨res, src₁, hfetch, hcalled, hdest₁⟩ := fetch_called geo hmoved rfl hdest
      rw [updatePosition_first hdest hroute, hfetch] at hupdate
      obtain ⟨rfl, rfl⟩ := Prod.mk.inj (Option.some.inj hupdate)
      exact ⟨⟨hcalled.answered, hcalled.requests, hcalled.current⟩, hinv', hdest₁⟩
    | some route =>
      obtain ⟨n, current, hcall, -, -, -⟩ := walk_spec hinv hdest hroute fix
      obtain ⟨rfl, rfl⟩ := Prod.mk.inj (Option.some.inj (hupdate.symm.trans hcall))
      have hwalked : Answered outcome { src with last_fix := some fix, next_idx := n } :=
        ⟨hans.client, hans.route⟩
      obtain ⟨hanswered, hrequests, hkept⟩ := recalc_answered geo hwalked fix dest
      exact ⟨⟨hanswered.with_current _, hrequests, fun _ h => Except.ok.inj h⟩, hinv',
        hkept.trans hdest⟩

/-! ### In the pipeline -/

/-- The source is at the destination it was last given, and what it has given out was for the
destination that was the last one then. -/
structure Guided (geo : Geo F) (outcome : Nat → Option (Route F))
    (n : NavState (OsrmNavSource F) F)
    (issued : List (Option (Destination F) × NavInstruction)) : Prop where
  source : Osrm.Inv geo n.source
  answered : Answered outcome n.source
  destination : n.source.destination = n.calls.getLast?
  issued : ∀ p ∈ issued, ∃ d ∈ n.calls, p.1 = some d ∧
    Addressed geo outcome n.source.client.requests d p.2

variable {n n' : NavState (OsrmNavSource F) F}
  {issued : List (Option (Destination F) × NavInstruction)} {rc : NavRunnerConfig} {a : NavEvent F}

/-- What is in hand after a call is the instruction in place. -/
theorem pending_afterCall (hcur : ∀ instr, res = .ok (some instr) → src.current = some instr)
    (hmem : instr ∈ pending (afterCall res)) : src.current = some instr := by
  rcases res with ⟨⟩ | _ | got
  · cases hmem
  · cases hmem
  · obtain rfl := List.mem_singleton.mp hmem
    exact hcur _ rfl

theorem guided_given (h : Guided geo outcome n issued) (hsource : Osrm.Inv geo n'.source)
    (hanswered : Answered outcome n'.source)
    (hdest : n'.source.destination = n'.calls.getLast?) (hcalls : n.calls <+: n'.calls)
    (hrequests : n.source.client.requests <+: n'.source.client.requests)
    (hcur : ∀ instr ∈ pending n'.pc, n'.source.current = some instr) :
    Guided geo outcome n'
      (issued ++ (pending n'.pc).map fun instr => (n'.calls.getLast?, instr)) := by
  refine ⟨hsource, hanswered, hdest, ?_⟩
  intro p hp
  rcases List.mem_append.mp hp with hp | hp
  · obtain ⟨d, hd, hp₁, haddr⟩ := h.issued p hp
    exact ⟨d, hcalls.subset hd, hp₁, haddr.mono hrequests⟩
  · obtain ⟨instr, hinstr, rfl⟩ := List.mem_map.mp hp
    obtain ⟨d, hd, haddr⟩ := addressed_current hsource hanswered (hcur instr hinstr)
    rw [hdest] at hd
    exact ⟨d, List.mem_of_getLast? hd, hd, haddr⟩

theorem guided_runner (h : Guided geo outcome n issued)
    (hstep : RunnerStep (OsrmNavSource.calls geo) rc n a n') :
    Guided geo outcome n' (issued ++ given n' (some a)) := by
  cases hstep with
  | arrive | closeDest | fix | closeGps | drain | closeNav | send | sendFails | exit =>
    simp only [given, List.append_nil]
    exact ⟨h.source, h.answered, h.destination, h.issued⟩
  | @emit instr hpc hcur =>
    refine guided_given h h.source h.answered h.destination (List.prefix_refl _)
      (List.prefix_refl _) ?_
    intro got hgot
    cases hrc : rc.emit_initial with
    | false => simp [hrc, pending] at hgot
    | true =>
      obtain rfl : got = instr := by simpa [hrc, pending] using hgot
      exact hcur
  | silent =>
    exact guided_given h h.source h.answered h.destination (List.prefix_refl _)
      (List.prefix_refl _) fun got hgot => by cases hgot
  | @recvDest d =>
    obtain ⟨res, src', hcall, hcalled, hinv, hdest⟩ := set_called geo h.answered d
    simp only [hcall]
    refine guided_given h hinv hcalled.answered (by rw [hdest, List.getLast?_concat])
      (List.prefix_append _ _) hcalled.requests fun got => pending_afterCall hcalled.current
  | @recvFix f =>
    obtain ⟨res, src', hcall, hcalled, hinv, hdest⟩ := update_called h.source h.answered f
    simp only [hcall]
    exact guided_given h hinv hcalled.answered (hdest.trans h.destination) (List.prefix_refl _)
      hcalled.requests fun got => pending_afterCall hcalled.current

variable {json : List UInt8 → Option (Destination F)} {text : FloatText F}
  {s t s₀ : Pipeline (OsrmNavSource F) F} {e : Event F} {es : List (Event F)} {nav : NavOptions}

theorem guided_step (h : Guided geo outcome s.runner s.issued)
    (hstep : Steps (NavPipeline.next json text (OsrmNavSource.calls geo) rc) s e t) :
    Guided geo outcome t.runner t.issued := by
  obtain ⟨-, hn, hissued, -⟩ := next_parts hstep
  rw [hissued]
  cases hruns : e.runner s.watch.pc with
  | none =>
    rw [hruns] at hn
    rw [← Option.some.inj hn]
    simpa [given] using h
  | some a =>
    rw [hruns] at hn
    have hrunner : RunnerStep (OsrmNavSource.calls geo) rc s.runner a t.runner := runner_cases hn
    exact guided_runner h hrunner

/-- Whatever falls between them, each instruction that the loop takes was computed from a route that
was requested for the destination in place when it was given, one that the watcher had sent. -/
theorem instructions_addressed (outcomes : String → Nat → Option (Route F))
    (h : NavPipeline.start text (fun url => OsrmNavSource.new (outcomes url)) nav = some s₀)
    (hrun : Run (Steps (NavPipeline.next json text (OsrmNavSource.calls geo) rc)) s₀ es s) :
    ∀ (k : Nat) instr, s.taken[k]? = some instr → ∃ d ∈ s.watch.pushed.map Push.dest,
      s.issued[k]? = some (some d, instr) ∧
      Addressed geo (outcomes nav.osrm_base_url) s.runner.source.client.requests d instr := by
  have hs := inv_run h hrun
  have hguided : Guided geo (outcomes nav.osrm_base_url) s.runner s.issued := by
    refine hrun.invariant (I := fun s => Guided geo (outcomes nav.osrm_base_url) s.runner s.issued)
      (fun _ _ _ => guided_step) ?_
    rw [start_some h]
    exact ⟨inv_bare rfl rfl rfl, ⟨rfl, fun _ hroute => by cases hroute⟩, rfl,
      fun p hp => by cases hp⟩
  intro k instr hk
  have hprefix : s.taken <+: s.issued.map Prod.snd := by
    refine List.IsPrefix.trans ?_ hs.output.order
    rw [List.append_assoc]
    exact List.prefix_append _ _
  have hissued := getElem?_of_prefix hprefix hk
  rw [List.getElem?_map, Option.map_eq_some_iff] at hissued
  obtain ⟨⟨d?, got⟩, hget, rfl⟩ := hissued
  obtain ⟨d, hd, rfl, haddr⟩ := hguided.issued _ (List.mem_of_getElem? hget)
  refine ⟨d, ?_, hget, haddr⟩
  rw [sent_eq hs]
  exact List.mem_append_left _ hd

/-- The pipeline of the grid's routes, with nothing done yet. -/
def gridStart : Pipeline (OsrmNavSource Nat) Nat where
  watch := .new (.new 4)
  runner :=
    { source := .new gridOutcome, pc := .starting, dest := .new 4, gps := .new 8, nav := .new 8
      fed := true, calls := [], arrived := [] }
  issued := []
  taken := []

/-- The file is written, read and sent on, and then the first fix brings a route. -/
theorem instructions_addressed_first : ∃ s : Pipeline (OsrmNavSource Nat) Nat,
    s.taken.length = 1 ∧ ∀ instr, s.taken[0]? = some instr →
      ∃ d ∈ s.watch.pushed.map Push.dest, s.issued[0]? = some (some d, instr) ∧
        Addressed grid gridOutcome s.runner.source.client.requests d instr := by
  have hstart : NavPipeline.start noText (fun _ => OsrmNavSource.new gridOutcome)
      ⟨none, defaultDestinationFile, ""⟩ = some gridStart := rfl
  have hrun : Run (Steps (NavPipeline.next latByte noText (OsrmNavSource.calls grid) ⟨true⟩))
      gridStart [.write 5 [100], .emitInitial, .stat, .openFile, .read [100], .push, .take,
        .fix gridFix, .recvFix, .send, .recvNav] _ := run_iff_foldlM.mpr rfl
  have haddressed := instructions_addressed (fun _ => gridOutcome) hstart hrun 0
  exact ⟨_, rfl, haddressed⟩

end Aabox.NavRoutes
