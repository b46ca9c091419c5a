import Aabox.NavRunner

/-!
# The routing source of the navigation runner

The source keeps a route of the destination and walks the user along its steps. Floats and their
operations are parameters; the answer to the n-th request of the client is `outcome n`.
-/
namespace Aabox.Osrm
open Aabox.Lib Aabox.Nav Aabox.NavRunner Aabox.Sensor

/-- The operations on floats. `distance` is `haversine_m`, and the last two are the conversions of a
rounded distance. -/
structure Geo (F : Type) where
  zero : F
  advance_radius_m : F
  recalc_radius_m : F
  distance : F → F → F → F → F
  lt : F → F → Bool
  round_i64 : F → Int
  round_u32 : F → UInt32

structure RouteStep (F : Type) where
  lat : F
  lon : F
  distance_m : F
  name : String
  turn_id : UInt32
  verb : String

structure Route (F : Type) where
  steps : List (RouteStep F)

structure RouteRequest (F : Type) where
  start_lat : F
  start_lon : F
  end_lat : F
  end_lon : F
  deriving DecidableEq, Repr

/-- `requests` lists the requests made. -/
structure OsrmClient (F : Type) where
  outcome : Nat → Option (Route F)
  requests : List (RouteRequest F)

/-- `fetched_for` is the destination that the installed route was requested for, and `installs`
counts the routes installed. -/
structure OsrmNavSource (F : Type) where
  client : OsrmClient F
  destination : Option (Destination F)
  route : Option (Route F)
  next_idx : Nat
  last_fix : Option (PositionFix F)
  current : Option NavInstruction
  fetched_for : Option (Destination F)
  installs : Nat

variable {F : Type}

def OsrmNavSource.new (outcome : Nat → Option (Route F)) : OsrmNavSource F :=
  { client := ⟨outcome, []⟩, destination := none, route := none, next_idx := 0, last_fix := none
    current := none, fetched_for := none, installs := 0 }

def OsrmClient.route (client : OsrmClient F) (start_lat start_lon end_lat end_lon : F) :
    Option (Route F) × OsrmClient F :=
  (client.outcome client.requests.length,
    { client with requests := client.requests ++ [⟨start_lat, start_lon, end_lat, end_lon⟩] })

def PositionFix.distanceTo (geo : Geo F) (fix : PositionFix F) (lat lon : F) : F :=
  geo.distance fix.lat fix.lon lat lon

/-- The instruction of a step that is `dist_m` away. -/
def instructionOf (geo : Geo F) (step : RouteStep F) (dist_m : F) : NavInstruction :=
  let status_text :=
    if step.name.isEmpty then s!"{step.verb} in {geo.round_i64 dist_m} m"
    else s!"{step.verb} in {geo.round_i64 dist_m} m onto {step.name}"
  { status_text := status_text.toUTF8.toList
    turn_id := step.turn_id
    distance_m := geo.round_u32 dist_m }

/-- `none` where the source would index out of range. -/
def OsrmNavSource.rebuildCurrent (geo : Geo F) (src : OsrmNavSource F) :
    Option (OsrmNavSource F) :=
  match src.route with
  | none => some { src with current := none }
  | some route =>
    if route.steps.isEmpty then some { src with current := none }
    else do
      let idx := min src.next_idx (route.steps.length - 1)
      let step ← route.steps[idx]?
      let dist_m ←
        match src.last_fix with
        | some p => some (PositionFix.distanceTo geo p step.lat step.lon)
        | none =>
          if idx > 0 then (route.steps[idx - 1]?).map (·.distance_m)
          else some ((route.steps[1]?).elim geo.zero (·.distance_m))
      some { src with current := some (instructionOf geo step dist_m) }

def nearer (geo : Geo F) (acc : Option F) (d : F) : Option F :=
  match acc with
  | none => some d
  | some a => if geo.lt d a then some d else some a

/-- The distance to the nearest maneuver point of the route. -/
def OsrmNavSource.minDistToRoute (geo : Geo F) (src : OsrmNavSource F) (fix : PositionFix F) :
    Option F :=
  src.route.bind fun route =>
    (route.steps.map fun s => PositionFix.distanceTo geo fix s.lat s.lon).foldl (nearer geo) none

/-- The next maneuver after a fresh route is the first turn, if there is one. -/
def OsrmNavSource.install (src : OsrmNavSource F) (r : Route F) (dest : Destination F) :
    OsrmNavSource F :=
  { src with
    route := some r
    next_idx := if r.steps.length ≥ 2 then 1 else 0
    fetched_for := some dest
    installs := src.installs + 1 }

abbrev Answer (F : Type) := Except Unit (Option NavInstruction) × OsrmNavSource F

/-- A first route for the destination, from `p`. -/
def OsrmNavSource.fetch (geo : Geo F) (src : OsrmNavSource F) (p : PositionFix F)
    (dest : Destination F) : Option (Answer F) :=
  match src.client.route p.lat p.lon dest.lat dest.lon with
  | (some r, client) => do
    let src ← ({ src with client }.install r dest).rebuildCurrent geo
    some (.ok src.current, src)
  | (none, client) => some (.error (), { src with client })

def OsrmNavSource.setDestination (geo : Geo F) (src : OsrmNavSource F) (dest : Destination F) :
    Option (Answer F) :=
  let src := { src with destination := some dest, route := none, next_idx := 0, current := none }
  match src.last_fix with
  | some p => src.fetch geo p dest
  | none => some (.ok none, src)

/-- The step pointer moves on when the next maneuver has been reached. -/
def OsrmNavSource.advance (geo : Geo F) (src : OsrmNavSource F) (route : Route F)
    (fix : PositionFix F) : Option (OsrmNavSource F) :=
  if src.next_idx < route.steps.length then do
    let step ← route.steps[src.next_idx]?
    let d_to_man := PositionFix.distanceTo geo fix step.lat step.lon
    if geo.lt d_to_man geo.advance_radius_m ∧ src.next_idx + 1 < route.steps.length then
      some { src with next_idx := src.next_idx + 1 }
    else some src
  else some src

def OsrmNavSource.needsRecalc (geo : Geo F) (src : OsrmNavSource F) (fix : PositionFix F) : Bool :=
  (src.minDistToRoute geo fix).elim false fun d => geo.lt geo.recalc_radius_m d

/-- A failed recalculation keeps the route. -/
def OsrmNavSource.recalc (geo : Geo F) (src : OsrmNavSource F) (fix : PositionFix F)
    (dest : Destination F) : OsrmNavSource F :=
  if src.needsRecalc geo fix then
    match src.client.route fix.lat fix.lon dest.lat dest.lon with
    | (some r, client) => { src with client }.install r dest
    | (none, client) => { src with client }
  else src

def OsrmNavSource.updatePosition (geo : Geo F) (src : OsrmNavSource F) (fix : PositionFix F) :
    Option (Answer F) :=
  let src := { src with last_fix := some fix }
  match src.destination with
  | none => some (.ok none, src)
  | some dest =>
    match src.route with
    | none => src.fetch geo fix dest
    | some route => do
      let src ← src.advance geo route fix
      let src ← (src.recalc geo fix dest).rebuildCurrent geo
      some (.ok src.current, src)

inductive Call (F : Type)
  | setDestination (dest : Destination F)
  | updatePosition (fix : PositionFix F)

def OsrmNavSource.call (geo : Geo F) (src : OsrmNavSource F) : Call F → Option (Answer F)
  | .setDestination dest => src.setDestination geo dest
  | .updatePosition fix => src.updatePosition geo fix

def next (geo : Geo F) (src : OsrmNavSource F) (c : Call F) : Option (OsrmNavSource F) :=
  (src.call geo c).map (·.2)

/-! ### The invariant -/

def OsrmNavSource.stepCount (src : OsrmNavSource F) : Nat := src.route.elim 0 (·.steps.length)

/-- The cached instruction is that of the next step at the last fix. -/
def OsrmNavSource.Caches (geo : Geo F) (src : OsrmNavSource F) : Prop :=
  (src.current = none ↔ src.stepCount = 0) ∧
    ∀ instr, src.current = some instr → ∃ route step p, src.route = some route ∧
      route.steps[src.next_idx]? = some step ∧ src.last_fix = some p ∧
      instr = instructionOf geo step (PositionFix.distanceTo geo p step.lat step.lon)

def OsrmNavSource.InRange (src : OsrmNavSource F) : Prop :=
  src.next_idx < src.stepCount ∨ src.stepCount = 0 ∧ src.next_idx = 0

structure Inv (geo : Geo F) (src : OsrmNavSource F) : Prop where
  fetched : src.route.isSome → src.destination.isSome ∧ src.fetched_for = src.destination
  inRange : src.InRange
  caches : src.Caches geo
  fixed : src.route.isSome → src.last_fix.isSome

/-- What a call may do to the route and the step pointer. -/
def Moves (src : OsrmNavSource F) (c : Call F) (src' : OsrmNavSource F) : Prop :=
  src'.installs = src.installs + 1 ∨
    src'.installs = src.installs ∧
      match c with
      | .setDestination _ => src'.route = none ∧ src'.next_idx = 0
      | .updatePosition _ =>
        src'.route = src.route ∧ src.next_idx ≤ src'.next_idx ∧ src'.next_idx ≤ src.next_idx + 1

variable {geo : Geo F} {outcome : Nat → Option (Route F)} {src src' : OsrmNavSource F} {c : Call F}
  {p fix : PositionFix F} {dest : Destination F} {route r : Route F}

theorem rebuildCurrent_spec (hrange : src.InRange) (hfix : src.route.isSome → src.last_fix.isSome) :
    ∃ current, src.rebuildCurrent geo = some { src with current } ∧
      { src with current }.Caches geo := by
  unfold OsrmNavSource.rebuildCurrent
  cases hroute : src.route with
  | none =>
    refine ⟨none, rfl, ?_, ?_⟩
    · simp [OsrmNavSource.stepCount]
    · intro instr h
      cases h
  | some route =>
    have hcount : src.stepCount = route.steps.length := by simp [OsrmNavSource.stepCount, hroute]
    obtain ⟨p, hp⟩ := Option.isSome_iff_exists.mp (hfix (by simp [hroute]))
    dsimp only
    by_cases hempty : route.steps = []
    · refine ⟨none, by simp [hempty], ?_, ?_⟩
      · simp [OsrmNavSource.stepCount, hempty]
      · intro instr h
        cases h
    · -- The pointer is in range, so the clamp and the index do nothing.
      have hlt : src.next_idx < route.steps.length := by
        rcases hrange with hlt | ⟨hzero, -⟩
        · exact hcount ▸ hlt
        · exact absurd (List.length_eq_zero_iff.mp (hcount ▸ hzero)) hempty
      have hmin : min src.next_idx (route.steps.length - 1) = src.next_idx := by omega
      have hget : route.steps[src.next_idx]? = some route.steps[src.next_idx] :=
        List.getElem?_eq_getElem hlt
      refine ⟨_, by simp [hempty, hmin, hget, hp]; rfl, ?_, ?_⟩
      · simp [OsrmNavSource.stepCount, hempty]
      · intro instr h
        obtain rfl := Option.some.inj h
        exact ⟨route, _, p, rfl, hget, hp, rfl⟩

theorem install_inRange (src : OsrmNavSource F) (r : Route F) (dest : Destination F) :
    (src.install r dest).InRange := by
  unfold OsrmNavSource.install OsrmNavSource.InRange OsrmNavSource.stepCount
  dsimp only [Option.elim_some]
  split
  · left
    omega
  · rcases Nat.eq_zero_or_pos r.steps.length with hzero | hpos
    · exact .inr ⟨hzero, rfl⟩
    · exact .inl hpos

/-- Without a route there is neither a step to point to nor an instruction. -/
theorem Inv.bare (h : Inv geo src) (hroute : src.route = none) :
    src.next_idx = 0 ∧ src.current = none := by
  have hcount : src.stepCount = 0 := by simp [OsrmNavSource.stepCount, hroute]
  refine ⟨?_, h.caches.1.mpr hcount⟩
  rcases h.inRange with hlt | ⟨-, hzero⟩
  · rw [hcount] at hlt
    exact absurd hlt (Nat.not_lt_zero _)
  · exact hzero

theorem inv_bare (hroute : src.route = none) (hidx : src.next_idx = 0) (hcur : src.current = none) :
    Inv geo src := by
  have hcount : src.stepCount = 0 := by simp [OsrmNavSource.stepCount, hroute]
  refine ⟨?_, .inr ⟨hcount, hidx⟩, ⟨⟨fun _ => hcount, fun _ => hcur⟩, ?_⟩, ?_⟩
  · simp [hroute]
  · simp [hcur]
  · simp [hroute]

/-- A rebuilt source has the rest of the invariant from the source it was rebuilt from. -/
theorem rebuilt (hrange : src.InRange) (hfix : src.route.isSome → src.last_fix.isSome)
    (hfetched : src.route.isSome → src.destination.isSome ∧ src.fetched_for = src.destination) :
    ∃ current, src.rebuildCurrent geo = some { src with current } ∧
      Inv geo { src with current } := by
  obtain ⟨current, hbuild, hcaches⟩ := @rebuildCurrent_spec F geo src hrange hfix
  exact ⟨current, hbuild, hfetched, hrange, hcaches, hfix⟩

theorem fetch_spec (hfix : src.last_fix = some p) (hdest : src.destination = some dest)
    (hroute : src.route = none) (hidx : src.next_idx = 0) (hcur : src.current = none) :
    ∃ answer src', src.fetch geo p dest = some (answer, src') ∧ Inv geo src' ∧
      (src'.installs = src.installs + 1 ∨
        src'.installs = src.installs ∧ src'.route = none ∧ src'.next_idx = 0) := by
  unfold OsrmNavSource.fetch
  cases hreq : src.client.route p.lat p.lon dest.lat dest.lon with
  | mk found client =>
    cases found with
    | none =>
      exact ⟨_, _, rfl, inv_bare hroute hidx hcur, .inr ⟨rfl, hroute, hidx⟩⟩
    | some r =>
      obtain ⟨current, hbuild, hinv⟩ := @rebuilt F geo ({ src with client }.install r dest)
        (install_inRange _ _ _) (fun _ => by simp [OsrmNavSource.install, hfix])
        (fun _ => by simp [OsrmNavSource.install, hdest])
      dsimp only
      rw [hbuild]
      exact ⟨_, _, rfl, hinv, .inl rfl⟩

theorem setDestination_spec (geo : Geo F) (src : OsrmNavSource F) (dest : Destination F) :
    ∃ answer src', src.setDestination geo dest = some (answer, src') ∧ Inv geo src' ∧
      Moves src (.setDestination dest) src' := by
  unfold OsrmNavSource.setDestination
  cases hfix : src.last_fix with
  | none => exact ⟨_, _, rfl, inv_bare rfl rfl rfl, .inr ⟨rfl, rfl, rfl⟩⟩
  | some p => exact fetch_spec rfl rfl rfl rfl rfl

theorem advance_spec (hroute : src.route = some route) (hrange : src.InRange) :
    ∃ n, src.advance geo route fix = some { src with next_idx := n } ∧
      { src with next_idx := n }.InRange ∧ src.next_idx ≤ n ∧ n ≤ src.next_idx + 1 := by
  have hcount : src.stepCount = route.steps.length := by simp [OsrmNavSource.stepCount, hroute]
  unfold OsrmNavSource.advance
  split
  · rename_i hlt
    rw [List.getElem?_eq_getElem hlt]
    dsimp only [Option.bind_eq_bind, Option.bind_some]
    split
    · rename_i hnear
      refine ⟨src.next_idx + 1, rfl, .inl ?_, Nat.le_succ _, Nat.le_refl _⟩
      exact (show _ < src.stepCount from hcount ▸ hnear.2)
    · exact ⟨src.next_idx, rfl, hrange, Nat.le_refl _, Nat.le_succ _⟩
  · exact ⟨src.next_idx, rfl, hrange, Nat.le_refl _, Nat.le_succ _⟩

/-- A recalculation installs a route for the destination, or changes nothing but the client. -/
theorem recalc_spec (geo : Geo F) (src : OsrmNavSource F) (fix : PositionFix F)
    (dest : Destination F) :
    ∃ client, src.recalc geo fix dest = { src with client } ∨
      ∃ r, src.recalc geo fix dest = { src with client }.install r dest := by
  unfold OsrmNavSource.recalc
  split
  · cases src.client.route fix.lat fix.lon dest.lat dest.lon with
    | mk found client =>
      cases found with
      | none => exact ⟨client, .inl rfl⟩
      | some r => exact ⟨client, .inr ⟨r, rfl⟩⟩
  · exact ⟨src.client, .inl rfl⟩

theorem updatePosition_undirected (hdest : src.destination = none) :
    src.updatePosition geo fix = some (.ok none, { src with last_fix := some fix }) := by
  obtain ⟨client, destination, route, next_idx, last_fix, current, fetched_for, installs⟩ := src
  obtain rfl : destination = none := hdest
  rfl

theorem updatePosition_first (hdest : src.destination = some dest) (hroute : src.route = none) :
    src.updatePosition geo fix = { src with last_fix := some fix }.fetch geo fix dest := by
  obtain ⟨client, destination, route, next_idx, last_fix, current, fetched_for, installs⟩ := src
  obtain rfl : destination = some dest := hdest
  obtain rfl : route = none := hroute
  rfl

theorem updatePosition_walk (hdest : src.destination = some dest) (hroute : src.route = some route)
    {walked rebuilt : OsrmNavSource F}
    (hwalk : { src with last_fix := some fix }.advance geo route fix = some walked)
    (hbuild : (walked.recalc geo fix dest).rebuildCurrent geo = some rebuilt) :
    src.updatePosition geo fix = some (.ok rebuilt.current, rebuilt) := by
  obtain ⟨client, destination, route', next_idx, last_fix, current, fetched_for, installs⟩ := src
  obtain rfl : destination = some dest := hdest
  obtain rfl : route' = some route := hroute
  simp only [OsrmNavSource.updatePosition, hwalk, hbuild, Option.bind_eq_bind, Option.bind_some]

/-- With a route, the pointer may go one step on, the route may be replaced, and the instruction is
that of what is there then. -/
theorem walk_spec (h : Inv geo src) (hdest : src.destination = some dest)
    (hroute : src.route = some route) (fix : PositionFix F) :
    ∃ n current, src.updatePosition geo fix = some (.ok current,
        { { src with last_fix := some fix, next_idx := n }.recalc geo fix dest with current }) ∧
      Inv geo
        { { src with last_fix := some fix, next_idx := n }.recalc geo fix dest with current } ∧
      src.next_idx ≤ n ∧ n ≤ src.next_idx + 1 := by
  obtain ⟨n, hadv, hrange, hle, hle'⟩ := @advance_spec F geo { src with last_fix := some fix }
    fix route hroute h.inRange
  obtain ⟨current, hbuild, hinv⟩ : ∃ current,
      ({ src with last_fix := some fix, next_idx := n }.recalc geo fix dest).rebuildCurrent geo =
        some { { src with last_fix := some fix, next_idx := n }.recalc geo fix dest with
          current } ∧
      Inv geo
        { { src with last_fix := some fix, next_idx := n }.recalc geo fix dest with current } := by
    obtain ⟨client, hsame | ⟨r, hnew⟩⟩ := recalc_spec geo
      { src with last_fix := some fix, next_idx := n } fix dest
    · rw [hsame]
      exact rebuilt hrange (fun _ => rfl) h.fetched
    · rw [hnew]
      exact rebuilt (install_inRange _ _ _) (fun _ => rfl)
        (fun _ => by simp [OsrmNavSource.install, hdest])
  exact ⟨n, current, updatePosition_walk hdest hroute hadv hbuild, hinv, hle, hle'⟩

theorem updatePosition_spec (h : Inv geo src) (fix : PositionFix F) :
    ∃ answer src', src.updatePosition geo fix = some (answer, src') ∧ Inv geo src' ∧
      Moves src (.updatePosition fix) src' := by
  cases hroute : src.route with
  | none =>
    obtain ⟨hidx, hcur⟩ := h.bare hroute
    cases hdest : src.destination with
    | none =>
      exact ⟨_, _, updatePosition_undirected hdest, inv_bare hroute hidx hcur,
        .inr ⟨rfl, rfl, Nat.le_refl _, Nat.le_succ _⟩⟩
    | some dest =>
      obtain ⟨answer, src', hfetch, hinv, hmoves⟩ := @fetch_spec F geo
        { src with last_fix := some fix } fix dest rfl hdest hroute hidx hcur
      refine ⟨answer, src', (updatePosition_first hdest hroute).trans hfetch, hinv, ?_⟩
      rcases hmoves with hnew | ⟨hsame, hnone, hzero⟩
      · exact .inl hnew
      · exact .inr ⟨hsame, hnone.trans hroute.symm, by omega, by omega⟩
  | some route =>
    obtain ⟨hsome, -⟩ := h.fetched (by simp [hroute])
    obtain ⟨dest, hdest⟩ := Option.isSome_iff_exists.mp hsome
    obtain ⟨n, current, hcall, hinv, hle, hle'⟩ := walk_spec h hdest hroute fix
    refine ⟨_, _, hcall, hinv, ?_⟩
    obtain ⟨client, hrecalc | ⟨r, hrecalc⟩⟩ := recalc_spec geo
      { src with last_fix := some fix, next_idx := n } fix dest
    · rw [hrecalc]
      exact .inr ⟨rfl, rfl, hle, hle'⟩
    · rw [hrecalc]
      exact .inl rfl

theorem call_spec (h : Inv geo src) (c : Call F) :
    ∃ answer src', src.call geo c = some (answer, src') ∧ Inv geo src' ∧ Moves src c src' := by
  cases c with
  | setDestination dest => exact setDestination_spec geo src dest
  | updatePosition fix => exact updatePosition_spec h fix

theorem inv_reachable (h : Reachable (Steps (next geo)) (.new outcome) src) : Inv geo src := by
  obtain ⟨xs, hrun⟩ := h
  refine hrun.invariant ?_ (inv_bare rfl rfl rfl)
  intro src c src' hinv hstep
  obtain ⟨answer, src'', hcall, hinv', -⟩ := call_spec hinv c
  have heq : next geo src c = some src'' := by simp [next, hcall]
  rw [Steps, heq] at hstep
  exact Option.some.inj hstep ▸ hinv'

/-- In every reachable state, and over every call from it, which is never out of range. -/
theorem nav_source_consistent (h : Reachable (Steps (next geo)) (.new outcome) src) :
    Inv geo src ∧ ∀ c, ∃ src', next geo src c = some src' ∧ Moves src c src' := by
  have hinv : Inv geo src := inv_reachable h
  refine ⟨hinv, ?_⟩
  intro c
  obtain ⟨answer, src', hcall, -, hmoves⟩ := call_spec hinv c
  exact ⟨src', by simp [next, hcall], hmoves⟩

/-- Whole metres on a grid, with a route of two steps, and no answer to the second request. -/
def grid : Geo Nat where
  zero := 0
  advance_radius_m := 25
  recalc_radius_m := 75
  distance lat₁ lon₁ lat₂ lon₂ := (lat₁ - lat₂) + (lat₂ - lat₁) + ((lon₁ - lon₂) + (lon₂ - lon₁))
  lt a b := a < b
  round_i64 d := d
  round_u32 d := UInt32.ofNat d

def gridStep (lat : Nat) (turn_id : UInt32) (verb : String) : RouteStep Nat :=
  ⟨lat, 0, 100, "", turn_id, verb⟩

def gridOutcome (n : Nat) : Option (Route Nat) :=
  if n = 1 then none else some ⟨[gridStep 0 1 "Head", gridStep 100 9 "You have arrived"]⟩

def gridFix : PositionFix Nat := ⟨0, 0, 0, 0, 0, 0⟩

/-- The first fix installs a route, and the pointer goes to its first turn. -/
theorem nav_source_consistent_first :
    ∃ src, Reachable (Steps (next grid)) (.new gridOutcome) src ∧ src.next_idx = 1 ∧
      Inv grid src ∧ ∀ c, ∃ src', next grid src c = some src' ∧ Moves src c src' := by
  have hreach : Reachable (Steps (next grid)) (.new gridOutcome) _ :=
    ⟨[.setDestination ⟨100, 0, ""⟩, .updatePosition gridFix], .stepL rfl (.stepL rfl .refl)⟩
  exact ⟨_, hreach, rfl, nav_source_consistent hreach⟩

/-- A new destination drops the route, and the pointer with it, before another is installed. -/
theorem pointer_goes_back :
    ¬ ∀ (geo : Geo Nat) outcome src c src', Reachable (Steps (next geo)) (.new outcome) src →
      next geo src c = some src' → src'.installs = src.installs →
      src.next_idx ≤ src'.next_idx := by
  intro h
  have hreach : Reachable (Steps (next grid)) (.new gridOutcome) _ :=
    ⟨[.setDestination ⟨100, 0, ""⟩, .updatePosition gridFix], .stepL rfl (.stepL rfl .refl)⟩
  have hle := h grid gridOutcome _ (.setDestination ⟨200, 0, ""⟩) _ hreach rfl rfl
  exact absurd hle (by decide)

/-! ### The source as the runner calls it -/

/-- The default answer is that of a call out of range. -/
def OsrmNavSource.calls (geo : Geo F) : NavInstructionSource (OsrmNavSource F) F where
  set_destination src dest := (src.setDestination geo dest).getD (.error (), src)
  update_position src fix := (src.updatePosition geo fix).getD (.error (), src)
  current_instruction src := src.current

theorem calls_in_range (h : Inv geo src) (dest : Destination F) (fix : PositionFix F) :
    src.setDestination geo dest = some ((OsrmNavSource.calls geo).set_destination src dest) ∧
      src.updatePosition geo fix = some ((OsrmNavSource.calls geo).update_position src fix) := by
  obtain ⟨answer, src', hset, -, -⟩ := setDestination_spec geo src dest
  obtain ⟨answer', src'', hupdate, -, -⟩ := updatePosition_spec h fix
  exact ⟨by simp [OsrmNavSource.calls, hset], by simp [OsrmNavSource.calls, hupdate]⟩

end Aabox.Osrm
