import Aabox.Osrm
import Mathlib.Topology.MetricSpace.Pseudo.Defs
import Mathlib.Tactic.Linarith
import Mathlib.Tactic.NormNum

/-!
# When the routing source recalculates

Distances are exact here, those of a metric in which a fix may lie on the leg between two maneuver
points. The test for having left the route looks at the maneuver points only.
-/
namespace Aabox.Osrm
open Aabox.Lib Aabox.Nav Aabox.NavRunner Aabox.Sensor

/-- A position between two others on a shortest path. -/
def OnLeg {X : Type} [PseudoMetricSpace X] (a b z : X) : Prop := dist a z + dist z b = dist a b

/-- Of a leg no longer than twice a radius, every position is within the radius of an end. -/
theorem OnLeg.near {X : Type} [PseudoMetricSpace X] {a b z : X} {radius : ℝ} (h : OnLeg a b z)
    (hle : dist a b ≤ 2 * radius) : dist z a ≤ radius ∨ dist z b ≤ radius := by
  unfold OnLeg at h
  by_contra hno
  rw [not_or, not_le, not_le, dist_comm z a] at hno
  linarith [hno.1, hno.2]

/-- The distances of a metric, with `pos` the position of a coordinate pair. -/
structure Exact {X : Type} [PseudoMetricSpace X] (geo : Geo ℝ) (pos : ℝ → ℝ → X) : Prop where
  distance : ∀ lat₁ lon₁ lat₂ lon₂,
    geo.distance lat₁ lon₁ lat₂ lon₂ = dist (pos lat₁ lon₁) (pos lat₂ lon₂)
  lt : ∀ a b, geo.lt a b = true ↔ a < b

/-- The call of `update_position` makes a request for a route. -/
def Requests {F : Type} (geo : Geo F) (src : OsrmNavSource F) (fix : PositionFix F) : Prop :=
  ∃ answer src', src.updatePosition geo fix = some (answer, src') ∧
    src'.client.requests ≠ src.client.requests

variable {F X : Type} [PseudoMetricSpace X] {geo : Geo ℝ} {pos : ℝ → ℝ → X} {route : Route ℝ}
  {outcome : Nat → Option (Route ℝ)} {src : OsrmNavSource ℝ} {fix : PositionFix ℝ} {radius : ℝ}

theorem recalc_requests (geo : Geo F) (src : OsrmNavSource F) (fix : PositionFix F)
    (dest : Destination F) :
    (src.recalc geo fix dest).client.requests = src.client.requests ++
      if src.needsRecalc geo fix then [⟨fix.lat, fix.lon, dest.lat, dest.lon⟩] else [] := by
  unfold OsrmNavSource.recalc
  split
  · have hreq : (src.client.route fix.lat fix.lon dest.lat dest.lon).2.requests =
        src.client.requests ++ [⟨fix.lat, fix.lon, dest.lat, dest.lon⟩] := rfl
    cases hroute : src.client.route fix.lat fix.lon dest.lat dest.lon with
    | mk found client =>
      rw [hroute] at hreq
      cases found with
      | none => exact hreq
      | some r => exact hreq
  · simp

/-- With a route installed, a fix causes a request exactly if it is off the route. -/
theorem requests_iff {geo : Geo F} {src : OsrmNavSource F} {route : Route F} (h : Inv geo src)
    (hroute : src.route = some route) (fix : PositionFix F) :
    Requests geo src fix ↔ src.needsRecalc geo fix = true := by
  obtain ⟨hsome, -⟩ := h.fetched (by simp [hroute])
  obtain ⟨dest, hdest⟩ := Option.isSome_iff_exists.mp hsome
  obtain ⟨n, current, hupdate, -⟩ := walk_spec h hdest hroute fix
  have hneeds : { src with last_fix := some fix, next_idx := n }.needsRecalc geo fix =
      src.needsRecalc geo fix := rfl
  have hreq := recalc_requests geo { src with last_fix := some fix, next_idx := n } fix dest
  rw [hneeds] at hreq
  constructor
  · rintro ⟨answer, src', hcall, hne⟩
    obtain ⟨-, rfl⟩ := Prod.mk.inj (Option.some.inj (hupdate.symm.trans hcall))
    by_contra hno
    rw [if_neg hno, List.append_nil] at hreq
    exact hne hreq
  · intro hyes
    refine ⟨_, _, hupdate, ?_⟩
    rw [if_pos hyes] at hreq
    intro hsame
    have hlen := congrArg List.length (hreq.symm.trans hsame)
    simp at hlen

/-- The smallest of some distances is beyond the radius exactly if all of them are. -/
theorem foldl_far (hlt : ∀ a b, geo.lt a b = true ↔ a < b) (ds : List ℝ) (acc : Option ℝ) :
    ((ds.foldl (nearer geo) acc).elim false fun d => geo.lt radius d) = true ↔
      (acc.isSome ∨ ds ≠ []) ∧ (∀ a, acc = some a → radius < a) ∧ ∀ d ∈ ds, radius < d := by
  induction ds generalizing acc with
  | nil => cases acc <;> simp [hlt]
  | cons d ds ih =>
    rw [List.foldl_cons, ih]
    cases acc with
    | none => simp [nearer]
    | some a =>
      by_cases hd : d < a
      · simp only [nearer, hlt, hd, if_true, Option.isSome_some, Option.some.injEq, forall_eq',
          List.forall_mem_cons, true_or, true_and, ne_eq, reduceCtorEq, not_false_eq_true]
        exact ⟨fun h => ⟨h.1.trans hd, h⟩, fun h => h.2⟩
      · simp only [nearer, hlt, hd, if_false, Option.isSome_some, Option.some.injEq, forall_eq',
          List.forall_mem_cons, true_or, true_and, ne_eq, reduceCtorEq, not_false_eq_true]
        exact ⟨fun h => ⟨h.1, h.1.trans_le (not_lt.mp hd), h.2⟩, fun h => ⟨h.1, h.2.2⟩⟩

theorem needsRecalc_iff (hx : Exact geo pos) (hroute : src.route = some route) :
    src.needsRecalc geo fix = true ↔ route.steps ≠ [] ∧ ∀ step ∈ route.steps,
      geo.recalc_radius_m < dist (pos fix.lat fix.lon) (pos step.lat step.lon) := by
  unfold OsrmNavSource.needsRecalc OsrmNavSource.minDistToRoute
  rw [hroute, Option.bind_some, foldl_far hx.lt]
  simp [PositionFix.distanceTo, hx.distance]

/-- In every reachable state with a route: a fix causes a request exactly if it is beyond the radius
of every maneuver point, and so none on a current leg of at most twice the radius. -/
theorem recalculates_iff_far (hx : Exact geo pos)
    (h : Reachable (Steps (next geo)) (.new outcome) src) (hroute : src.route = some route)
    (fix : PositionFix ℝ) :
    (Requests geo src fix ↔ route.steps ≠ [] ∧ ∀ step ∈ route.steps,
        geo.recalc_radius_m < dist (pos fix.lat fix.lon) (pos step.lat step.lon)) ∧
      ∀ a b, 1 ≤ src.next_idx → route.steps[src.next_idx - 1]? = some a →
        route.steps[src.next_idx]? = some b →
        OnLeg (pos a.lat a.lon) (pos b.lat b.lon) (pos fix.lat fix.lon) →
        dist (pos a.lat a.lon) (pos b.lat b.lon) ≤ 2 * geo.recalc_radius_m →
        ¬ Requests geo src fix := by
  have hiff := (requests_iff (inv_reachable h) hroute fix).trans (needsRecalc_iff hx hroute)
  refine ⟨hiff, ?_⟩
  intro a b _ ha hb hleg hle hreq
  obtain ⟨-, hfar⟩ := hiff.mp hreq
  rcases hleg.near hle with hnear | hnear
  · exact absurd (hfar a (List.mem_of_getElem? ha)) (not_lt.mpr hnear)
  · exact absurd (hfar b (List.mem_of_getElem? hb)) (not_lt.mpr hnear)

/-- Positions on a line. -/
noncomputable def line : Geo ℝ where
  zero := 0
  advance_radius_m := 25
  recalc_radius_m := 75
  distance lat₁ _ lat₂ _ := dist lat₁ lat₂
  lt a b := decide (a < b)
  round_i64 d := round d
  round_u32 d := UInt32.ofNat (round d).toNat

theorem line_exact : Exact line fun lat _ => lat where
  distance _ _ _ _ := rfl
  lt a b := by simp [line]

/-- A leg of a thousand metres. -/
def longLeg : Route ℝ :=
  { steps := [⟨0, 0, 1000, "", 1, "Head"⟩, ⟨1000, 0, 0, "", 9, "You have arrived"⟩] }

def lineFix (lat : ℝ) : PositionFix ℝ := ⟨0, lat, 0, 0, 0, 0⟩

/-- The route is fetched at its start. -/
theorem longLeg_reached :
    ∃ src, Reachable (Steps (next line)) (.new fun _ => some longLeg) src ∧
      src.route = some longLeg ∧ src.next_idx = 1 :=
  ⟨_, ⟨[.setDestination ⟨1000, 0, ""⟩, .updatePosition (lineFix 0)],
    .stepL rfl (.stepL rfl .refl)⟩, rfl, rfl⟩

/-- Near the start of the leg no request is made. -/
theorem recalculates_iff_far_start :
    ∃ src, Reachable (Steps (next line)) (.new fun _ => some longLeg) src ∧
      ¬ Requests line src (lineFix 50) := by
  obtain ⟨src, hreach, hroute, hidx⟩ := longLeg_reached
  refine ⟨src, hreach, ?_⟩
  rw [(recalculates_iff_far line_exact hreach hroute (lineFix 50)).1]
  rintro ⟨-, hfar⟩
  have hstart := hfar ⟨0, 0, 1000, "", 1, "Head"⟩ (by simp [longLeg])
  rw [Real.dist_eq] at hstart
  norm_num [line, lineFix] at hstart

/-- In the middle of the leg one is made. -/
theorem middle_recalculates :
    ¬ ∀ (geo : Geo ℝ) (pos : ℝ → ℝ → ℝ) outcome src route fix a b, Exact geo pos →
      Reachable (Steps (next geo)) (.new outcome) src → src.route = some route →
      1 ≤ src.next_idx → route.steps[src.next_idx - 1]? = some a →
      route.steps[src.next_idx]? = some b →
      OnLeg (pos a.lat a.lon) (pos b.lat b.lon) (pos fix.lat fix.lon) →
      ¬ Requests geo src fix := by
  intro h
  obtain ⟨src, hreach, hroute, hidx⟩ := longLeg_reached
  refine h line (fun lat _ => lat) _ src longLeg (lineFix 500) _ _ line_exact hreach hroute
    (by rw [hidx]) (by rw [hidx]; rfl) (by rw [hidx]; rfl) ?_ ?_
  · unfold OnLeg
    norm_num [Real.dist_eq, lineFix]
  · rw [requests_iff (inv_reachable hreach) hroute, needsRecalc_iff line_exact hroute]
    refine ⟨by simp [longLeg], ?_⟩
    intro step hstep
    rcases List.mem_pair.mp hstep with rfl | rfl <;> norm_num [Real.dist_eq, lineFix, line]

end Aabox.Osrm
