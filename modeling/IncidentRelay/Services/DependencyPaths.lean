import IncidentRelay.Lib.DepthFirst
import IncidentRelay.Services.Correlation

/-!
# The dependency paths of a service

`_collect_dependency_paths` looks depth first and gives each service to the route that
comes to it first. A longer route that comes first keeps the service, with its depth, and
cuts off what lies behind it at the limit; and the service itself is not among the visited
ones, so a cycle leads back to it.

 * `walk_claims`: the walk is the search of `Lib.DepthFirst`.
 * `collectDependencyPaths_shortest_iff`: when the paths are what they are taken for.
-/

namespace IncidentRelay.Services

section Paths

variable (c : Catalog) (direction : Direction)

/-- The services at the other end of the dependencies, in the order of the rows. -/
def neighbours (serviceId : Id) : List Id :=
  (enabledDependencies c direction serviceId).map direction.target

def DependsOn (u v : Id) : Prop := v ∈ neighbours c direction u

/-- Each service within the limit but the start, once, at its distance. -/
structure ShortestPaths (start : Id) (paths : List DependencyPath) : Prop where
  nodup : (paths.map (·.service)).Nodup
  mem : ∀ v, v ∈ paths.map (·.service) ↔
    v ≠ start ∧ Within (DependsOn c direction) maxCorrelationDepth start v
  depth : ∀ p ∈ paths, Hops (DependsOn c direction) p.depth start p.service ∧
    ∀ n, Hops (DependsOn c direction) n start p.service → p.depth ≤ n

/-- The walk has visited what the search has claimed, at the same depths. -/
structure Claims (w : Walked) (claims : List (Id × List ℕ)) : Prop where
  visited : ∀ v, v ∈ w.visited ↔ v ∈ claims.map Prod.fst
  paths : w.paths.map (fun p => (p.service, p.depth)) = claims.map fun k => (k.1, k.2.length)

variable {c direction}

/-- A path that is added is a claim. -/
theorem Claims.add {w : Walked} {claims : List (Id × List ℕ)} (h : Claims w claims)
    (d : ServiceDependency) {route : List ℕ} (n : ℕ) :
    Claims ⟨direction.target d :: w.visited, w.paths ++ [pathOf direction (route.length + 1) d]⟩
      (claims ++ [(direction.target d, route ++ [n])]) where
  visited v := by
    rw [List.mem_cons, h.visited v, List.map_append, List.mem_append, List.map_singleton,
      List.mem_singleton, or_comm]
  paths := by
    rw [List.map_append, List.map_append, h.paths]
    simp [pathOf]

/-- **The walk is the search.** -/
theorem walk_claims (left : ℕ) (current : Id) (route : List ℕ) {w : Walked}
    {claims : List (Id × List ℕ)} (h : Claims w claims) :
    Claims (walk c direction left current (route.length + 1) w)
      (DepthFirst.search (neighbours c direction) left current route claims) := by
  induction left generalizing current route w claims with
  | zero => exact h
  | succ left ih =>
    unfold walk DepthFirst.search neighbours
    -- along the dependencies, with the number of the first one
    suffices hfrom : ∀ (ds : List ServiceDependency) (n : ℕ) {w : Walked}
        {claims : List (Id × List ℕ)}, Claims w claims →
        Claims (ds.foldl (fun w d =>
            if direction.target d ∈ w.visited then w
            else walk c direction left (direction.target d) (route.length + 1 + 1)
              { visited := direction.target d :: w.visited
                paths := w.paths ++ [pathOf direction (route.length + 1) d] }) w)
          (((ds.map direction.target).zipIdx n).foldl (fun claims k =>
            if k.1 ∈ claims.map Prod.fst then claims
            else DepthFirst.search (neighbours c direction) left k.1 (route ++ [k.2])
              (claims ++ [(k.1, route ++ [k.2])])) claims) from
      hfrom _ 0 h
    intro ds
    induction ds with
    | nil => exact fun n _ _ h => h
    | cons d ds ihds =>
      intro n w claims h
      rw [List.map_cons, List.zipIdx_cons, List.foldl_cons, List.foldl_cons]
      refine ihds (n + 1) ?_
      dsimp only
      by_cases hvisited : direction.target d ∈ w.visited
      · rw [if_pos hvisited, if_pos ((h.visited _).mp hvisited)]
        exact h
      · rw [if_neg hvisited, if_neg fun hclaimed => hvisited ((h.visited _).mpr hclaimed)]
        have hbehind := ih (direction.target d) (route ++ [n]) (@Claims.add direction _ _ h d route n)
        rwa [List.length_append, List.length_singleton] at hbehind

/-- The paths that are collected are the claims of the depth-first walk. -/
theorem collectDependencyPaths_claims (start : Id) :
    (collectDependencyPaths c start direction).map (fun p => (p.service, p.depth)) =
      (DepthFirst.claims (neighbours c direction) maxCorrelationDepth start).map
        fun k => (k.1, k.2.length) :=
  (walk_claims maxCorrelationDepth start [] ⟨by simp, rfl⟩).paths

end Paths

/-! ## When the paths are shortest -/

section Shortest

variable {c : Catalog} {direction : Direction} {start : Id}

/-- A shortest path has as many hops as the distance. -/
theorem depth_of_shortest {r : List ℕ} {v : Id}
    (h : DepthFirst.Shortest (neighbours c direction) start r v) :
    Hops (DependsOn c direction) r.length start v ∧
      ∀ n, Hops (DependsOn c direction) n start v → r.length ≤ n := by
  refine ⟨DepthFirst.hops_iff_route.mpr ⟨r, rfl, h.1⟩, fun n hops => ?_⟩
  obtain ⟨s, rfl, hs⟩ := DepthFirst.hops_iff_route.mp hops
  exact h.2 s hs

/-- The paths are the claims without their routes, so they are shortest together. -/
theorem shortestPaths_iff_exact :
    ShortestPaths c direction start (collectDependencyPaths c start direction) ↔
      DepthFirst.Exact (neighbours c direction) maxCorrelationDepth start
        (DepthFirst.claims (neighbours c direction) maxCorrelationDepth start) := by
  have hpairs := @collectDependencyPaths_claims c direction start
  have hservices : (collectDependencyPaths c start direction).map (·.service) =
      (DepthFirst.claims (neighbours c direction) maxCorrelationDepth start).map Prod.fst := by
    have := congrArg (List.map Prod.fst) hpairs
    rwa [List.map_map, List.map_map] at this
  constructor
  · intro h
    refine ⟨hservices ▸ h.nodup, fun k hk => ?_, fun r v hr hlength hstart => ?_⟩
    · -- the path of the claim
      have hpath : (k.1, k.2.length) ∈ (collectDependencyPaths c start direction).map
          fun p => (p.service, p.depth) := by
        rw [hpairs]
        exact List.mem_map_of_mem hk
      obtain ⟨p, hp, heq⟩ := List.mem_map.mp hpath
      rw [Prod.mk.injEq] at heq
      obtain ⟨hne, -⟩ := (h.mem k.1).mp (heq.1 ▸ List.mem_map_of_mem hp)
      refine ⟨hne, (DepthFirst.claim_parent hk).1, DepthFirst.route_of_has (.inr hk),
        fun s hs => ?_⟩
      rw [← heq.2]
      refine (h.depth p hp).2 _ ?_
      rw [heq.1]
      exact DepthFirst.hops_iff_route.mpr ⟨s, rfl, hs⟩
    · rw [← hservices]
      exact (h.mem v).mpr
        ⟨hstart, r.length, hlength, DepthFirst.hops_iff_route.mpr ⟨r, rfl, hr⟩⟩
  · intro h
    refine ⟨hservices ▸ h.nodup, fun v => ?_, fun p hp => ?_⟩
    · rw [hservices]
      constructor
      · intro hv
        obtain ⟨k, hk, rfl⟩ := List.mem_map.mp hv
        obtain ⟨hne, hlength, hshort⟩ := h.sound k hk
        exact ⟨hne, k.2.length, hlength, (depth_of_shortest hshort).1⟩
      · rintro ⟨hne, n, hn, hops⟩
        obtain ⟨r, rfl, hr⟩ := DepthFirst.hops_iff_route.mp hops
        exact h.complete r v hr hn hne
    · have hpair : (p.service, p.depth) ∈
          (DepthFirst.claims (neighbours c direction) maxCorrelationDepth start).map
            fun k => (k.1, k.2.length) := by
        rw [← hpairs]
        exact List.mem_map_of_mem hp
      obtain ⟨k, hk, heq⟩ := List.mem_map.mp hpair
      rw [Prod.mk.injEq] at heq
      rw [← heq.1, ← heq.2]
      exact depth_of_shortest (h.sound k hk).2.2

/-- **When the paths are shortest.** The paths are the services within the limit but the
start, once each, at their distances, exactly when no dependency path within the limit leads
back to the start and none that goes on from a shortest path comes, depth first in the order
of the rows, before the shortest paths to its end. -/
theorem collectDependencyPaths_shortest_iff (c : Catalog) (start : Id) (direction : Direction) :
    ShortestPaths c direction start (collectDependencyPaths c start direction) ↔
      DepthFirst.InOrder (neighbours c direction) maxCorrelationDepth start :=
  shortestPaths_iff_exact.trans DepthFirst.search_exact_iff

end Shortest

/-! ## A diamond with a long side -/

/-- A dependency between two services. -/
def needs (id service dependsOnService : Id) : ServiceDependency :=
  ⟨id, service, dependsOnService, "hard", "critical", true, 300, true, false⟩

/-- The service `1` needs `2`, which needs `3`; later a row says that `1` needs `3` itself. -/
def longSideFirst : Catalog where
  teams := []
  services := []
  dependencies := [needs 1 1 2, needs 2 2 3, needs 3 1 3]
  groups := []
  businessServices := []
  components := []
  businessServices_key := List.nodup_nil

/-- The service `3` is one hop away and is found at depth two. -/
theorem long_side_claims :
    ¬ShortestPaths longSideFirst .upstream 1 (collectDependencyPaths longSideFirst 1 .upstream) := by
  intro h
  have hfound : (collectDependencyPaths longSideFirst 1 .upstream).map
      (fun p => (p.service, p.depth)) = [(2, 1), (3, 2)] := by decide +kernel
  have hmem : ((3 : Id), 2) ∈ (collectDependencyPaths longSideFirst 1 .upstream).map
      fun p => (p.service, p.depth) := by
    rw [hfound]
    simp
  obtain ⟨p, hp, heq⟩ := List.mem_map.mp hmem
  rw [Prod.mk.injEq] at heq
  have hhop : Hops (DependsOn longSideFirst .upstream) 1 1 p.service := by
    rw [heq.1]
    exact .hop (show 3 ∈ neighbours longSideFirst .upstream 1 by decide) (.here 3)
  have := (h.depth p hp).2 1 hhop
  omega

end IncidentRelay.Services
