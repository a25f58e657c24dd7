import IncidentRelay.Lib.SimpleWays
import IncidentRelay.Services.ServiceImpact
import Mathlib.Data.Finset.Card

/-!
# The blast radius of a service

`_blast_radius` walks the dependencies of a service downstream, depth first, and carries its
way. It follows every simple way up to the depth, so the services that it counts are those
within the depth (`mem_visited`), but it lists a path for each way: a service is listed once
for each simple way to it, the shortest of which has its distance (`blastRadius_exact`).
-/

namespace IncidentRelay.Services

/-- A service with the columns that the counters read. -/
structure GraphService extends Service where
  criticality : String
  tier : String
  deriving DecidableEq

/-- What the walk reads: the services that were loaded, the dependencies, in the order of the
rows, and the depth. -/
structure GraphContext where
  services : List GraphService
  dependencies : List ServiceDependency
  maxDepth : ℕ

namespace GraphContext

variable (x : GraphContext)

/-- `context["services"].get(service_id)` -/
def get (serviceId : Id) : Option GraphService := x.services.find? fun s => s.id = serviceId

def known (serviceId : Id) : Bool := (x.get serviceId).isSome

/-- `downstream_by_service` of `_build_dependency_maps`. -/
def downstreamByService (serviceId : Id) : List ServiceDependency :=
  x.dependencies.filter fun d =>
    x.known d.service = true ∧ x.known d.dependsOnService = true ∧ d.dependsOnService = serviceId

end GraphContext

/-- `_path_node(service, dependency)`. -/
structure PathNode where
  serviceId : Id
  serviceSlug : String
  serviceName : String
  status : ServiceStatus
  effectiveStatus : ServiceStatus
  impactScore : ℕ
  dependencyType : Option String
  dependencyCriticality : Option String
  deriving DecidableEq

def pathNode (service : GraphService) (dependency : Option ServiceDependency) : PathNode where
  serviceId := service.id
  serviceSlug := service.slug
  serviceName := service.name
  status := normalizeStatus service.status
  effectiveStatus := normalizeStatus service.status
  impactScore := clampImpactScore (normalizeStatus service.status).impactScore
  dependencyType := dependency.map (·.dependencyType)
  dependencyCriticality := dependency.map (·.criticality)

/-- What the walk has collected. -/
structure Blast where
  visited : Finset Id
  paths : List (List PathNode)
  cycleDetected : Bool
  depthLimited : Bool

structure BlastRadius where
  directDownstream : ℕ
  transitiveDownstream : ℕ
  criticalDownstream : ℕ
  tier1Downstream : ℕ
  affectedDownstream : ℕ
  paths : List (List PathNode)
  cycleDetected : Bool
  depthLimited : Bool

section Walk

variable (x : GraphContext)

/-- `_path_for_ids(service_ids, context)`. -/
def pathForIds (ids : List Id) : List PathNode :=
  ids.filterMap fun id => (x.get id).map fun s => pathNode s none

/-- `_downstream_path` and `_downstream_cycle_path`. -/
def downstreamPath (path : List Id) (d : ServiceDependency) : List PathNode :=
  pathForIds x path ++ ((x.get d.service).map fun s => pathNode s (some d)).toList

/-- `visit(current_service_id, path, depth)`. -/
def visit (includePaths : Bool) : ℕ → Id → List Id → Blast → Blast
  | 0, _, _, b => { b with depthLimited := true }
  | depth + 1, current, path, b =>
    (x.downstreamByService current).foldl (fun b d =>
      if x.known d.service = false then b
      else
        let paths := if includePaths then b.paths ++ [downstreamPath x path d] else b.paths
        if d.service ∈ path then { b with cycleDetected := true, paths }
        else
          visit includePaths depth d.service (path ++ [d.service])
            { b with visited := insert d.service b.visited, paths }) b

/-- `_blast_radius(service_id, context, include_paths=…)`. -/
def blastRadius (serviceId : Id) (includePaths : Bool) : BlastRadius :=
  let direct := (x.downstreamByService serviceId).filter fun d => x.known d.service
  let b := visit x includePaths x.maxDepth serviceId [serviceId] ⟨∅, [], false, false⟩
  let counted (p : GraphService → Bool) : ℕ := (b.visited.filter fun id => (x.get id).any p).card
  { directDownstream := (direct.map (·.service)).toFinset.card
    transitiveDownstream := b.visited.card
    criticalDownstream := counted fun s => s.criticality = "high" ∨ s.criticality = "critical"
    tier1Downstream := counted fun s => s.tier = "tier_1"
    affectedDownstream := b.visited.card
    paths := b.paths
    cycleDetected := b.cycleDetected
    depthLimited := b.depthLimited }

end Walk

/-! ## The walk follows the simple ways -/

section Ways

variable (x : GraphContext) (includePaths : Bool)

/-- One more way from the last service of a path. -/
def recordWay (depth : ℕ) (path : List Id) (b : Blast) (way : List ServiceDependency) : Blast :=
  let before := path ++ way.dropLast.map (·.service)
  match way.getLast? with
  | none => b
  | some d =>
    let paths := if includePaths then b.paths ++ [downstreamPath x before d] else b.paths
    if d.service ∈ before then { b with cycleDetected := true, paths }
    else
      { visited := insert d.service b.visited
        paths
        cycleDetected := b.cycleDetected
        depthLimited := b.depthLimited || way.length = depth }

/-- The ways of the walk. -/
def GraphContext.ways (depth : ℕ) (path : List Id) (current : Id) : List (List ServiceDependency) :=
  explore x.downstreamByService (·.service) depth path current

variable {x includePaths}

theorem GraphContext.known_of_mem {d : ServiceDependency} {current : Id}
    (h : d ∈ x.downstreamByService current) : x.known d.service = true :=
  (of_decide_eq_true (List.mem_filter.mp h).2).1

/-- A way is recorded from its second step on as it is from there. -/
theorem recordWay_cons {depth : ℕ} {path : List Id} {b : Blast} {d : ServiceDependency}
    {way : List ServiceDependency} (hway : way ≠ []) :
    recordWay x includePaths (depth + 1) path b (d :: way) =
      recordWay x includePaths depth (path ++ [d.service]) b way := by
  obtain ⟨e, rest, rfl⟩ := List.exists_cons_of_ne_nil hway
  unfold recordWay
  rw [List.dropLast_cons_cons, List.getLast?_cons_cons, List.map_cons, List.append_assoc,
    List.singleton_append, List.length_cons]
  simp only [Nat.add_right_cancel_iff]

/-- **The walk records its ways one after the other.** -/
theorem visit_eq_foldl (depth : ℕ) (current : Id) (path : List Id) (b : Blast) :
    visit x includePaths depth current path b =
      (x.ways depth path current).foldl (recordWay x includePaths depth path)
        (if depth = 0 then { b with depthLimited := true } else b) := by
  induction depth generalizing current path b with
  | zero => rfl
  | succ depth ih =>
    rw [if_neg (Nat.succ_ne_zero depth)]
    unfold visit GraphContext.ways explore
    rw [List.foldl_flatMap]
    refine List.foldl_ext _ _ _ fun b d hd => ?_
    rw [if_neg (by rw [GraphContext.known_of_mem hd]; exact Bool.noConfusion), List.foldl_cons]
    dsimp only
    by_cases hseen : d.service ∈ path
    · -- the way leads back
      rw [if_pos hseen, if_pos hseen]
      simp [recordWay, hseen]
    -- one step on: the ways of the next service, each with this edge in front
    · rw [if_neg hseen, if_neg hseen, ih, List.foldl_map]
      refine Eq.trans ?_ (List.foldl_ext _ _ _ fun c way hway =>
        recordWay_cons (mem_explore.mp hway).1.ne_nil).symm
      unfold GraphContext.ways
      congr 1
      by_cases hdepth : depth = 0 <;> simp [recordWay, hseen, hdepth]

/-- The last hop of the way leads back to it. -/
def returns (path : List Id) (way : List ServiceDependency) : Bool :=
  way.getLast?.any fun d => d.service ∈ path ++ way.dropLast.map (·.service)

/-- The path that is listed for a way. -/
def wayPath (x : GraphContext) (path : List Id) (way : List ServiceDependency) : List PathNode :=
  match way.getLast? with
  | none => []
  | some d => downstreamPath x (path ++ way.dropLast.map (·.service)) d

/-- What is recorded of the ways of a list. -/
structure Recorded (x : GraphContext) (includePaths : Bool) (depth : ℕ) (path : List Id)
    (ways : List (List ServiceDependency)) (before after : Blast) : Prop where
  visited : ∀ v, v ∈ after.visited ↔ v ∈ before.visited ∨
    ∃ way ∈ ways, returns path way = false ∧ way.getLast?.map (·.service) = some v
  paths : after.paths = before.paths ++ if includePaths then ways.map (wayPath x path) else []
  cycleDetected : after.cycleDetected = (before.cycleDetected || ways.any (returns path))
  depthLimited : after.depthLimited =
    (before.depthLimited || ways.any fun way => !returns path way && way.length = depth)

/-- **One way** adds the services on it, the path to its end, and the mark of the limit. -/
theorem recorded_way {depth : ℕ} {path : List Id} {way : List ServiceDependency} (hway : way ≠ [])
    (b : Blast) : Recorded x includePaths depth path [way] b
      (recordWay x includePaths depth path b way) := by
  obtain ⟨d, hlast⟩ := Option.isSome_iff_exists.mp (List.getLast?_isSome.mpr hway)
  unfold recordWay
  rw [hlast]
  dsimp only
  by_cases hback : d.service ∈ path ++ way.dropLast.map (·.service)
  · -- the way leads back
    have hreturns : returns path way = true := by
      unfold returns
      rw [hlast]
      exact decide_eq_true hback
    rw [if_pos hback]
    constructor
    · simp [hreturns]
    · cases includePaths <;> simp [wayPath, hlast]
    · simp [hreturns]
    · simp [hreturns]
  · have hreturns : returns path way = false := by
      unfold returns
      rw [hlast]
      exact decide_eq_false hback
    rw [if_neg hback]
    constructor
    · intro v
      rw [Finset.mem_insert, or_comm]
      refine or_congr Iff.rfl ⟨?_, ?_⟩
      · rintro rfl
        exact ⟨way, List.mem_singleton_self way, hreturns, by rw [hlast]; rfl⟩
      · rintro ⟨other, hother, -, hv⟩
        obtain rfl := List.mem_singleton.mp hother
        rw [hlast] at hv
        exact (Option.some.inj hv).symm
    · cases includePaths <;> simp [wayPath, hlast]
    · simp [hreturns]
    · simp [hreturns]

/-- Ways are recorded one after the other. -/
theorem Recorded.append {depth : ℕ} {path : List Id} {ways more : List (List ServiceDependency)}
    {b c d : Blast} (h : Recorded x includePaths depth path ways b c)
    (h' : Recorded x includePaths depth path more c d) :
    Recorded x includePaths depth path (ways ++ more) b d where
  visited v := by
    rw [h'.visited, h.visited, or_assoc]
    simp only [List.mem_append, or_and_right, exists_or]
  paths := by
    rw [h'.paths, h.paths]
    cases includePaths <;> simp
  cycleDetected := by rw [h'.cycleDetected, h.cycleDetected, List.any_append, Bool.or_assoc]
  depthLimited := by rw [h'.depthLimited, h.depthLimited, List.any_append, Bool.or_assoc]

/-- By induction, so are those of a list. -/
theorem recorded_ways {depth : ℕ} {path : List Id} {ways : List (List ServiceDependency)}
    (hways : ∀ way ∈ ways, way ≠ []) (b : Blast) :
    Recorded x includePaths depth path ways b (ways.foldl (recordWay x includePaths depth path) b) := by
  induction ways generalizing b with
  | nil => constructor <;> simp
  | cons way ways ih =>
    exact (recorded_way (hways way List.mem_cons_self) b).append
      (ih (fun w hw => hways w (List.mem_cons_of_mem _ hw)) _)

end Ways

/-! ## What the radius says -/

section Exact

variable {x : GraphContext} {s : Id} {includePaths : Bool}

/-- `v` depends on `u`, and both were loaded. -/
def GraphContext.DependedOn (x : GraphContext) (u v : Id) : Prop :=
  ∃ d ∈ x.dependencies, x.known v = true ∧ x.known u = true ∧ d.dependsOnService = u ∧ d.service = v

/-- The graph that is walked is that of the dependencies. -/
theorem adjacent_eq : Adjacent x.downstreamByService (·.service) = x.DependedOn := by
  funext u v
  refine propext ⟨?_, ?_⟩
  · rintro ⟨d, hd, rfl⟩
    obtain ⟨hmem, hguard⟩ := List.mem_filter.mp hd
    obtain ⟨hservice, htarget, rfl⟩ := of_decide_eq_true hguard
    exact ⟨d, hmem, hservice, htarget, rfl, rfl⟩
  · rintro ⟨d, hmem, hservice, htarget, rfl, rfl⟩
    exact ⟨d, List.mem_filter.mpr ⟨hmem, decide_eq_true ⟨hservice, htarget, rfl⟩⟩, rfl⟩

/-- A way that is listed leads to its last service. -/
theorem endOf_eq_iff {way : List ServiceDependency} (hway : way ≠ []) {v : Id} :
    endOf (·.service) s way = v ↔ way.getLast?.map (·.service) = some v := by
  obtain ⟨d, hlast⟩ := Option.isSome_iff_exists.mp (List.getLast?_isSome.mpr hway)
  obtain ⟨before, rfl⟩ := List.getLast?_eq_some_iff.mp hlast
  rw [endOf_snoc, hlast, Option.map_some, Option.some_inj]

/-- A way of the walk is simple when it does not lead back. -/
theorem simple_iff_returns {depth : ℕ} {path : List Id} {way : List ServiceDependency}
    (h : way ∈ x.ways depth path s) :
    SimpleWay x.downstreamByService (·.service) path s way ↔ returns path way = false := by
  have hopen := (mem_explore.mp h).1
  rw [hopen.simple_iff]
  obtain ⟨d, hlast⟩ := Option.isSome_iff_exists.mp (List.getLast?_isSome.mpr hopen.ne_nil)
  have hend := (@endOf_eq_iff s way hopen.ne_nil d.service).mpr (by rw [hlast]; rfl)
  unfold returns
  rw [hend, hlast, Option.any_some, decide_eq_false_iff_not]

theorem recorded_visit (x : GraphContext) (s : Id) (includePaths : Bool) :
    Recorded x includePaths x.maxDepth [s] (x.ways x.maxDepth [s] s)
      ⟨∅, [], false, x.maxDepth = 0⟩
      (visit x includePaths x.maxDepth s [s] ⟨∅, [], false, false⟩) := by
  rw [visit_eq_foldl]
  have hways : ∀ way ∈ x.ways x.maxDepth [s] s, way ≠ [] :=
    fun way hway => (mem_explore.mp hway).1.ne_nil
  by_cases hdepth : x.maxDepth = 0
  · simpa [hdepth] using recorded_ways hways ⟨∅, [], false, true⟩
  · simpa [hdepth] using recorded_ways hways ⟨∅, [], false, false⟩

/-- **The services that are counted are those within the depth.** -/
theorem mem_visited (v : Id) :
    v ∈ (visit x includePaths x.maxDepth s [s] ⟨∅, [], false, false⟩).visited ↔
      v ≠ s ∧ Within x.DependedOn x.maxDepth s v := by
  rw [(recorded_visit x s includePaths).visited, ← adjacent_eq, ← exists_simple_iff]
  constructor
  · rintro (hnone | ⟨way, hway, hreturns, hlast⟩)
    · exact absurd hnone (Finset.notMem_empty v)
    · obtain ⟨hopen, hlength⟩ := mem_explore.mp hway
      exact ⟨way, hopen.ne_nil, hlength, (simple_iff_returns hway).mpr hreturns,
        (endOf_eq_iff hopen.ne_nil).mpr hlast⟩
  · rintro ⟨way, hne, hlength, hsimple, hend⟩
    have hway : way ∈ x.ways x.maxDepth [s] s := mem_explore.mpr ⟨hsimple.open hne, hlength⟩
    exact .inr ⟨way, hway, (simple_iff_returns hway).mp hsimple, (endOf_eq_iff hne).mp hend⟩

/-- The radius counts the services that are reached, and lists a path for each of the ways. -/
structure BlastRadius.Exact (x : GraphContext) (s : Id) (includePaths : Bool) (reached : Finset Id)
    (ways : List (List ServiceDependency)) (r : BlastRadius) : Prop where
  /-- those at a distance from one to the depth -/
  within : ∀ v, v ∈ reached ↔ v ≠ s ∧ Within x.DependedOn x.maxDepth s v
  /-- the services that depend on it themselves -/
  direct : ∀ direct : Finset Id, (∀ v, v ∈ direct ↔ x.DependedOn s v) →
    r.directDownstream = direct.card
  transitive : r.transitiveDownstream = reached.card
  affected : r.affectedDownstream = reached.card
  critical : r.criticalDownstream = (reached.filter fun id => (x.get id).any fun s =>
    s.criticality = "high" ∨ s.criticality = "critical").card
  tier1 : r.tier1Downstream = (reached.filter fun id => (x.get id).any fun s => s.tier = "tier_1").card
  /-- every way up to the depth that meets no service twice, or only with its last hop -/
  listed : ∀ way, way ∈ ways ↔
    OpenWay x.downstreamByService (·.service) [s] s way ∧ way.length ≤ x.maxDepth
  distinct : x.dependencies.Nodup → ways.Nodup
  paths : r.paths = if includePaths then ways.map (wayPath x [s]) else []
  /-- the shortest way to a service has its distance -/
  shortest : ∀ v ∈ reached, ∃ way ∈ ways, way.getLast?.map (·.service) = some v ∧
    Hops x.DependedOn way.length s v ∧ ∀ n, Hops x.DependedOn n s v → way.length ≤ n
  cycle : r.cycleDetected = ways.any (returns [s])
  limited : r.depthLimited = (decide (x.maxDepth = 0) ||
    ways.any fun way => !returns [s] way && way.length = x.maxDepth)

/-- **The blast radius of a service counts each service within the depth once**, and lists it
with every simple way to it, the shortest of which has its distance. -/
theorem blastRadius_exact (x : GraphContext) (s : Id) (includePaths : Bool) :
    ∃ reached ways, BlastRadius.Exact x s includePaths reached ways (blastRadius x s includePaths) := by
  -- the walk records exactly its ways, so its sets and flags are theirs
  have hrecorded := recorded_visit x s includePaths
  refine ⟨(visit x includePaths x.maxDepth s [s] ⟨∅, [], false, false⟩).visited,
    x.ways x.maxDepth [s] s, mem_visited, fun direct hdirect => ?_, rfl, rfl, rfl, rfl,
    fun way => mem_explore, fun hdistinct => ?_, ?_, fun v hv => ?_, ?_, hrecorded.depthLimited⟩
  · unfold blastRadius
    dsimp only
    refine congrArg Finset.card (Finset.ext fun v => ?_)
    rw [hdirect, ← adjacent_eq, List.mem_toFinset, List.mem_map]
    constructor
    · rintro ⟨d, hd, rfl⟩
      exact ⟨d, (List.mem_filter.mp hd).1, rfl⟩
    · rintro ⟨d, hd, rfl⟩
      exact ⟨d, List.mem_filter.mpr ⟨hd, GraphContext.known_of_mem hd⟩, rfl⟩
  · exact nodup_explore (fun u => hdistinct.filter _) _ _ _
  · exact hrecorded.paths.trans (List.nil_append _)
  · -- a shortest way is simple, and so it is one of the walk
    obtain ⟨hne, hwithin⟩ := (mem_visited v).mp hv
    rw [← adjacent_eq] at hwithin ⊢
    obtain ⟨way, hlength, hsimple, hend, hleast⟩ := hwithin.exists_simple
    have hway : way ≠ [] := by
      rintro rfl
      exact hne hend.symm
    exact ⟨way, mem_explore.mpr ⟨hsimple.open hway, hlength⟩, (endOf_eq_iff hway).mp hend,
      hend ▸ hsimple.hops, hleast⟩
  · exact hrecorded.cycleDetected.trans (Bool.false_or _)

end Exact

/-! ## A service is listed once for each way to it -/

/-- Each service within the depth is listed once, with its distance. -/
structure ListedOnce (x : GraphContext) (s : Id) (paths : List (List PathNode)) : Prop where
  nodup : (paths.map fun path => path.getLast?.map (·.serviceId)).Nodup
  mem : ∀ v n, (some v, n) ∈ (paths.map fun path =>
      (path.getLast?.map (·.serviceId), path.length - 1)) ↔
    v ≠ s ∧ n ≤ x.maxDepth ∧ Hops x.DependedOn n s v ∧ ∀ m, Hops x.DependedOn m s v → n ≤ m

def graphService (id : Id) (name : String) : GraphService where
  id := id
  team := 1
  slug := name
  name := name
  environment := "production"
  status := "operational"
  enabled := true
  deleted := false
  criticality := "medium"
  tier := "tier_3"

def requires (id service dependsOn : Id) : ServiceDependency where
  id := id
  service := service
  dependsOnService := dependsOn
  dependencyType := "runtime"
  criticality := "required"
  correlationEnabled := true
  propagationDelaySeconds := 0
  enabled := true
  deleted := false

/-- The frontend needs the database itself, and over billing. -/
def twoWays : GraphContext where
  services := [graphService 1 "database", graphService 2 "billing", graphService 3 "frontend"]
  dependencies := [requires 1 2 1, requires 2 3 1, requires 3 3 2]
  maxDepth := 5

/-- **The frontend is listed twice**, at distance one and over billing. -/
theorem twoWays_not_listedOnce :
    ¬∀ (x : GraphContext) (s : Id), ListedOnce x s (blastRadius x s true).paths := by
  intro h
  exact absurd (h twoWays 1).nodup (by decide +kernel)

end IncidentRelay.Services
