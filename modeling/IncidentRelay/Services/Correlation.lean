import IncidentRelay.Lib.KeyTable
import IncidentRelay.Services.Catalog
import Mathlib.Data.List.Sort

/-!
# Correlations of alert groups

`refresh_alert_group_correlations` looks from its group up and down the dependencies,
stores a correlation for each open group that it meets, and deactivates the other
correlations of its group.
-/

namespace IncidentRelay.Services

/-! ## Dependency paths -/

inductive Direction where
  | upstream
  | downstream
  deriving DecidableEq

structure DependencyPath where
  service : Id
  dependency : Id
  direction : Direction
  depth : ℕ
  dependencyType : String
  criticality : String
  propagationDelaySeconds : Int

def maxCorrelationDepth : ℕ := 5

def minCorrelationScore : Int := 60

/-- The service at the other end of a dependency. -/
def Direction.target : Direction → ServiceDependency → Id
  | .upstream, d => d.dependsOnService
  | .downstream, d => d.service

def Direction.source : Direction → ServiceDependency → Id
  | .upstream, d => d.service
  | .downstream, d => d.dependsOnService

section Catalog

variable (c : Catalog)

/-- `_enabled_dependencies_for_service(service_id)` and
`_enabled_dependents_for_service(service_id)`. -/
def enabledDependencies (direction : Direction) (serviceId : Id) : List ServiceDependency :=
  c.dependencies.filter fun d =>
    direction.source d = serviceId ∧ d.enabled = true ∧ d.deleted = false ∧
      d.correlationEnabled = true

/-- `DependencyPath(…)`; a delay of zero is the default. -/
def pathOf (direction : Direction) (depth : ℕ) (d : ServiceDependency) : DependencyPath where
  service := direction.target d
  dependency := d.id
  direction := direction
  depth := depth
  dependencyType := d.dependencyType
  criticality := d.criticality
  propagationDelaySeconds :=
    if d.propagationDelaySeconds = 0 then 300 else d.propagationDelaySeconds

/-- `visited` and `paths` of a walk. -/
structure Walked where
  visited : List Id
  paths : List DependencyPath

/-- `walk(current_service_id, depth)`, with the number of levels that are left. -/
def walk (direction : Direction) : ℕ → Id → ℕ → Walked → Walked
  | 0, _, _, w => w
  | left + 1, current, depth, w =>
    (enabledDependencies c direction current).foldl (fun w d =>
      if direction.target d ∈ w.visited then w
      else walk direction left (direction.target d) (depth + 1)
        { visited := direction.target d :: w.visited
          paths := w.paths ++ [pathOf direction depth d] }) w

/-- `_collect_dependency_paths(service_id, direction=direction)`. -/
def collectDependencyPaths (serviceId : Id) (direction : Direction) : List DependencyPath :=
  (walk c direction maxCorrelationDepth serviceId 1 ⟨[], []⟩).paths

/-- A path to a service is replaced by a shorter one. -/
def keepShorter (paths : List DependencyPath) (path : DependencyPath) : List DependencyPath :=
  match paths.find? fun p => p.service = path.service with
  | none => paths ++ [path]
  | some current =>
    if path.depth < current.depth then
      paths.map fun p => if p.service = path.service then path else p
    else paths

/-- `paths_by_service_id`. -/
def pathsByServiceId (serviceId : Id) : List DependencyPath :=
  (collectDependencyPaths c serviceId .upstream ++
    collectDependencyPaths c serviceId .downstream).foldl keepShorter []

/-- `_active_groups_for_services(service_ids, current_group)`. -/
def activeGroupsForServices (serviceIds : List Id) (current : AlertGroup) : List AlertGroup :=
  ((c.groups.filter fun g =>
      g.service.any (· ∈ serviceIds) = true ∧ g.isOpen = true ∧ g.id ≠ current.id ∧
        (current.team = none ∨ g.team = current.team)).insertionSort
    fun a b => b.id ≤ a.id).take 100

/-! ## The score -/

/-- `SEVERITY_RANK.get(str(severity or "").lower(), 0)`. No other letter folds to a letter
of these names. -/
def severityRank (g : AlertGroup) : Int :=
  match (g.severity.getD "").toLower with
  | "info" => 10
  | "low" => 20
  | "warning" => 30
  | "medium" => 40
  | "high" => 50
  | "critical" => 60
  | _ => 0

/-- `_same_environment(left_service, right_service)`. -/
def sameEnvironment (left right : Option Service) : Option Bool :=
  match left, right with
  | some l, some r =>
    if l.environment = "" ∨ r.environment = "" then none else some (l.environment = r.environment)
  | _, _ => none

/-- `_dependency_score(current_group, related_group, path)`. -/
def dependencyScore (current related : AlertGroup) (path : DependencyPath) : Int :=
  let direction := match path.direction with
    | .upstream => 20
    | .downstream => 10
  let depth := if path.depth = 1 then 15 else if path.depth = 2 then 8
    else max 0 (6 - (path.depth : Int))
  let type := if path.dependencyType = "hard" then 10 else 0
  let criticality := if path.criticality = "critical" ∨ path.criticality = "important" then 10
    else if path.criticality = "optional" then -10 else 0
  let environment := match sameEnvironment (c.service current.service) (c.service related.service) with
    | some true => 10
    | some false => -20
    | none => 0
  let delta : Int := (current.lastSeenAt - related.lastSeenAt).natAbs
  let allowedDelay := max path.propagationDelaySeconds 300
  let delay := if delta ≤ seconds allowedDelay then 15
    else if delta ≤ seconds (allowedDelay * 2) then 5 else -20
  let severity := match path.direction with
    | .upstream => if severityRank current ≤ severityRank related then 5 else 0
    | .downstream => if severityRank related ≤ severityRank current then 5 else 0
  max 0 (min (50 + direction + depth + type + criticality + environment + delay + severity) 100)

end Catalog

/-! ## The records -/

inductive RelationType where
  | possibleRootCause
  | possibleDownstreamImpact
  deriving DecidableEq

def RelationType.text : RelationType → String
  | .possibleRootCause => "possible_root_cause"
  | .possibleDownstreamImpact => "possible_downstream_impact"

/-- `_relation_type_for_direction(direction)`. -/
def Direction.relationType : Direction → RelationType
  | .upstream => .possibleRootCause
  | .downstream => .possibleDownstreamImpact

/-- The columns of the unique index. -/
structure PairKey where
  rootGroup : ℕ
  relatedGroup : ℕ
  relationType : RelationType
  deriving DecidableEq

/-- The columns that an update overwrites. -/
structure CorrelationData where
  team : Option Id
  rootService : Option Id
  relatedService : Option Id
  dependency : Id
  direction : Direction
  score : Int
  depth : ℕ
  dependencyType : String
  criticality : String
  reason : String
  lastSeenAt : Instant
  updatedAt : Instant

structure Correlation where
  id : ℕ
  key : PairKey
  data : CorrelationData
  active : Bool
  firstSeenAt : Instant

abbrev Correlations := KeyTable Correlation.id Correlation.key

structure AlertEvent where
  group : ℕ
  eventType : String
  message : String

/-- What a refresh writes to. -/
structure Records where
  correlations : Correlations
  events : List AlertEvent

section Refresh

variable (c : Catalog)

/-- `_correlation_group_event_label(group)`. -/
def groupEventLabel (id : ℕ) : String :=
  match c.group id with
  | none => "#" ++ toString id
  | some g =>
    let name := match c.service g.service with
      | none => "-"
      | some s => if s.name ≠ "" then s.name else if s.slug ≠ "" then s.slug else "-"
    "#" ++ toString id ++ " " ++ name ++ ": " ++ g.title

/-- `_record_correlation_events(…)`: one event in the timeline of each group. -/
def recordEvents (r : Correlation) (eventType action : String) (events : List AlertEvent) :
    List AlertEvent :=
  let message := "Correlation " ++ action ++ ": " ++ groupEventLabel c r.key.rootGroup ++ " -> " ++
    groupEventLabel c r.key.relatedGroup ++ " (" ++ r.key.relationType.text ++ ", score=" ++
    toString r.data.score ++ ")"
  events ++ [r.key.rootGroup, r.key.relatedGroup].eraseDups.map fun g => ⟨g, eventType, message⟩

/-- `_reason_for(path, related_group)`. -/
def reasonFor (path : DependencyPath) (related : AlertGroup) : String :=
  let name := match c.service related.service with
    | none => "-"
    | some s => if s.name ≠ "" then s.name else if s.slug ≠ "" then s.slug
      else "Service #" ++ toString (s.id : ℕ)
  let head := match path.direction with
    | .upstream => "Current service depends on " ++ name
    | .downstream => name ++ " depends on current service"
  head ++ "; dependency_type=" ++ path.dependencyType ++ "; criticality=" ++ path.criticality ++
    "; depth=" ++ toString path.depth

/-- `_root_and_related_groups(current_group, related_group, path)`. -/
def rootAndRelatedGroups (current related : AlertGroup) (path : DependencyPath) :
    AlertGroup × AlertGroup :=
  match path.direction with
  | .upstream => (related, current)
  | .downstream => (current, related)

def pairKey (current related : AlertGroup) (path : DependencyPath) : PairKey where
  rootGroup := (rootAndRelatedGroups current related path).1.id
  relatedGroup := (rootAndRelatedGroups current related path).2.id
  relationType := path.direction.relationType

/-- `create_defaults`, without the context of the row, which repeats its columns. -/
def createDefaults (now : Instant) (current related : AlertGroup) (path : DependencyPath) :
    CorrelationData where
  team := current.team
  rootService := (rootAndRelatedGroups current related path).1.service
  relatedService := (rootAndRelatedGroups current related path).2.service
  dependency := path.dependency
  direction := path.direction
  score := dependencyScore c current related path
  depth := path.depth
  dependencyType := path.dependencyType
  criticality := path.criticality
  reason := reasonFor c path related
  lastSeenAt := now
  updatedAt := now

/-- `_upsert_correlation(current_group, related_group, path, now)`. -/
def upsertCorrelation (now : Instant) (current related : AlertGroup) (path : DependencyPath)
    (w : Records) : Records × Option Correlation :=
  if dependencyScore c current related path < minCorrelationScore then (w, none)
  else
    let key := pairKey current related path
    let data := createDefaults c now current related path
    match hfound : w.correlations.get key with
    | none =>
      let row : Correlation := ⟨w.correlations.table.next, key, data, true, now⟩
      ({ correlations := w.correlations.create row rfl fun r hr => by
           simpa using List.find?_eq_none.mp hfound r hr
         events := recordEvents c row "correlation_detected" "detected" w.events },
        some row)
    | some found =>
      let row : Correlation := { found with data := data, active := true }
      ({ correlations := w.correlations.update (fun r => r.id = found.id)
           ⟨fun r => { r with data := data, active := true }, fun _ => rfl, fun _ => rfl⟩
         events := if found.active then w.events
           else recordEvents c row "correlation_detected" "detected" w.events },
        some row)

/-- The correlation is one of the group. -/
def Correlation.isOf (r : Correlation) (groupId : ℕ) : Bool :=
  r.key.rootGroup = groupId ∨ r.key.relatedGroup = groupId

/-- `_deactivate_stale_correlations(group, now, keep_ids=keep_ids)`. -/
def deactivateStaleCorrelations (now : Instant) (group : AlertGroup) (keepIds : List ℕ)
    (w : Records) : Records :=
  let stale := fun r : Correlation =>
    decide (r.isOf group.id = true ∧ r.active = true ∧ r.id ∉ keepIds)
  match w.correlations.rows.filter stale with
  | [] => w
  | rows =>
    { correlations := w.correlations.update (fun r => r.id ∈ rows.map (·.id))
        ⟨fun r => { r with
          active := false, data := { r.data with lastSeenAt := now, updatedAt := now } },
          fun _ => rfl, fun _ => rfl⟩
      events := rows.foldl
        (fun events r => recordEvents c r "correlation_deactivated" "deactivated" events) w.events }

/-- The groups that a group of the service is compared with, and the paths to them. -/
def candidates (group : AlertGroup) (serviceId : Id) : List (AlertGroup × DependencyPath) :=
  let paths := pathsByServiceId c serviceId
  (activeGroupsForServices c (paths.map (·.service)) group).filterMap fun related =>
    (paths.find? fun p => related.service = some p.service).map fun p => (related, p)

/-- The loop over `related_groups`, with `active_correlation_ids`. -/
def upsertAll (now : Instant) (group : AlertGroup) (related : List (AlertGroup × DependencyPath))
    (w : Records) : Records × List ℕ :=
  related.foldl (fun state x =>
    let (w, correlation) := upsertCorrelation c now group x.1 x.2 state.1
    (w, state.2 ++ (correlation.map (·.id)).toList)) (w, [])

/-- `refresh_alert_group_correlations(group)`. -/
def refreshAlertGroupCorrelations (now : Instant) (group : AlertGroup) (w : Records) : Records :=
  match group.isOpen, group.service with
  | true, some serviceId =>
    let (w, ids) := upsertAll c now group (candidates c group serviceId) w
    deactivateStaleCorrelations c now group ids w
  | _, _ => deactivateStaleCorrelations c now group [] w

end Refresh

end IncidentRelay.Services
