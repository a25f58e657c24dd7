import IncidentRelay.Lib.PyText
import IncidentRelay.Services.Reach
import Mathlib.Data.List.Sort

/-!
# The impact on a technical service

`_compute_service_impact` follows the dependencies of a service upstream, along simple paths
of at most as many services as its depth, and lets the scores of what it meets through.
It does not look at a service that the start does not depend on within the depth
(`computeServiceImpact_congr`). The products of scores and weights are floating-point and
are left open (`Scoring`); causes, paths and texts are left out.
-/

namespace IncidentRelay.Services

open Json

/-! ## Statuses and scores -/

inductive ServiceStatus where
  | operational
  | unknown
  | maintenance
  | degraded
  | partialOutage
  | majorOutage
  | disabled
  deriving DecidableEq

/-- `normalize_status(status)`. -/
def normalizeStatus (status : String) : ServiceStatus :=
  match lower (strip status) with
  | "operational" => .operational
  | "maintenance" => .maintenance
  | "degraded" => .degraded
  | "partial_outage" => .partialOutage
  | "major_outage" => .majorOutage
  | "disabled" => .disabled
  | _ => .unknown

def ServiceStatus.text : ServiceStatus → String
  | .operational => "operational"
  | .unknown => "unknown"
  | .maintenance => "maintenance"
  | .degraded => "degraded"
  | .partialOutage => "partial_outage"
  | .majorOutage => "major_outage"
  | .disabled => "disabled"

/-- `STATUS_RANK`. -/
def ServiceStatus.rank : ServiceStatus → Int
  | .disabled => -1
  | .operational | .unknown => 0
  | .maintenance => 1
  | .degraded => 2
  | .partialOutage => 3
  | .majorOutage => 4

/-- `STATUS_IMPACT_SCORE`. -/
def ServiceStatus.impactScore : ServiceStatus → ℕ
  | .disabled | .operational => 0
  | .maintenance | .unknown => 20
  | .degraded => 40
  | .partialOutage => 65
  | .majorOutage => 100

/-- `_is_impactful_status(status)`. -/
def ServiceStatus.isImpactful : ServiceStatus → Bool
  | .degraded | .partialOutage | .majorOutage | .unknown => true
  | _ => false

/-- `clamp_impact_score(score)` of a whole number. -/
def clampImpactScore (score : ℕ) : ℕ := min score 100

/-- `status_from_impact_score(score, unknown=unknown)`. -/
def statusFromImpactScore (score : ℕ) (unknown : Bool) : ServiceStatus :=
  if unknown = true ∧ clampImpactScore score < 25 then .unknown
  else if 80 ≤ clampImpactScore score then .majorOutage
  else if 55 ≤ clampImpactScore score then .partialOutage
  else if 25 ≤ clampImpactScore score then .degraded
  else .operational

/-- `max_status(left, right)`. -/
def maxStatus (left right : ServiceStatus) : ServiceStatus :=
  if left.rank < right.rank then right else left

/-! ## Open groups -/

/-- `SEVERITY_IMPACT_SCORE.get(normalize_severity(severity), 0)`. -/
def severityImpactScore (severity : Option String) : ℕ :=
  match lower (strip (severity.getD "")) with
  | "info" | "informational" => 5
  | "low" | "minor" => 15
  | "warning" | "warn" => 40
  | "medium" => 35
  | "error" | "high" => 65
  | "critical" | "page" => 80
  | "fatal" => 100
  | _ => 0

/-- `priority_slug_for_alert_group(group)`. -/
def GroupPriority.slugText (p : GroupPriority) : Option String :=
  match p.priority with
  | some (_, slug) => if slug ≠ "" then some (lower (strip slug))
    else if p.slug ≠ "" then some (lower (strip p.slug)) else none
  | none => if p.slug ≠ "" then some (lower (strip p.slug)) else none

/-- `alert_group_has_explicit_priority(group)`. -/
def GroupPriority.isExplicit (p : GroupPriority) : Bool :=
  p.priority.isSome || p.setManually || p.slugText.any (fun slug => slug ≠ "" && slug ≠ "p3") ||
    p.order ≠ 3

/-- `priority_impact_score(group)`. -/
def GroupPriority.impactScore (p : GroupPriority) : Option ℕ :=
  match p.slugText with
  | some "p0" | some "p1" => some 100
  | some "p2" => some 75
  | some "p3" => some 45
  | some "p4" => some 20
  | some "p5" => some 5
  | _ => match p.order with
    | 0 | 1 => some 100
    | 2 => some 75
    | 3 => some 45
    | 4 => some 20
    | 5 => some 5
    | _ => none

/-- `alert_group_impact_score(group)`. -/
def alertGroupImpactScore (g : AlertGroup) : ℕ :=
  clampImpactScore (if g.priority.isExplicit
    then g.priority.impactScore.getD (severityImpactScore g.severity)
    else severityImpactScore g.severity)

structure AlertImpactStats where
  openAlertGroups : ℕ
  criticalOpenAlertGroups : ℕ
  impactScore : ℕ

/-- The groups of a service that count. -/
def openGroupsOf (groups : List AlertGroup) (serviceId : Id) : List AlertGroup :=
  groups.filter fun g => g.service = some serviceId ∧ g.isOpen = true ∧ g.mergedInto = none

/-- `_load_alert_stats(service_ids)[service_id]`. -/
def alertStats (groups : List AlertGroup) (serviceId : Id) : AlertImpactStats :=
  (openGroupsOf groups serviceId).foldl (fun stats g =>
    { openAlertGroups := stats.openAlertGroups + 1
      criticalOpenAlertGroups := stats.criticalOpenAlertGroups +
        if 80 ≤ alertGroupImpactScore g then 1 else 0
      impactScore := max stats.impactScore (alertGroupImpactScore g) }) ⟨0, 0, 0⟩

/-! ## The computation -/

/-- The floating-point products. -/
structure Scoring where
  /-- `clamp_impact_score(upstream_score * multiplier)`, by type and criticality -/
  propagated : String → String → ℕ → ℕ
  /-- `clamp_impact_score(base_score * multiplier * weight / 100)`, by criticality and weight -/
  weighted : String → ℕ → ℕ → ℕ
  /-- `combined_impact_score(scores)` -/
  combined : List ℕ → ℕ

inductive PrimaryReason where
  | none
  | ownStatus
  | alertGroup
  | upstreamDependency
  | maintenance
  | disabled
  | unknown
  deriving DecidableEq

structure ImpactComputation where
  ownStatus : ServiceStatus
  alertImpactStatus : ServiceStatus
  dependencyImpactStatus : ServiceStatus
  effectiveStatus : ServiceStatus
  ownImpactScore : ℕ
  alertImpactScore : ℕ
  dependencyImpactScore : ℕ
  effectiveImpactScore : ℕ
  primaryReason : PrimaryReason
  openAlertGroups : ℕ
  criticalOpenAlertGroups : ℕ
  upstreamIssuesCount : ℕ
  cycleDetected : Bool
  depthLimited : Bool

/-- `context`, without its cache. -/
structure ImpactContext where
  services : List Service
  groups : List AlertGroup
  /-- the dependencies between the services, in the order of the query -/
  upstream : List ServiceDependency

def ImpactContext.get (x : ImpactContext) (id : Id) : Option Service :=
  x.services.find? fun s => s.id = id

/-- `_own_status(service)`. -/
def ownStatus (s : Service) : ServiceStatus :=
  if s.enabled = false then .disabled
  else if normalizeStatus s.status = .disabled then .unknown else normalizeStatus s.status

/-- `_alert_impact_status(stats)`. -/
def alertImpactStatus (stats : AlertImpactStats) : ServiceStatus :=
  if clampImpactScore stats.impactScore = 0 then .operational
  else statusFromImpactScore stats.impactScore false

/-- `_primary_base_reason(…)` of an enabled service, and the end of
`_primary_reason_from_scores(computation)`. -/
def primaryBaseReason (own : ServiceStatus) (ownScore : ℕ) (alert : ServiceStatus)
    (alertScore : ℕ) : PrimaryReason :=
  if own = .maintenance ∧ clampImpactScore alertScore ≤ clampImpactScore ownScore then .maintenance
  else if own.isImpactful = true ∧ clampImpactScore alertScore ≤ clampImpactScore ownScore then
    .ownStatus
  else if 0 < clampImpactScore alertScore ∨ alert.isImpactful = true then .alertGroup
  else if own = .unknown ∧ 0 < clampImpactScore ownScore then .ownStatus
  else .none

/-- `_primary_reason_from_scores(computation)`. -/
def primaryReasonFromScores (i : ImpactComputation) : PrimaryReason :=
  let dependency := clampImpactScore i.dependencyImpactScore
  if 0 < dependency ∧ clampImpactScore i.ownImpactScore ≤ dependency ∧
      clampImpactScore i.alertImpactScore ≤ dependency then .upstreamDependency
  else primaryBaseReason i.ownStatus i.ownImpactScore i.alertImpactStatus i.alertImpactScore

/-- `_status_for_reason(reason, …)`. -/
def statusForReason (reason : PrimaryReason) (own alert dependency : ServiceStatus) (score : ℕ) :
    ServiceStatus :=
  match reason with
  | .disabled => .disabled
  | .maintenance => .maintenance
  | .ownStatus => if own.isImpactful then own else statusFromImpactScore score false
  | .upstreamDependency =>
    if dependency.isImpactful then dependency else statusFromImpactScore score false
  | .alertGroup =>
    if alert.isImpactful = true ∧ alert ≠ .unknown then alert
    else statusFromImpactScore score false
  | .none | .unknown => .operational

/-- What is not known of a service. -/
def unknownImpact (cycleDetected : Bool) : ImpactComputation where
  ownStatus := .unknown
  alertImpactStatus := .operational
  dependencyImpactStatus := .operational
  effectiveStatus := .unknown
  ownImpactScore := ServiceStatus.unknown.impactScore
  alertImpactScore := 0
  dependencyImpactScore := 0
  effectiveImpactScore := ServiceStatus.unknown.impactScore
  primaryReason := .unknown
  openAlertGroups := 0
  criticalOpenAlertGroups := 0
  upstreamIssuesCount := 0
  cycleDetected := cycleDetected
  depthLimited := false

def disabledImpact : ImpactComputation where
  ownStatus := .disabled
  alertImpactStatus := .operational
  dependencyImpactStatus := .operational
  effectiveStatus := .disabled
  ownImpactScore := 0
  alertImpactScore := 0
  dependencyImpactScore := 0
  effectiveImpactScore := 0
  primaryReason := .disabled
  openAlertGroups := 0
  criticalOpenAlertGroups := 0
  upstreamIssuesCount := 0
  cycleDetected := false
  depthLimited := false

/-- The result before the dependencies. -/
def baseImpact (groups : List AlertGroup) (s : Service) : ImpactComputation :=
  let stats := alertStats groups s.id
  let own := ownStatus s
  let ownScore := own.impactScore
  let alert := alertImpactStatus stats
  let alertScore := clampImpactScore stats.impactScore
  let reason := primaryBaseReason own ownScore alert alertScore
  { ownStatus := own
    alertImpactStatus := alert
    dependencyImpactStatus := .operational
    effectiveStatus := statusForReason reason own alert .operational (max ownScore alertScore)
    ownImpactScore := ownScore
    alertImpactScore := alertScore
    dependencyImpactScore := 0
    effectiveImpactScore := max ownScore alertScore
    primaryReason := reason
    openAlertGroups := stats.openAlertGroups
    criticalOpenAlertGroups := stats.criticalOpenAlertGroups
    upstreamIssuesCount := 0
    cycleDetected := false
    depthLimited := false }

/-- A column that is empty has its default. -/
def orDefault (text default : String) : String := if text = "" then default else text

def ServiceDependency.typeText (d : ServiceDependency) : String :=
  lower (strip (orDefault d.dependencyType "hard"))

def ServiceDependency.criticalityText (d : ServiceDependency) : String :=
  lower (strip (orDefault d.criticality "important"))

/-- `dependency_impact_multiplier(dependency) > 0`. -/
def ServiceDependency.lets (d : ServiceDependency) : Bool :=
  d.criticalityText ≠ "informational" ∧
    (d.typeText = "hard" ∨ d.typeText = "soft" ∨ d.typeText = "external")

/-- `propagate_dependency_impact(dependency, upstream_status, upstream_score)`. -/
def propagateDependencyImpact (scoring : Scoring) (d : ServiceDependency) (status : ServiceStatus)
    (score : ℕ) : ServiceStatus × ℕ :=
  match status with
  | .operational | .maintenance | .disabled => (.operational, 0)
  | _ =>
    if d.lets = false then (.operational, 0)
    else
      let upstream := max status.impactScore (clampImpactScore score)
      let score := scoring.propagated d.typeText d.criticalityText upstream
      (statusFromImpactScore score (status = .unknown), score)

/-- What the loop over the dependencies has gathered. -/
structure Gathered where
  status : ServiceStatus
  score : ℕ
  issues : ℕ
  cycleDetected : Bool
  depthLimited : Bool

/-- The body of the loop, for a dependency that closes no cycle. -/
def Gathered.add (scoring : Scoring) (acc : Gathered) (d : ServiceDependency)
    (upstream : ImpactComputation) : Gathered :=
  let (status, score) :=
    propagateDependencyImpact scoring d upstream.effectiveStatus upstream.effectiveImpactScore
  let acc :=
    if status.isImpactful = true ∨ 0 < score then
      { acc with
        issues := acc.issues + 1
        status := if acc.score < score then status
          else if score = acc.score then maxStatus acc.status status else acc.status
        score := max acc.score score }
    else acc
  { acc with
    cycleDetected := acc.cycleDetected || upstream.cycleDetected
    depthLimited := acc.depthLimited || upstream.depthLimited }

/-- The body of the loop, with the computation of an upstream service. -/
def visitDependency (scoring : Scoring) (path : List Id) (compute : Id → ImpactComputation)
    (acc : Gathered) (d : ServiceDependency) : Gathered :=
  if d.dependsOnService ∈ path then { acc with cycleDetected := true }
  else acc.add scoring d (compute d.dependsOnService)

def Gathered.start : Gathered := ⟨.operational, 0, 0, false, false⟩

/-- The result behind the loop. -/
def ImpactComputation.gather (base : ImpactComputation) (acc : Gathered) : ImpactComputation :=
  let i := { base with
    dependencyImpactStatus := acc.status
    dependencyImpactScore := clampImpactScore acc.score
    effectiveImpactScore :=
      max base.ownImpactScore (max base.alertImpactScore (clampImpactScore acc.score))
    upstreamIssuesCount := acc.issues
    cycleDetected := base.cycleDetected || acc.cycleDetected
    depthLimited := base.depthLimited || acc.depthLimited }
  let reason := primaryReasonFromScores i
  { i with
    primaryReason := reason
    effectiveStatus := statusForReason reason i.ownStatus i.alertImpactStatus
      i.dependencyImpactStatus i.effectiveImpactScore }

/-- `upstream_by_service.get(service_id, [])`. -/
def ImpactContext.upstreamOf (x : ImpactContext) (serviceId : Id) : List ServiceDependency :=
  x.upstream.filter fun d => d.service = serviceId

/-- `_compute_service_impact(service_id, context, path=path, depth=depth)`. -/
def computeServiceImpact (scoring : Scoring) (x : ImpactContext) :
    ℕ → Id → List Id → ImpactComputation
  | 0, id, path =>
    if id ∈ path then unknownImpact true
    else match x.get id with
      | none => unknownImpact false
      | some s =>
        if s.enabled = false then disabledImpact
        else { baseImpact x.groups s with depthLimited := true }
  | depth + 1, id, path =>
    if id ∈ path then unknownImpact true
    else match x.get id with
      | none => unknownImpact false
      | some s =>
        if s.enabled = false then disabledImpact
        else (baseImpact x.groups s).gather ((x.upstreamOf id).foldl
          (visitDependency scoring path fun upstreamId =>
            computeServiceImpact scoring x depth upstreamId (path ++ [id])) .start)

/-! ## What it looks at -/

/-- Two contexts that differ at most in one service and its groups. -/
structure SameBut (id : Id) (x y : ImpactContext) : Prop where
  get : ∀ other ≠ id, x.get other = y.get other
  groups : ∀ other ≠ id, openGroupsOf x.groups other = openGroupsOf y.groups other
  upstream : x.upstream = y.upstream

/-- The impact of a service depends on its open groups. -/
theorem baseImpact_congr {groups groups' : List AlertGroup} {s : Service}
    (h : openGroupsOf groups s.id = openGroupsOf groups' s.id) :
    baseImpact groups s = baseImpact groups' s := by
  have hstats : alertStats groups s.id = alertStats groups' s.id := by
    unfold alertStats
    rw [h]
  unfold baseImpact
  rw [hstats]

theorem ImpactContext.get_id {x : ImpactContext} {id : Id} {s : Service} (h : x.get id = some s) :
    s.id = id := by
  simpa using List.find?_some h

/-- **A computation does not look at a service that its start does not depend on** within
the depth. -/
theorem computeServiceImpact_congr {c : Catalog} {scoring : Scoring} {x y : ImpactContext} {z : Id}
    (hsame : SameBut z x y) (hedges : ∀ d ∈ x.upstream, DependedOn c d.dependsOnService d.service)
    (depth : ℕ) : ∀ (id : Id) (path : List Id), ¬Within (DependedOn c) depth z id →
      computeServiceImpact scoring x depth id path = computeServiceImpact scoring y depth id path := by
  have hother : ∀ {depth : ℕ} {id : Id}, ¬Within (DependedOn c) depth z id → id ≠ z := by
    rintro depth id hfar rfl
    exact hfar (Within.refl depth id)
  have hbase : ∀ {id : Id} {s : Service}, id ≠ z → y.get id = some s →
      baseImpact x.groups s = baseImpact y.groups s := by
    intro id s hne hs
    refine baseImpact_congr (hsame.groups s.id ?_)
    rwa [ImpactContext.get_id hs]
  induction depth with
  | zero =>
    intro id path hfar
    have hne := hother hfar
    unfold computeServiceImpact
    rw [hsame.get id hne]
    cases hs : y.get id with
    | none => rfl
    | some s =>
      dsimp only
      rw [hbase hne hs]
  | succ depth ih =>
    intro id path hfar
    have hne := hother hfar
    unfold computeServiceImpact
    rw [hsame.get id hne]
    cases hs : y.get id with
    | none => rfl
    | some s =>
      dsimp only
      rw [hbase hne hs]
      have hupstream : x.upstreamOf id = y.upstreamOf id := by
        unfold ImpactContext.upstreamOf
        rw [hsame.upstream]
      -- every service one dependency up is as far away from the other one
      have hloop : (x.upstreamOf id).foldl (visitDependency scoring path fun upstreamId =>
            computeServiceImpact scoring x depth upstreamId (path ++ [id])) .start =
          (x.upstreamOf id).foldl (visitDependency scoring path fun upstreamId =>
            computeServiceImpact scoring y depth upstreamId (path ++ [id])) .start := by
        refine List.foldl_ext _ _ _ ?_
        intro acc d hd
        obtain ⟨hmem, hservice⟩ := List.mem_filter.mp hd
        have hedge : DependedOn c d.dependsOnService id := by
          have := hedges d hmem
          rwa [of_decide_eq_true hservice] at this
        unfold visitDependency
        dsimp only
        rw [ih d.dependsOnService (path ++ [id]) fun hnear => hfar (hnear.snoc hedge)]
      rw [hloop, hupstream]

end IncidentRelay.Services
