import IncidentRelay.Lib.Binary64
import IncidentRelay.Lib.Intervals
import IncidentRelay.Lib.Json
import IncidentRelay.Maintenance.Windows

/-!
# Service level objectives

The evaluation of an objective: the alert groups of its indicator are selected, and are
counted by their latency or added up to a downtime; the ratio of the good amount is compared
with the target. Times are in microseconds, ratios in hundredths of a percent.
-/

namespace IncidentRelay.Slo

open Json Maintenance Intervals

/-! ## Rows -/

inductive SliType where
  | alertAckLatency
  | alertResolveLatency
  | incidentAvailability
  | incidentCount
  | unsupported
  deriving DecidableEq

structure Sli where
  sliType : SliType
  service : Id
  /-- `configuration.get("priority_scope")` -/
  priorityScope : Json
  priority : Option String
  severity : Option String

/-- The service of an objective. -/
structure SloService where
  id : Id
  group : Option Id
  team : Option Id

/-- An objective; a request can set a target from 0 to 10000 only. -/
structure ServiceSlo where
  sli : Sli
  service : SloService
  targetPercentBasisPoints : Option ℤ
  thresholdSeconds : Option ℤ
  thresholdCount : Option ℤ
  windowDays : ℤ
  excludeMaintenance : Bool
  includeOpenAlerts : Bool
  target_range : ∀ target ∈ targetPercentBasisPoints, 0 ≤ target ∧ target ≤ 10000

/-- What is read of an alert group. -/
structure AlertGroup where
  id : ℕ
  service : Option Id
  prioritySlug : Option String
  severity : Option String
  firstSeenAt : Instant
  acknowledgedAt : Option Instant
  resolvedAt : Option Instant

inductive Status where
  | met
  | atRisk
  | breached
  | noData
  deriving DecidableEq

structure Evaluation where
  status : Status := .noData
  valueBasisPoints : Option ℤ := none
  valueCount : Option ℤ := none
  goodCount : ℤ := 0
  totalCount : ℤ := 0
  badCount : ℤ := 0
  pendingCount : ℤ := 0
  downtimeSeconds : Option ℤ := none
  budgetSeconds : Option ℤ := none
  budgetConsumedSeconds : Option ℤ := none
  budgetRemainingSeconds : Option ℤ := none

/-! ## The groups of an indicator -/

def priorityValues : List String := ["p1", "p2", "p3", "p4"]

def defaultImpactPriorityScope : Json := .list [.str "p1", .str "p2"]

/-- `priority_scope_for_sli` -/
def priorityScopeForSli (sli : Sli) : List String :=
  let scope : Json := match sli.priorityScope, sli.priority with
    | .null, some priority => if priority = "" then .null else .list [.str priority]
    | scope, _ => scope
  let scope : Json := match scope with
    | .null =>
      if sli.sliType = .incidentAvailability ∨ sli.sliType = .incidentCount then
        defaultImpactPriorityScope
      else .null
    | .str text => .list [.str text]
    | scope => scope
  match scope with
  | .list values => ((values.map fun value => lower (strip (pyStr (value.orElse (.str ""))))).filter
      (· ∈ priorityValues)).foldl (fun scope value => if value ∈ scope then scope else scope ++ [value]) []
  | _ => []

/-- The conditions of `_alert_query_for_sli`, without the one on the first event. -/
def matchesSli (sli : Sli) (g : AlertGroup) : Bool :=
  let scope := priorityScopeForSli sli
  g.service = some sli.service && (scope.isEmpty || g.prioritySlug.any (· ∈ scope)) &&
    (sli.severity.all fun severity => severity = "" || g.severity = some severity)

def earlier (g h : AlertGroup) : Prop := g.firstSeenAt < h.firstSeenAt ∨
  (g.firstSeenAt = h.firstSeenAt ∧ g.id ≤ h.id)

instance : DecidableRel earlier := fun g h => inferInstanceAs
  (Decidable (g.firstSeenAt < h.firstSeenAt ∨ (g.firstSeenAt = h.firstSeenAt ∧ g.id ≤ h.id)))

/-- `_alert_query_for_sli` -/
def alertQueryForSli (groups : List AlertGroup) (sli : Sli) (since : Instant) : List AlertGroup :=
  (groups.filter fun g => matchesSli sli g && since ≤ g.firstSeenAt).insertionSort earlier

/-! ## Arithmetic -/

/-- `_ratio_basis_points` -/
def ratioBasisPoints (numerator denominator : ℤ) : Option ℤ :=
  if denominator = 0 then none
  else some (roundHalfEven (binary64 (binary64 ((numerator : ℚ) / denominator) * 10000)))

/-- `_percent_status` -/
def percentStatus (valueBasisPoints targetBasisPoints : Option ℤ) (pending : ℤ) : Status :=
  match valueBasisPoints, targetBasisPoints with
  | some value, some target =>
    if target ≤ value then if pending ≠ 0 then .atRisk else .met else .breached
  | _, _ => .noData

/-- The whole seconds between two instants, at least zero. -/
def elapsedSeconds (start stop : Instant) : ℕ := (stop - start).toNat / 1000000

/-- `_intervals_seconds` -/
def intervalsSeconds (intervals : List (Instant × Instant)) : ℕ :=
  (intervals.map fun i => elapsedSeconds i.1 i.2).sum

/-- `normalize_slo_window_days` -/
def normalizeSloWindowDays (days : ℤ) : ℤ := max 1 (min (if days = 0 then 30 else days) 365)

/-! ## Latency -/

structure LatencyCounts where
  good : ℕ := 0
  bad : ℕ := 0
  pending : ℕ := 0

/-- One group in the loop of `_evaluate_latency_slo`. -/
def countLatency (threshold : ℤ) (includeOpen : Bool) (now : Instant)
    (completedAt : AlertGroup → Option Instant) (counts : LatencyCounts) (g : AlertGroup) :
    LatencyCounts :=
  match completedAt g with
  | some completed =>
    if elapsedSeconds g.firstSeenAt completed ≤ threshold then { counts with good := counts.good + 1 }
    else { counts with bad := counts.bad + 1 }
  | none =>
    if threshold < elapsedSeconds g.firstSeenAt now then { counts with bad := counts.bad + 1 }
    else if includeOpen then { counts with pending := counts.pending + 1 }
    else counts

def latencyCounts (groups : List AlertGroup) (slo : ServiceSlo) (since now : Instant)
    (field : AlertGroup → Option Instant) : LatencyCounts :=
  (alertQueryForSli groups slo.sli since).foldl
    (countLatency (slo.thresholdSeconds.getD 0) slo.includeOpenAlerts now field) {}

/-- `_evaluate_latency_slo` -/
def evaluateLatencySlo (groups : List AlertGroup) (slo : ServiceSlo) (since now : Instant)
    (field : AlertGroup → Option Instant) : Evaluation :=
  if slo.thresholdSeconds.getD 0 ≤ 0 then {}
  else
    let counts := latencyCounts groups slo since now field
    let total : ℤ := counts.good + counts.bad
    let value := ratioBasisPoints counts.good total
    { status := percentStatus value slo.targetPercentBasisPoints counts.pending
      valueBasisPoints := value
      goodCount := counts.good
      totalCount := total
      badCount := counts.bad
      pendingCount := counts.pending }

/-! ## Availability -/

/-- The interval of a group in the window, where it has one. -/
def groupInterval (since now : Instant) (g : AlertGroup) : Option (Instant × Instant) :=
  let start := max g.firstSeenAt since
  let stop := g.resolvedAt.getD now
  if stop ≤ since ∨ now ≤ start then none else some (start, min stop now)

/-- `_maintenance_intervals` -/
def maintenanceIntervals (env : Environment) (s : Store) (service : SloService) (since now : Instant) :
    List (Instant × Instant) :=
  let windows := s.listMaintenanceWindows env
    { group := service.group, team := service.team, service := some service.id }
  merge ((windows.filter fun w => w.enabled && w.status ≠ "cancelled").filterMap fun w =>
    let start := max w.startsAt since
    let stop := min w.endsAt now
    if start < stop then some (start, stop) else none)

/-- The intervals that count as downtime. -/
def downtimeIntervals (env : Environment) (s : Store) (groups : List AlertGroup) (slo : ServiceSlo)
    (since now : Instant) : List (Instant × Instant) :=
  let merged := merge ((alertQueryForSli groups slo.sli since).filterMap (groupInterval since now))
  let maintenance :=
    if slo.excludeMaintenance then maintenanceIntervals env s slo.service since now else []
  if maintenance.isEmpty then merged else subtract merged maintenance

/-- `_evaluate_availability_slo` -/
def evaluateAvailabilitySlo (env : Environment) (s : Store) (groups : List AlertGroup)
    (slo : ServiceSlo) (since now : Instant) : Evaluation :=
  let effective := downtimeIntervals env s groups slo since now
  let downtimeSeconds : ℤ := intervalsSeconds effective
  let windowSeconds : ℤ := max 1 (elapsedSeconds since now)
  let value := (ratioBasisPoints (windowSeconds - downtimeSeconds) windowSeconds).map fun value =>
    max 0 (min 10000 value)
  let budgetSeconds := slo.targetPercentBasisPoints.map fun target =>
    truncate (binary64 ((windowSeconds * max 0 (10000 - target) : ℤ) / 10000))
  { status := percentStatus value slo.targetPercentBasisPoints 0
    valueBasisPoints := value
    goodCount := windowSeconds - downtimeSeconds
    totalCount := windowSeconds
    badCount := effective.length
    downtimeSeconds := some downtimeSeconds
    budgetSeconds := budgetSeconds
    budgetConsumedSeconds := some downtimeSeconds
    budgetRemainingSeconds := budgetSeconds.map fun budget => budget - downtimeSeconds }

/-! ## Objectives -/

/-- `_evaluate_incident_count_slo` -/
def evaluateIncidentCountSlo (groups : List AlertGroup) (slo : ServiceSlo) (since : Instant) :
    Evaluation :=
  let count : ℤ := (alertQueryForSli groups slo.sli since).length
  let target := slo.thresholdCount.getD 0
  { status := if count ≤ target then .met else .breached
    valueCount := some count
    goodCount := if count ≤ target then 1 else 0
    totalCount := 1
    badCount := if count ≤ target then 0 else 1 }

/-- The start of the window of `evaluate_service_slo`. -/
def windowStart (slo : ServiceSlo) (now : Instant) : Instant :=
  now - seconds (normalizeSloWindowDays slo.windowDays * 86400)

/-- `evaluate_service_slo(slo, now=now, persist=False)` -/
def evaluateServiceSlo (env : Environment) (s : Store) (groups : List AlertGroup) (slo : ServiceSlo)
    (now : Instant) : Evaluation :=
  let since := windowStart slo now
  match slo.sli.sliType with
  | .alertAckLatency => evaluateLatencySlo groups slo since now (·.acknowledgedAt)
  | .alertResolveLatency => evaluateLatencySlo groups slo since now (·.resolvedAt)
  | .incidentAvailability => evaluateAvailabilitySlo env s groups slo since now
  | .incidentCount => evaluateIncidentCountSlo groups slo since
  | .unsupported => {}

end IncidentRelay.Slo
