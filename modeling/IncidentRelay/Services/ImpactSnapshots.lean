import IncidentRelay.Lib.Json
import IncidentRelay.Tenant
import Mathlib.Data.List.MinMax
import Mathlib.Data.List.Sort
import Mathlib.Data.Multiset.Count
import Mathlib.Data.Prod.Lex

/-!
# Impact snapshots

`impact_snapshots.py`: what a capture stores of the impact on all services of its scope, and
what the list and the history show of it to somebody who may read some teams. Snapshots are
selected by the items that may be read, but their counters and summaries are about all items:
what is shown is a function of what may be read exactly where these agree (`isolated_iff`).

A `Counter` is a multiset. Times are seconds since the epoch. Ratios are rounded
floating-point numbers and are left open (`Floating`). Of an item the model has what the two
functions and the summaries read.
-/

namespace IncidentRelay.Services

/-! ## Items and summaries -/

/-- An item of `build_service_impact_v2`. -/
structure ImpactItem where
  serviceId : Id
  serviceSlug : String
  serviceName : String
  teamId : Option Id
  teamSlug : Option String
  teamName : Option String
  effectiveStatus : String
  effectiveImpactScore : ℕ
  primaryReason : String
  openAlertGroups : ℕ
  criticalOpenAlertGroups : ℕ
  upstreamIssuesCount : ℕ
  /-- `blast_radius.transitive_downstream` -/
  blastRadiusTotal : ℕ
  cycleDetected : Bool
  depthLimited : Bool
  deriving DecidableEq

/-- The arithmetic of floating-point numbers that is used. -/
structure Floating (Num : Type) where
  /-- `round(a / b, digits)` -/
  ratio : ℕ → ℕ → ℕ → Num
  /-- `round((a / b) * 100, 2)` -/
  percent : ℕ → ℕ → Num
  zero : Num

/-- `int(round(total / count))`: half goes to the even number. -/
def wholeMean (total count : ℕ) : ℕ :=
  let below := total / count
  let twice := 2 * (total % count)
  if twice < count then below
  else if count < twice then below + 1
  else if below % 2 = 0 then below else below + 1

/-- The summary of a payload. -/
structure ImpactSummary where
  total : ℕ
  affected : ℕ
  critical : ℕ
  byEffectiveStatus : Multiset String
  /-- `max_impact_score` and `average_impact_score`, which an empty scope does not have -/
  scores : Option (ℕ × ℕ)
  cycleDetected : ℕ
  depthLimited : ℕ
  deriving DecidableEq

/-- What `build_service_impact_v2` returns; an empty scope has no items. -/
structure ImpactPayload where
  inScope : Bool
  items : List ImpactItem
  inScope_of_items : items ≠ [] → inScope = true

/-- `_summary(items)`, and the summary of `_empty_payload`. -/
def ImpactPayload.summary (payload : ImpactPayload) : ImpactSummary where
  total := payload.items.length
  affected := payload.items.countP fun item =>
    item.effectiveStatus ≠ "operational" ∧ item.effectiveStatus ≠ "disabled"
  critical := payload.items.countP fun item => item.effectiveStatus = "major_outage"
  byEffectiveStatus := payload.items.map (·.effectiveStatus)
  scores :=
    let scores := payload.items.map (·.effectiveImpactScore)
    if payload.inScope then some (scores.foldl max 0, wholeMean scores.sum scores.length) else none
  cycleDetected := payload.items.countP (·.cycleDetected)
  depthLimited := payload.items.countP (·.depthLimited)

def impactfulStatuses : List String :=
  ["degraded", "partial_outage", "major_outage", "maintenance", "unknown"]

/-- `_is_affected(status)`. -/
def isAffected (status : String) : Bool := status ∈ impactfulStatuses

/-- `text or "unknown"`. -/
def orUnknown (text : String) : String := if text = "" then "unknown" else text

/-- The counters of a snapshot, which are columns of their own and part of its summary. -/
structure SnapshotCounters where
  services : ℕ
  affectedServices : ℕ
  criticalServices : ℕ
  majorOutageServices : ℕ
  partialOutageServices : ℕ
  degradedServices : ℕ
  maintenanceServices : ℕ
  unknownServices : ℕ
  alertGroupImpactedServices : ℕ
  dependencyImpactedServices : ℕ
  ownStatusImpactedServices : ℕ
  openAlertGroupsTotal : ℕ
  criticalOpenAlertGroupsTotal : ℕ
  upstreamIssuesTotal : ℕ
  cycleDetectedCount : ℕ
  depthLimitedCount : ℕ
  deriving DecidableEq

structure SnapshotSummary where
  counters : SnapshotCounters
  byEffectiveStatus : Multiset String
  byPrimaryReason : Multiset String
  impactSummary : ImpactSummary
  deriving DecidableEq

/-- `_build_snapshot_summary(items, impact_summary)`. -/
def buildSnapshotSummary (items : List ImpactItem) (impactSummary : ImpactSummary) :
    SnapshotSummary :=
  let statuses : Multiset String := items.map fun item => orUnknown item.effectiveStatus
  let reasons : Multiset String := items.map fun item => orUnknown item.primaryReason
  { counters :=
      { services := items.length
        affectedServices := items.countP fun item => isAffected item.effectiveStatus
        criticalServices := statuses.count "major_outage"
        majorOutageServices := statuses.count "major_outage"
        partialOutageServices := statuses.count "partial_outage"
        degradedServices := statuses.count "degraded"
        maintenanceServices := statuses.count "maintenance"
        unknownServices := statuses.count "unknown"
        alertGroupImpactedServices := reasons.count "alert_group"
        dependencyImpactedServices := reasons.count "upstream_dependency"
        ownStatusImpactedServices := reasons.count "own_status"
        openAlertGroupsTotal := (items.map (·.openAlertGroups)).sum
        criticalOpenAlertGroupsTotal := (items.map (·.criticalOpenAlertGroups)).sum
        upstreamIssuesTotal := (items.map (·.upstreamIssuesCount)).sum
        cycleDetectedCount := items.countP (·.cycleDetected)
        depthLimitedCount := items.countP (·.depthLimited) }
    byEffectiveStatus := statuses
    byPrimaryReason := reasons
    impactSummary }

/-! ## Captures -/

inductive SnapshotScope where
  | service | team | allowedTeams | all
  deriving DecidableEq

/-- A service row, as far as a capture reads it. -/
structure ServiceOwner where
  groupId : Option Id
  teamId : Option Id
  deriving DecidableEq

/-- The columns of a snapshot that do not depend on the items. -/
structure SnapshotHeader where
  id : Id
  uid : String
  teamId : Option Id
  serviceId : Option Id
  source : String
  scope : SnapshotScope
  capturedAt : ℕ
  maxDepth : ℕ
  includeDisabled : Bool
  includeOperational : Bool
  filters : Dict
  deriving DecidableEq

/-- A call of `capture_service_impact_snapshot`, with what it reads. -/
structure Capture where
  id : Id
  uid : String
  teamId : Option Id
  serviceId : Option Id
  source : String
  teamIds : Option (List Id)
  capturedAt : ℕ
  maxDepth : ℕ
  includeDisabled : Bool
  includeOperational : Bool
  filters : Dict
  payload : ImpactPayload
  /-- `_load_services(service_ids)` -/
  services : Id → Option ServiceOwner

/-- A row of the snapshot table. -/
structure SnapshotRow where
  header : SnapshotHeader
  groupId : Option Id
  counters : SnapshotCounters
  summary : SnapshotSummary
  deriving DecidableEq

/-- A row of the item table. -/
structure SnapshotItemRow where
  snapshotId : Id
  groupId : Option Id
  teamId : Option Id
  serviceId : Id
  capturedAt : ℕ
  serviceSlug : String
  serviceName : String
  teamSlug : Option String
  teamName : Option String
  effectiveStatus : String
  primaryReason : String
  openAlertGroups : ℕ
  criticalOpenAlertGroups : ℕ
  upstreamIssuesCount : ℕ
  blastRadiusTotal : ℕ
  payload : ImpactItem
  deriving DecidableEq

/-- `_snapshot_scope(query, team_ids=team_ids)`. -/
def snapshotScope (teamId serviceId : Option Id) (teamIds : Option (List Id)) : SnapshotScope :=
  if serviceId.isSome then .service
  else if teamId.isSome then .team
  else if teamIds.isSome then .allowedTeams
  else .all

/-- `_single_group_id(services)` of the groups of the services. -/
def singleGroupId (groups : List (Option Id)) : Option Id :=
  match (groups.filterMap id).dedup with
  | [groupId] => some groupId
  | _ => none

namespace Capture

def header (c : Capture) : SnapshotHeader where
  id := c.id
  uid := c.uid
  teamId := c.teamId
  serviceId := c.serviceId
  source := c.source
  scope := snapshotScope c.teamId c.serviceId c.teamIds
  capturedAt := c.capturedAt
  maxDepth := c.maxDepth
  includeDisabled := c.includeDisabled
  includeOperational := c.includeOperational
  filters := c.filters

/-- `_create_snapshot_item(snapshot, item, services, captured_at)`. -/
def itemRow (c : Capture) (item : ImpactItem) : SnapshotItemRow where
  snapshotId := c.id
  groupId := (c.services item.serviceId).bind (·.groupId)
  teamId := item.teamId <|> (c.services item.serviceId).bind (·.teamId)
  serviceId := item.serviceId
  capturedAt := c.capturedAt
  serviceSlug := item.serviceSlug
  serviceName := item.serviceName
  teamSlug := item.teamSlug
  teamName := item.teamName
  effectiveStatus := orUnknown item.effectiveStatus
  primaryReason := orUnknown item.primaryReason
  openAlertGroups := item.openAlertGroups
  criticalOpenAlertGroups := item.criticalOpenAlertGroups
  upstreamIssuesCount := item.upstreamIssuesCount
  blastRadiusTotal := item.blastRadiusTotal
  payload := item

def itemRows (c : Capture) : List SnapshotItemRow := c.payload.items.map c.itemRow

/-- The row that `capture_service_impact_snapshot` stores. -/
def row (c : Capture) : SnapshotRow :=
  let summary := buildSnapshotSummary c.payload.items c.payload.summary
  { header := c.header
    groupId := singleGroupId
      (c.payload.items.map fun item => (c.services item.serviceId).bind (·.groupId))
    counters := summary.counters
    summary }

end Capture

/-- The snapshot tables: what the captures have stored, in the order of the ids. -/
structure Database where
  captures : List Capture
  distinct : (captures.map (·.id)).Nodup

def Database.snapshots (db : Database) : List SnapshotRow := db.captures.map Capture.row

def Database.items (db : Database) : List SnapshotItemRow := db.captures.flatMap Capture.itemRows

/-! ## Queries -/

inductive Bucket where
  | hour | day
  deriving DecidableEq

/-- The query of the list and of the history. -/
structure HistoryQuery where
  days : ℕ
  limit : ℕ
  bucket : Bucket
  teamId : Option Id
  serviceId : Option Id

/-- `int(value or default)`. -/
def numberOr (fallback value : ℕ) : ℕ := if value = 0 then fallback else value

/-- `_bucket(value, bucket)`: the number of the hour or of the day stands for its text. -/
def Bucket.of (bucket : Bucket) (time : ℕ) : ℕ :=
  match bucket with
  | .hour => time / 3600
  | .day => time / 86400

section Queries

variable (db : Database) (teamIds : Option (List Id)) (query : HistoryQuery)

/-- The items that the requested service, the requested team or else the teams have. -/
def requestedItem (item : SnapshotItemRow) : Bool :=
  match query.serviceId, query.teamId, teamIds with
  | some serviceId, _, _ => item.serviceId = serviceId
  | none, some teamId, _ => item.teamId = some teamId
  | none, none, some teamIds => item.teamId.any (· ∈ teamIds)
  | none, none, none => true

/-- `_snapshot_query(since=…, team_ids=…, …)`: the snapshots that have such an item. Without a
request and without teams it is every snapshot. -/
def snapshotQuery (since : ℕ) : List SnapshotRow :=
  let snapshots := db.snapshots.filter (since ≤ ·.header.capturedAt)
  if query.serviceId = none ∧ query.teamId = none ∧ teamIds = none then snapshots
  else
    let matching := (db.items.filter (requestedItem teamIds query)).map (·.snapshotId)
    snapshots.filter (·.header.id ∈ matching)

/-- `_load_snapshot_items(snapshot_ids, team_ids=…, …)`, in the order of their times. -/
def loadSnapshotItems (snapshotIds : List Id) : List SnapshotItemRow :=
  ((db.items.filter (requestedItem teamIds query)).filter (·.snapshotId ∈ snapshotIds)).mergeSort
    fun x y => x.capturedAt ≤ y.capturedAt

end Queries

/-! ## The list -/

/-- `serialize_service_impact_snapshot(snapshot)`. -/
structure SnapshotView where
  header : SnapshotHeader
  groupId : Option Id
  counters : SnapshotCounters
  summary : SnapshotSummary
  deriving DecidableEq

def SnapshotRow.view (x : SnapshotRow) : SnapshotView where
  header := x.header
  groupId := x.groupId
  counters := x.counters
  summary := x.summary

structure SnapshotList where
  items : List SnapshotView
  days : ℕ
  since : ℕ
  upTo : ℕ
  teamId : Option Id
  serviceId : Option Id
  limit : ℕ
  deriving DecidableEq

/-- `utc_now() - timedelta(days=days)`. -/
def sinceDays (now days : ℕ) : ℕ := now - days * 86400

/-- `list_service_impact_snapshots(query, team_ids=…)`, with the latest in front. -/
def listServiceImpactSnapshots (now : ℕ) (db : Database) (teamIds : Option (List Id))
    (query : HistoryQuery) : SnapshotList :=
  let days := numberOr 7 query.days
  let limit := numberOr 50 query.limit
  let since := sinceDays now days
  let snapshots := (snapshotQuery db teamIds query since).mergeSort
    fun x y => y.header.capturedAt ≤ x.header.capturedAt
  { items := (snapshots.take limit).map SnapshotRow.view
    days, since, upTo := now, teamId := query.teamId, serviceId := query.serviceId, limit }

/-! ## The history -/

section History

variable {Num : Type} (floating : Floating Num)

/-- `round(_avg(values), 2)`. -/
def roundedAverage (values : List ℕ) : Num :=
  if values = [] then floating.zero else floating.ratio values.sum values.length 2

/-- `max(values, default=0)`. -/
def maxOrZero (values : List ℕ) : ℕ := values.foldl max 0

structure HistorySummary (Num : Type) where
  snapshots : ℕ
  servicesObserved : ℕ
  affectedServiceSamples : ℕ
  affectedSampleRatio : Num
  latestSnapshotAt : Option ℕ
  latestServices : ℕ
  latestAffectedServices : ℕ
  latestCriticalServices : ℕ
  maxAffectedServices : ℕ
  maxCriticalServices : ℕ
  avgAffectedServices : Num
  latestByEffectiveStatus : Multiset String
  latestByPrimaryReason : Multiset String

/-- `_history_summary(snapshots, items)`. -/
def historySummary (snapshots : List SnapshotRow) (items : List SnapshotItemRow) :
    HistorySummary Num :=
  let latest := snapshots.getLast?
  let affectedSamples := items.countP fun item => isAffected item.effectiveStatus
  { snapshots := snapshots.length
    servicesObserved := (items.map (·.serviceId)).dedup.length
    affectedServiceSamples := affectedSamples
    affectedSampleRatio :=
      if items = [] then floating.zero else floating.ratio affectedSamples items.length 4
    latestSnapshotAt := latest.map (·.header.capturedAt)
    latestServices := (latest.map (·.counters.services)).getD 0
    latestAffectedServices := (latest.map (·.counters.affectedServices)).getD 0
    latestCriticalServices := (latest.map (·.counters.criticalServices)).getD 0
    maxAffectedServices := maxOrZero (snapshots.map (·.counters.affectedServices))
    maxCriticalServices := maxOrZero (snapshots.map (·.counters.criticalServices))
    avgAffectedServices := roundedAverage floating (snapshots.map (·.counters.affectedServices))
    latestByEffectiveStatus := (latest.map (·.summary.byEffectiveStatus)).getD 0
    latestByPrimaryReason := (latest.map (·.summary.byPrimaryReason)).getD 0 }

/-- The rows of each bucket, in the order of the buckets. -/
def grouped {α : Type} (bucketOf : α → ℕ) (rows : List α) : List (ℕ × List α) :=
  ((rows.map bucketOf).dedup.mergeSort (· ≤ ·)).map fun key => (key, rows.filter (bucketOf · = key))

structure ImpactBucket (Num : Type) where
  bucket : ℕ
  snapshots : ℕ
  servicesAvg : Num
  affectedAvg : Num
  affectedMax : ℕ
  criticalMax : ℕ
  alertGroupAvg : Num
  dependencyAvg : Num
  ownStatusAvg : Num
  openAlertGroupsMax : ℕ

/-- `_impact_series(snapshots, bucket=…)`. -/
def impactSeries (bucket : Bucket) (snapshots : List SnapshotRow) : List (ImpactBucket Num) :=
  (grouped (fun x : SnapshotRow => bucket.of x.header.capturedAt) snapshots).map fun (key, rows) =>
    let column (f : SnapshotCounters → ℕ) : List ℕ := rows.map fun x => f x.counters
    { bucket := key
      snapshots := rows.length
      servicesAvg := roundedAverage floating (column (·.services))
      affectedAvg := roundedAverage floating (column (·.affectedServices))
      affectedMax := maxOrZero (column (·.affectedServices))
      criticalMax := maxOrZero (column (·.criticalServices))
      alertGroupAvg := roundedAverage floating (column (·.alertGroupImpactedServices))
      dependencyAvg := roundedAverage floating (column (·.dependencyImpactedServices))
      ownStatusAvg := roundedAverage floating (column (·.ownStatusImpactedServices))
      openAlertGroupsMax := maxOrZero (column (·.openAlertGroupsTotal)) }

def seriesStatuses : List String :=
  ["operational", "degraded", "partial_outage", "major_outage", "maintenance", "unknown", "disabled"]

def seriesReasons : List String :=
  ["alert_group", "upstream_dependency", "own_status", "maintenance", "unknown"]

/-- How often each text of a series occurs in each bucket. -/
def itemSeries (bucket : Bucket) (texts : List String) (textOf : SnapshotItemRow → String)
    (items : List SnapshotItemRow) : List (ℕ × List (String × ℕ)) :=
  (grouped (fun item : SnapshotItemRow => bucket.of item.capturedAt) items).map fun (key, rows) =>
    (key, texts.map fun text => (text, rows.countP fun item => orUnknown (textOf item) = text))

/-- `_status_series(items, bucket=…)`. -/
def statusSeries (bucket : Bucket) (items : List SnapshotItemRow) : List (ℕ × List (String × ℕ)) :=
  itemSeries bucket seriesStatuses (·.effectiveStatus) items

/-- `_reason_series(items, bucket=…)`. -/
def reasonSeries (bucket : Bucket) (items : List SnapshotItemRow) : List (ℕ × List (String × ℕ)) :=
  itemSeries bucket seriesReasons (·.primaryReason) items

/-- `STATUS_RANK.get(status or "unknown", 0)`. -/
def statusRank (status : String) : ℤ :=
  match orUnknown status with
  | "disabled" => -1
  | "unknown" => 1
  | "maintenance" => 2
  | "degraded" => 3
  | "partial_outage" => 4
  | "major_outage" => 5
  | _ => 0

/-- What a row says of the last item of its service. -/
structure LastSample where
  serviceSlug : String
  serviceName : String
  teamId : Option Id
  teamSlug : Option String
  teamName : Option String
  lastSeenAt : ℕ
  lastEffectiveStatus : String
  lastPrimaryReason : String

def SnapshotItemRow.lastSample (item : SnapshotItemRow) : LastSample where
  serviceSlug := item.serviceSlug
  serviceName := item.serviceName
  teamId := item.teamId
  teamSlug := item.teamSlug
  teamName := item.teamName
  lastSeenAt := item.capturedAt
  lastEffectiveStatus := item.effectiveStatus
  lastPrimaryReason := item.primaryReason

structure TopService (Num : Type) where
  serviceId : Id
  last : Option LastSample
  samples : ℕ
  affectedSamples : ℕ
  affectedPercent : Num
  firstAffectedAt : Option ℕ
  lastAffectedAt : Option ℕ
  worstEffectiveStatus : Option String
  maxOpenAlertGroups : ℕ
  maxCriticalOpenAlertGroups : ℕ
  maxUpstreamIssues : ℕ
  maxBlastRadiusTotal : ℕ
  primaryReasons : Multiset String

/-- `max(items, key=…)`. The order of the numbers is given, for it has to compute. -/
def worstItem (items : List SnapshotItemRow) : Option SnapshotItemRow :=
  letI : Preorder ℤ := Int.instLinearOrder.toPreorder
  items.argmax fun item => statusRank item.effectiveStatus

/-- The row of a service with its items. -/
def topService (serviceId : Id) (items : List SnapshotItemRow) : TopService Num :=
  let affected := items.filter fun item => isAffected item.effectiveStatus
  { serviceId
    last := items.getLast?.map SnapshotItemRow.lastSample
    samples := items.length
    affectedSamples := affected.length
    affectedPercent := floating.percent affected.length items.length
    firstAffectedAt := affected.head?.map (·.capturedAt)
    lastAffectedAt := affected.getLast?.map (·.capturedAt)
    worstEffectiveStatus := (worstItem items).map (·.effectiveStatus)
    maxOpenAlertGroups := maxOrZero (items.map (·.openAlertGroups))
    maxCriticalOpenAlertGroups := maxOrZero (items.map (·.criticalOpenAlertGroups))
    maxUpstreamIssues := maxOrZero (items.map (·.upstreamIssuesCount))
    maxBlastRadiusTotal := maxOrZero (items.map (·.blastRadiusTotal))
    primaryReasons := affected.map fun item => orUnknown item.primaryReason }

/-- The key that the rows are sorted by. -/
def TopService.sortKey (x : TopService Num) : ℕ ×ₗ ℤ ×ₗ ℕ ×ₗ ℕ :=
  toLex (x.affectedSamples, toLex ((x.worstEffectiveStatus.map statusRank).getD 0,
    toLex (x.maxOpenAlertGroups, x.maxUpstreamIssues)))

/-- `_top_historically_affected_services(items, limit=…)`. -/
def topHistoricallyAffectedServices (limit : ℕ) (items : List SnapshotItemRow) :
    List (TopService Num) :=
  let rows := (items.map (·.serviceId)).reverse.dedup.reverse.map fun serviceId =>
    topService floating serviceId (items.filter (·.serviceId = serviceId))
  (rows.mergeSort fun x y => y.sortKey ≤ x.sortKey).take limit

structure ImpactHistory (Num : Type) where
  days : ℕ
  since : ℕ
  upTo : ℕ
  bucket : Bucket
  summary : HistorySummary Num
  impactByBucket : List (ImpactBucket Num)
  statusByBucket : List (ℕ × List (String × ℕ))
  reasonByBucket : List (ℕ × List (String × ℕ))
  topServices : List (TopService Num)
  latestSnapshot : Option SnapshotView
  teamId : Option Id
  serviceId : Option Id
  limit : ℕ

/-- `build_service_impact_history(query, team_ids=…)`. -/
def buildServiceImpactHistory (now : ℕ) (db : Database) (teamIds : Option (List Id))
    (query : HistoryQuery) : ImpactHistory Num :=
  let days := numberOr 30 query.days
  let limit := numberOr 25 query.limit
  let since := sinceDays now days
  let snapshots := (snapshotQuery db teamIds query since).mergeSort
    fun x y => x.header.capturedAt ≤ y.header.capturedAt
  let items := loadSnapshotItems db teamIds query (snapshots.map (·.header.id))
  { days, since, upTo := now, bucket := query.bucket
    summary := historySummary floating snapshots items
    impactByBucket := impactSeries floating query.bucket snapshots
    statusByBucket := statusSeries query.bucket items
    reasonByBucket := reasonSeries query.bucket items
    topServices := topHistoricallyAffectedServices floating limit items
    latestSnapshot := snapshots.getLast?.map SnapshotRow.view
    teamId := query.teamId, serviceId := query.serviceId, limit }

end History

/-! ## What may be read -/

section Isolation

variable (teams services : List Id)

/-- An item of a team or of a service that may be read. -/
def Readable (item : SnapshotItemRow) : Prop :=
  (∃ teamId ∈ teams, item.teamId = some teamId) ∨ item.serviceId ∈ services

instance : DecidablePred (Readable teams services) := fun _ => inferInstanceAs (Decidable (_ ∨ _))

/-- The same snapshots, with the same readable items. -/
structure SameReadable (a b : Database) : Prop where
  headers : a.captures.map Capture.header = b.captures.map Capture.header
  items : a.items.filter (Readable teams services) = b.items.filter (Readable teams services)

/-- A request for what may be read. -/
structure Requestable (query : HistoryQuery) : Prop where
  team : ∀ teamId ∈ query.teamId, teamId ∈ teams
  service : ∀ serviceId ∈ query.serviceId, serviceId ∈ services

/-- The list and the history show the same. -/
def Isolated {Num : Type} (floating : Floating Num) (a b : Database) : Prop :=
  ∀ now query, Requestable teams services query →
    listServiceImpactSnapshots now a (some teams) query =
        listServiceImpactSnapshots now b (some teams) query ∧
      buildServiceImpactHistory floating now a (some teams) query =
        buildServiceImpactHistory floating now b (some teams) query

/-- Every snapshot with a readable item stores the same of all its items. -/
def SameSummaries (a b : Database) : Prop :=
  ∀ x ∈ a.snapshots, ∀ y ∈ b.snapshots, x.header.id = y.header.id →
    (∃ item ∈ a.items, item.snapshotId = x.header.id ∧ Readable teams services item) →
      x.groupId = y.groupId ∧ x.counters = y.counters ∧ x.summary = y.summary

variable {teams services : List Id} {a b : Database}

/-- What a permitted query selects may be read. -/
theorem readable_of_requested {query : HistoryQuery} (hquery : Requestable teams services query)
    {item : SnapshotItemRow} (h : requestedItem (some teams) query item = true) :
    Readable teams services item := by
  unfold requestedItem at h
  -- a service, a team or all the teams that may be read
  split at h
  · next serviceId hservice =>
    have hitem : item.serviceId = serviceId := of_decide_eq_true h
    exact .inr (hitem ▸ hquery.service serviceId hservice)
  · next teamId hservice hteam =>
    exact .inl ⟨teamId, hquery.team teamId hteam, of_decide_eq_true h⟩
  · next teamIds hservice hteam heq =>
    cases heq
    cases hitem : item.teamId with
    | none =>
      rw [hitem] at h
      cases h
    | some teamId =>
      rw [hitem] at h
      exact .inl ⟨teamId, of_decide_eq_true h, hitem⟩
  · next heq => cases heq

/-- Databases that agree on what may be read have the same selected items, -/
theorem requested_items_eq (h : SameReadable teams services a b) {query : HistoryQuery}
    (hquery : Requestable teams services query) :
    a.items.filter (requestedItem (some teams) query) =
      b.items.filter (requestedItem (some teams) query) := by
  have hboth : ∀ items : List SnapshotItemRow, items.filter (requestedItem (some teams) query) =
      (items.filter (Readable teams services)).filter (requestedItem (some teams) query) := by
    intro items
    rw [List.filter_filter]
    refine List.filter_congr fun item _ => ?_
    cases hrequested : requestedItem (some teams) query item with
    | false => rfl
    | true => simp [readable_of_requested hquery hrequested]
  rw [hboth, hboth b.items, h.items]

/-- Rows with the same keys, of which those that are kept are the same. -/
theorem filter_eq_of_keys {α β : Type} (f : α → β) (keep : β → Bool) : ∀ {xs ys : List α},
    xs.map f = ys.map f → (∀ x ∈ xs, ∀ y ∈ ys, f x = f y → keep (f x) = true → x = y) →
      xs.filter (fun x => keep (f x)) = ys.filter fun y => keep (f y)
  | [], [], _, _ => rfl
  | [], _ :: _, h, _ => by cases h
  | _ :: _, [], h, _ => by cases h
  | x :: xs, y :: ys, h, hkept => by
    rw [List.map_cons, List.map_cons, List.cons.injEq] at h
    have hrest := filter_eq_of_keys f keep h.2 fun x hx y hy =>
      hkept x (List.mem_cons_of_mem _ hx) y (List.mem_cons_of_mem _ hy)
    rw [List.filter_cons, List.filter_cons, ← h.1, hrest]
    split
    · next hkeep => rw [hkept x List.mem_cons_self y List.mem_cons_self h.1 hkeep]
    · rfl

/-- The header and the stored columns are the whole row. -/
theorem SnapshotRow.ext_stored {x y : SnapshotRow} (hheader : x.header = y.header)
    (hstored : x.groupId = y.groupId ∧ x.counters = y.counters ∧ x.summary = y.summary) : x = y := by
  obtain ⟨hgroup, hcounters, hsummary⟩ := hstored
  cases x
  cases y
  cases hheader
  cases hgroup
  cases hcounters
  cases hsummary
  rfl

/-- The ids of the snapshots with a requested item. -/
theorem mem_matching {db : Database} {query : HistoryQuery} {snapshotId : Id} :
    snapshotId ∈ (db.items.filter (requestedItem (some teams) query)).map (·.snapshotId) ↔
      ∃ item ∈ db.items, item.snapshotId = snapshotId ∧
        requestedItem (some teams) query item = true := by
  rw [List.mem_map]
  constructor
  · rintro ⟨item, hitem, rfl⟩
    exact ⟨item, (List.mem_filter.mp hitem).1, rfl, (List.mem_filter.mp hitem).2⟩
  · rintro ⟨item, hitem, hid, hrequested⟩
    exact ⟨item, List.mem_filter.mpr ⟨hitem, hrequested⟩, hid⟩

theorem headers_eq (h : SameReadable teams services a b) :
    a.snapshots.map (·.header) = b.snapshots.map (·.header) := by
  unfold Database.snapshots
  rw [List.map_map, List.map_map]
  exact h.headers

theorem snapshotQuery_eq (h : SameReadable teams services a b)
    (hsame : SameSummaries teams services a b) {query : HistoryQuery}
    (hquery : Requestable teams services query) (since : ℕ) :
    snapshotQuery a (some teams) query since = snapshotQuery b (some teams) query since := by
  unfold snapshotQuery
  rw [if_neg (by simp), if_neg (by simp), ← requested_items_eq h hquery]
  dsimp only
  rw [List.filter_filter, List.filter_filter]
  refine filter_eq_of_keys SnapshotRow.header (fun header : SnapshotHeader =>
    decide (header.id ∈ _) && decide (since ≤ header.capturedAt)) (headers_eq h)
    fun x hx y hy hheader hkept => ?_
  -- a snapshot that is kept has a readable item
  obtain ⟨item, hitem, hid, hrequested⟩ :=
    mem_matching.mp (of_decide_eq_true (Bool.and_eq_true_iff.mp hkept).1)
  exact SnapshotRow.ext_stored hheader (hsame x hx y hy (congrArg (·.id) hheader)
    ⟨item, hitem, hid, readable_of_requested hquery hrequested⟩)

theorem loadSnapshotItems_eq (h : SameReadable teams services a b) {query : HistoryQuery}
    (hquery : Requestable teams services query) (snapshotIds : List Id) :
    loadSnapshotItems a (some teams) query snapshotIds =
      loadSnapshotItems b (some teams) query snapshotIds := by
  unfold loadSnapshotItems
  rw [requested_items_eq h hquery]

/-- Both results are made of the selected snapshots and items. -/
theorem isolated_of_sameSummaries {Num : Type} {floating : Floating Num}
    (h : SameReadable teams services a b) (hsame : SameSummaries teams services a b) :
    Isolated teams services floating a b := by
  intro now query hquery
  constructor
  · unfold listServiceImpactSnapshots
    dsimp only
    rw [snapshotQuery_eq h hsame hquery]
  · unfold buildServiceImpactHistory
    dsimp only
    rw [snapshotQuery_eq h hsame hquery, loadSnapshotItems_eq h hquery]

/-- A request that finds a readable item. -/
theorem exists_request {item : SnapshotItemRow} (h : Readable teams services item) (limit : ℕ) :
    ∃ query : HistoryQuery, Requestable teams services query ∧ query.limit = limit ∧
      requestedItem (some teams) query item = true := by
  rcases h with ⟨teamId, hteam, hitem⟩ | hservice
  · exact ⟨⟨1, limit, .day, none, none⟩, ⟨by simp, by simp⟩, rfl,
      by simp [requestedItem, hitem, hteam]⟩
  · exact ⟨⟨1, limit, .day, none, some item.serviceId⟩, ⟨by simp, by simpa using hservice⟩, rfl,
      by simp [requestedItem]⟩

/-- A snapshot is selected for an item of it that is. -/
theorem mem_snapshotQuery {db : Database} {query : HistoryQuery} {since : ℕ} {x : SnapshotRow} :
    x ∈ snapshotQuery db (some teams) query since ↔
      x ∈ db.snapshots ∧ since ≤ x.header.capturedAt ∧
        ∃ item ∈ db.items, item.snapshotId = x.header.id ∧
          requestedItem (some teams) query item = true := by
  unfold snapshotQuery
  rw [if_neg (by simp)]
  dsimp only
  rw [List.mem_filter, List.mem_filter, decide_eq_true_eq, decide_eq_true_eq, mem_matching, and_assoc]

/-- With a limit that is high enough the list shows every selected snapshot. -/
theorem mem_list {db : Database} {query : HistoryQuery} {now : ℕ} {v : SnapshotView}
    (hlimit : db.snapshots.length < query.limit) :
    v ∈ (listServiceImpactSnapshots now db (some teams) query).items ↔
      ∃ x ∈ snapshotQuery db (some teams) query (sinceDays now (numberOr 7 query.days)),
        x.view = v := by
  unfold listServiceImpactSnapshots
  dsimp only
  have hlength : (snapshotQuery db (some teams) query
      (sinceDays now (numberOr 7 query.days))).length ≤ db.snapshots.length := by
    unfold snapshotQuery
    rw [if_neg (by simp)]
    exact (List.length_filter_le _ _).trans (List.length_filter_le _ _)
  have hdefault : numberOr 50 query.limit = query.limit := if_neg (by omega)
  rw [hdefault, List.take_of_length_le (by rw [List.length_mergeSort]; omega), List.mem_map]
  simp only [List.mem_mergeSort]

/-- Snapshots are told apart by their ids. -/
theorem snapshots_unique {db : Database} {x y : SnapshotRow} (hx : x ∈ db.snapshots)
    (hy : y ∈ db.snapshots) (hid : x.header.id = y.header.id) : x = y := by
  obtain ⟨c, hc, rfl⟩ := List.mem_map.mp hx
  obtain ⟨d, hd, rfl⟩ := List.mem_map.mp hy
  rw [List.inj_on_of_nodup_map db.distinct hc hd hid]

/-- **The summaries** of two isolated databases are the same. -/
theorem sameSummaries_of_isolated {Num : Type} {floating : Floating Num}
    (h : Isolated teams services floating a b) : SameSummaries teams services a b := by
  intro x hx y hy hid hreadable
  obtain ⟨item, hitem, hitemId, hread⟩ := hreadable
  obtain ⟨query, hquery, hlimit, hrequested⟩ :=
    exists_request hread (a.snapshots.length + b.snapshots.length + 1)
  have hitems := congrArg SnapshotList.items (h x.header.capturedAt query hquery).1
  have hview : x.view ∈ (listServiceImpactSnapshots x.header.capturedAt a (some teams) query).items := by
    rw [mem_list (by omega)]
    exact ⟨x, mem_snapshotQuery.mpr ⟨hx, Nat.sub_le _ _, item, hitem, hitemId, hrequested⟩, rfl⟩
  rw [hitems, mem_list (by omega)] at hview
  obtain ⟨other, hother, hsame⟩ := hview
  -- the other list shows it as a snapshot with the same id
  have hotherId : other.header.id = y.header.id := by
    rw [← hid]
    exact congrArg (fun v : SnapshotView => v.header.id) hsame
  rw [snapshots_unique (mem_snapshotQuery.mp hother).1 hy hotherId] at hsame
  exact ⟨congrArg SnapshotView.groupId hsame.symm, congrArg SnapshotView.counters hsame.symm,
    congrArg SnapshotView.summary hsame.symm⟩

/-- **The list and the history of two databases with the same readable items are the same exactly
when every snapshot with a readable item stores the same group, counters and summary.** -/
theorem isolated_iff {Num : Type} (floating : Floating Num) (h : SameReadable teams services a b) :
    Isolated teams services floating a b ↔ SameSummaries teams services a b :=
  ⟨sameSummaries_of_isolated, isolated_of_sameSummaries h⟩

/-! ## Snapshots of what may be read -/

/-- A snapshot with a readable item has no other items. -/
def Scoped (teams services : List Id) (db : Database) : Prop :=
  ∀ item ∈ db.items, Readable teams services item →
    ∀ other ∈ db.items, other.snapshotId = item.snapshotId → Readable teams services other

theorem snapshotId_of_mem {c : Capture} {item : SnapshotItemRow} (h : item ∈ c.itemRows) :
    item.snapshotId = c.id := by
  obtain ⟨source, -, rfl⟩ := List.mem_map.mp h
  rfl

/-- By induction on the captures: the items of a snapshot are those with its id. -/
theorem itemRows_eq_filter : ∀ {captures : List Capture} {c : Capture},
    (captures.map (·.id)).Nodup → c ∈ captures →
      (captures.flatMap Capture.itemRows).filter (·.snapshotId = c.id) = c.itemRows
  | [], _, _, hc => absurd hc List.not_mem_nil
  | d :: captures, c, hdistinct, hc => by
    rw [List.map_cons, List.nodup_cons] at hdistinct
    rw [List.flatMap_cons, List.filter_append]
    -- the items of one capture carry its id, and no other capture has it
    rcases List.mem_cons.mp hc with rfl | hc
    · have hown : c.itemRows.filter (·.snapshotId = c.id) = c.itemRows :=
        List.filter_eq_self.mpr fun item hitem => decide_eq_true (snapshotId_of_mem hitem)
      have hrest : (captures.flatMap Capture.itemRows).filter (·.snapshotId = c.id) = [] := by
        refine List.filter_eq_nil_iff.mpr fun item hitem hid => hdistinct.1 ?_
        obtain ⟨e, he, hitem⟩ := List.mem_flatMap.mp hitem
        rw [← of_decide_eq_true hid, snapshotId_of_mem hitem]
        exact List.mem_map_of_mem he
      rw [hown, hrest, List.append_nil]
    · have hother : d.itemRows.filter (·.snapshotId = c.id) = [] := by
        refine List.filter_eq_nil_iff.mpr fun item hitem hid => hdistinct.1 ?_
        rw [← snapshotId_of_mem hitem, of_decide_eq_true hid]
        exact List.mem_map_of_mem hc
      rw [hother, List.nil_append]
      exact itemRows_eq_filter hdistinct.2 hc

/-- What is stored of a snapshot is a function of its items. -/
theorem stored_of_itemRows {c d : Capture} (h : c.itemRows = d.itemRows) (hitems : c.itemRows ≠ []) :
    c.row.groupId = d.row.groupId ∧ c.row.counters = d.row.counters ∧ c.row.summary = d.row.summary := by
  have hsources : c.payload.items = d.payload.items := by
    have hread := congrArg (List.map SnapshotItemRow.payload) h
    simpa [Capture.itemRows, Function.comp_def, Capture.itemRow] using hread
  have hgroups := congrArg (List.map SnapshotItemRow.groupId) h
  have hsome : c.payload.items ≠ [] := by
    intro hnone
    exact hitems (by simp [Capture.itemRows, hnone])
  have hsummary : c.payload.summary = d.payload.summary := by
    unfold ImpactPayload.summary
    rw [c.payload.inScope_of_items hsome, d.payload.inScope_of_items (hsources ▸ hsome), hsources]
  have hrow : c.row.summary = d.row.summary := by
    unfold Capture.row
    dsimp only
    rw [hsources, hsummary]
  refine ⟨?_, congrArg SnapshotSummary.counters hrow, hrow⟩
  simp only [Capture.itemRows, List.map_map] at hgroups
  exact congrArg singleGroupId hgroups

/-- When the database is scoped, all items of a capture may be read or none. -/
theorem readable_itemRows {db : Database} {c : Capture} (hscoped : Scoped teams services db)
    (hc : c ∈ db.captures) {item : SnapshotItemRow} (hitem : item ∈ db.items)
    (hid : item.snapshotId = c.id) (hread : Readable teams services item) :
    (db.items.filter (Readable teams services)).filter (·.snapshotId = c.id) = c.itemRows := by
  rw [← itemRows_eq_filter db.distinct hc, List.filter_filter]
  refine List.filter_congr fun other hother => ?_
  cases hown : decide (other.snapshotId = c.id) with
  | false => rfl
  | true =>
    have hsame : other.snapshotId = item.snapshotId := (of_decide_eq_true hown).trans hid.symm
    simp [hscoped item hitem hread other hother hsame]

/-- Snapshots of a scope that may be read as a whole show nothing else. -/
theorem isolated_of_scoped {Num : Type} (floating : Floating Num) (h : SameReadable teams services a b)
    (ha : Scoped teams services a) (hb : Scoped teams services b) :
    Isolated teams services floating a b := by
  refine isolated_of_sameSummaries h ?_
  intro x hx y hy hid hreadable
  obtain ⟨c, hc, rfl⟩ := List.mem_map.mp hx
  obtain ⟨d, hd, rfl⟩ := List.mem_map.mp hy
  obtain ⟨item, hitem, hitemId, hread⟩ := hreadable
  have hboth : item ∈ b.items.filter (Readable teams services) := by
    rw [← h.items]
    exact List.mem_filter.mpr ⟨hitem, decide_eq_true hread⟩
  -- on both sides the items of the snapshot are its readable items
  have hc' := readable_itemRows ha hc hitem hitemId hread
  have hd' := readable_itemRows hb hd (List.mem_filter.mp hboth).1 (hitemId.trans hid) hread
  have hsame : c.itemRows = d.itemRows := by
    rw [← hc', ← hd', h.items]
    exact congrArg (fun snapshotId => List.filter
      (fun item : SnapshotItemRow => item.snapshotId = snapshotId) _) hid
  refine stored_of_itemRows hsame fun hnone => ?_
  have hown : item ∈ (a.items.filter (Readable teams services)).filter (·.snapshotId = c.id) :=
    List.mem_filter.mpr ⟨List.mem_filter.mpr ⟨hitem, decide_eq_true hread⟩, decide_eq_true hitemId⟩
  rw [hc', hnone] at hown
  exact List.not_mem_nil hown

instance : Decidable (SameSummaries teams services a b) :=
  inferInstanceAs (Decidable (∀ x ∈ a.snapshots, ∀ y ∈ b.snapshots, x.header.id = y.header.id →
    (∃ item ∈ a.items, item.snapshotId = x.header.id ∧ Readable teams services item) →
      x.groupId = y.groupId ∧ x.counters = y.counters ∧ x.summary = y.summary))

end Isolation

/-! ## A snapshot of two teams -/

/-- A service of a team in a status. -/
def statusItem (serviceId teamId : Id) (status : String) : ImpactItem where
  serviceId := serviceId
  serviceSlug := "api"
  serviceName := "API"
  teamId := some teamId
  teamSlug := none
  teamName := none
  effectiveStatus := status
  effectiveImpactScore := 0
  primaryReason := "own_status"
  openAlertGroups := 0
  criticalOpenAlertGroups := 0
  upstreamIssuesCount := 0
  blastRadiusTotal := 0
  cycleDetected := false
  depthLimited := false

/-- A snapshot of the scheduler. -/
def scheduledCapture (id : Id) (items : List ImpactItem) : Capture where
  id := id
  uid := "snapshot"
  teamId := none
  serviceId := none
  source := "scheduler"
  teamIds := none
  capturedAt := 0
  maxDepth := 5
  includeDisabled := true
  includeOperational := true
  filters := []
  payload := ⟨true, items, fun _ => rfl⟩
  services _ := none

/-- Team 1 and team 2 in one snapshot. -/
def sharedSnapshot (status : String) : Database where
  captures := [scheduledCapture 1 [statusItem 1 1 "operational", statusItem 2 2 status]]
  distinct := List.nodup_singleton _

/-- Team 1 and team 2 in two snapshots. -/
def ownSnapshots (status : String) : Database where
  captures := [scheduledCapture 1 [statusItem 1 1 "operational"],
    scheduledCapture 2 [statusItem 2 2 status]]
  distinct := by
    simp only [scheduledCapture, List.map_cons, List.map_nil]
    decide

/-- No number is shown. -/
def noNumbers : Floating Unit := ⟨fun _ _ _ => (), fun _ _ => (), ()⟩

/-- A status of team 2 is not shown to team 1 where it has a snapshot of its own. -/
theorem ownSnapshots_isolated :
    Isolated [1] [1] noNumbers (ownSnapshots "operational") (ownSnapshots "major_outage") :=
  (isolated_iff noNumbers ⟨by decide +kernel, by decide +kernel⟩).mpr (by decide +kernel)

/-- **Of a snapshot of both teams, team 1 reads how many services of team 2 are down.** -/
theorem sharedSnapshot_not_isolated : ¬∀ (teams services : List Id) (Num : Type)
    (floating : Floating Num) (a b : Database), SameReadable teams services a b →
      Isolated teams services floating a b := by
  intro h
  have hsame := sameSummaries_of_isolated (h [1] [] Unit noNumbers
    (sharedSnapshot "operational") (sharedSnapshot "major_outage")
    ⟨by decide +kernel, by decide +kernel⟩)
  have hdiffer : ¬SameSummaries [1] [] (sharedSnapshot "operational")
      (sharedSnapshot "major_outage") := by
    decide +kernel
  exact hdiffer hsame

end IncidentRelay.Services
