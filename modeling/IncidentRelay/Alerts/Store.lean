import IncidentRelay.Lib.IdTable
import IncidentRelay.Lib.PyRepr
import IncidentRelay.Pending.Row
import IncidentRelay.Tenant
import Mathlib.Data.Prod.Lex

/-!
# Alerts and their groups

The rows of `Alert` and `AlertGroup` and the statements of `alerts_repo.py` and
`reopen.py`. Each `utc_now()` of one call is the same instant. The columns of
escalation, priority and notification are left out; nothing here reads them.
-/

namespace IncidentRelay.Alerts

open Json

/-! ## Rows -/

inductive Status where
  | firing
  | acknowledged
  | silenced
  | resolved
  | maintenance
  | merged
  | other (text : String)
  deriving DecidableEq, Repr

def Status.ofText (text : String) : Status :=
  match text with
  | "firing" => .firing
  | "acknowledged" => .acknowledged
  | "silenced" => .silenced
  | "resolved" => .resolved
  | "maintenance" => .maintenance
  | "merged" => .merged
  | text => .other text

structure Alert where
  id : ℕ
  group : Option ℕ
  team : Option Id
  route : Option Id
  service : Option Id
  source : String
  externalId : Json
  dedupKey : String
  groupKey : String
  title : Json
  message : Json
  severity : Json
  labels : Json
  payload : Json
  status : Status
  previousStatus : Option Status := none
  firstSeenAt : Instant
  lastSeenAt : Instant
  resolvedAt : Option Instant := none
  silenced : Bool
  orchestrationSuppressed : Bool
  orchestrationSuppressReason : Option String
  deriving DecidableEq

structure AlertGroup where
  id : ℕ
  team : Option Id
  route : Option Id
  service : Option Id
  source : String
  groupKey : String
  groupKeyHash : String
  title : Json
  message : Json
  severity : Json
  commonLabels : Dict := []
  labelValues : Dict := []
  payloadSummary : Dict := []
  status : Status
  previousStatus : Option Status := none
  acknowledgedBy : Option ℕ := none
  acknowledgedAt : Option Instant := none
  resolvedBy : Option ℕ := none
  resolvedAt : Option Instant := none
  firstSeenAt : Instant
  lastSeenAt : Instant
  alertCount : ℕ := 0
  firingCount : ℕ := 0
  acknowledgedCount : ℕ := 0
  resolvedCount : ℕ := 0
  silencedCount : ℕ := 0
  silenced : Bool
  mergedInto : Option ℕ := none
  updatedAt : Instant
  orchestrationSuppressed : Bool
  orchestrationSuppressReason : Option String
  deriving DecidableEq

structure Store where
  alerts : IdTable Alert (·.id)
  groups : IdTable AlertGroup (·.id)

def Store.empty : Store where
  alerts := .empty
  groups := .empty

/-- What keeps the groups of different routes and keys apart. -/
structure Identity where
  source : String
  groupKey : String
  team : Option Id
  route : Option Id
  service : Option Id
  deriving DecidableEq

namespace Store

variable (s : Store)

/-- `existing_alert.group`. -/
def groupOf (a : Alert) : Option AlertGroup := a.group.bind s.groups.get

/-- `Alert.group == group.id`. -/
def childOf (groupId : ℕ) (a : Alert) : Bool := a.group = some groupId

def children (groupId : ℕ) : List Alert := s.alerts.rows.filter (childOf groupId)

def saveGroup (g : AlertGroup) : Store := { s with groups := s.groups.save g }

def saveAlert (a : Alert) : Store := { s with alerts := s.alerts.save a }

def updateAlerts (guard : Alert → Bool) (set : Alert → Alert) (hset : ∀ a, (set a).id = a.id) :
    Store :=
  { s with alerts := s.alerts.update guard set hset }

/-! ## Lookups -/

/-- The condition of `find_existing_alert`. -/
def isOpenFor (source dedupKey : String) (routeId : Option Id) (a : Alert) : Bool :=
  a.source = source ∧ a.dedupKey = dedupKey ∧ a.status ≠ .resolved ∧
    (routeId.all fun id => a.route = some id) = true

/-- `find_existing_alert(source, dedup_key, route_id=…)`; the window is not used. -/
def findExistingAlert (source dedupKey : String) (routeId : Option Id) : Option Alert :=
  s.alerts.latest (isOpenFor source dedupKey routeId)

/-- `find_open_alert_group(…)`: a missing team, route or service is no condition. -/
def findOpenAlertGroup (sha256 : String → String) (i : Identity) : Option AlertGroup :=
  s.groups.latest fun g => g.source = i.source ∧ g.groupKeyHash = sha256 i.groupKey ∧
    g.status ≠ .resolved ∧ g.status ≠ .merged ∧ g.mergedInto = none ∧
    (i.team.all fun id => g.team = some id) = true ∧
    (i.route.all fun id => g.route = some id) = true ∧
    (i.service.all fun id => g.service = some id) = true

/-- `group_matches_identity(group, …)`, and the filter of the reopen queries. -/
def matchesIdentity (sha256 : String → String) (i : Identity) (g : AlertGroup) : Bool :=
  g.mergedInto = none ∧ g.source = i.source ∧ g.groupKeyHash = sha256 i.groupKey ∧
    g.team = i.team ∧ g.route = i.route ∧ g.service = i.service

/-- `find_exact_open_group(…)`. -/
def findExactOpenGroup (sha256 : String → String) (i : Identity) : Option AlertGroup :=
  s.groups.latest fun g =>
    matchesIdentity sha256 i g && g.status ≠ .resolved && g.status ≠ .merged

-- Keeps the orders by time computable where all of Mathlib is imported.
local instance : Preorder Instant := Int.instLinearOrder.toPreorder

/-- `find_resolved_reopen_candidate(…)`: the one that was resolved last. -/
def findResolvedReopenCandidate (sha256 : String → String) (i : Identity) (now : Instant)
    (windowSeconds : ℕ) : Option AlertGroup :=
  (s.groups.rows.filter fun g => matchesIdentity sha256 i g && g.status = .resolved &&
    g.resolvedAt.any fun at_ => now - seconds windowSeconds ≤ at_ ∧ at_ ≤ now).argmax
      fun g => toLex (g.resolvedAt.getD 0, g.id)

/-! ## Recalculation -/

/-- `_collect_group_labels(alerts)`. -/
def collectGroupLabels (alerts : List Alert) : Dict × Dict :=
  let keys := ((alerts.flatMap fun a => a.labels.asDict.map Prod.fst).eraseDups).insertionSort
    fun a b => a ≤ b
  let seen key := ((alerts.map fun a => Dict.getD a.labels.asDict key).filter (· ≠ .null)).eraseDups
  (keys.filterMap fun key => match seen key with
    | [v] => some (key, v)
    | _ => none,
   keys.filterMap fun key => match seen key with
    | [] => none
    | [_] => none
    | values => some (key, .list values))

def countStatus (status : Status) (alerts : List Alert) : ℕ :=
  alerts.countP fun a => a.status = status

/-- The newest alert of a group. -/
def newest (alerts : List Alert) : Option Alert :=
  alerts.argmax fun a => toLex (a.lastSeenAt, a.id)

/-- The summary of the newest alert. -/
def summarize (alerts : List Alert) (g : AlertGroup) : AlertGroup :=
  match newest alerts with
  | none => g
  | some a =>
    let labels := collectGroupLabels alerts
    { g with
      title := a.title
      message := a.message
      severity := a.severity
      lastSeenAt := a.lastSeenAt
      commonLabels := labels.1
      labelValues := labels.2
      payloadSummary := [("latest_alert_id", .int a.id), ("latest_dedup_key", .str a.dedupKey),
        ("latest_external_id", a.externalId), ("latest_payload", a.payload.orElse (.obj []))] }

/-- All alerts of a group that has some are resolved. -/
def allResolved (alerts : List Alert) : Bool :=
  !alerts.isEmpty && alerts.all fun a => a.status = .resolved

def reopenedFields (g : AlertGroup) (status : Status) : AlertGroup :=
  { g with status := status, resolvedAt := none, resolvedBy := none }

/-- The status that the alerts give the group. -/
def effectiveStatus (alerts : List Alert) (now : Instant) (g : AlertGroup) : AlertGroup :=
  if alerts.isEmpty then g
  else if allResolved alerts then
    { g with status := .resolved, resolvedAt := g.resolvedAt <|> some now }
  else if 0 < countStatus .firing alerts then
    if g.status = .acknowledged then g else reopenedFields g .firing
  else if 0 < countStatus .silenced alerts then reopenedFields g .silenced
  else if 0 < countStatus .acknowledged alerts then reopenedFields g .acknowledged
  else g

/-- The group after `recalculate_alert_group`. -/
def recalculated (alerts : List Alert) (now : Instant) (g : AlertGroup) : AlertGroup :=
  let counted := { summarize alerts g with
    alertCount := alerts.length
    firingCount := countStatus .firing alerts
    acknowledgedCount := countStatus .acknowledged alerts
    resolvedCount := countStatus .resolved alerts
    silencedCount := countStatus .silenced alerts
    silenced := 0 < alerts.length && countStatus .silenced alerts = alerts.length }
  let effective := effectiveStatus alerts now counted
  { effective with
    previousStatus := if effective.status ≠ g.status then some g.status else g.previousStatus
    updatedAt := now }

/-- `recalculate_alert_group(group)`. -/
def recalculateAlertGroup (g : AlertGroup) (now : Instant) : Store × AlertGroup :=
  let alerts := s.children g.id
  let g' := recalculated alerts now g
  let stamped :=
    if allResolved alerts then
      s.updateAlerts (fun a => childOf g.id a && a.resolvedAt.isNone)
        (fun a => { a with resolvedAt := some now }) (fun _ => rfl)
    else s
  (stamped.saveGroup g', g')

/-! ## Writing -/

/-- `update_alert_from_payload(alert, alert_data, status, group_key)`. -/
def updateAlertFromPayload (a : Alert) (alertData : Dict) (status : Status) (groupKey : String)
    (now : Instant) : Alert :=
  { a with
    lastSeenAt := now
    previousStatus := some a.status
    payload := alertData.getD "payload"
    labels := alertData.getD "labels"
    message := alertData.getD "message"
    severity := alertData.getD "severity"
    groupKey := groupKey
    status :=
      if (a.status = .acknowledged ∨ a.status = .silenced) ∧ status = .firing then a.status
      else status
    resolvedAt := if status = .resolved then a.resolvedAt <|> some now else a.resolvedAt }

/-- `restart_resolved_group(group, …)` on the row. -/
def restartResolvedGroup (g : AlertGroup) (now : Instant) : AlertGroup :=
  { g with
    previousStatus := some .resolved
    status := .firing
    acknowledgedBy := none
    acknowledgedAt := none
    resolvedBy := none
    resolvedAt := none
    updatedAt := now }

/-- `acknowledge_alert_group(group_id)`. -/
def acknowledgeAlertGroup (g : AlertGroup) (userId : Option ℕ) (now : Instant) : Store :=
  s.saveGroup { g with
    previousStatus := some g.status
    status := .acknowledged
    acknowledgedBy := userId
    acknowledgedAt := some now }

/-- `resolve_alert_group(group_id)`: the children first, then the group. -/
def resolveAlertGroup (g : AlertGroup) (userId : Option ℕ) (now : Instant) : Store :=
  let resolved := s.updateAlerts (fun a => childOf g.id a && a.status ≠ .resolved)
    (fun a => { a with status := .resolved, resolvedAt := some now }) (fun _ => rfl)
  resolved.saveGroup { g with
    previousStatus := some g.status
    status := .resolved
    resolvedBy := userId
    resolvedAt := some now
    firingCount := 0
    acknowledgedCount := 0
    resolvedCount := (resolved.children g.id).length
    updatedAt := now }

end Store

end IncidentRelay.Alerts
