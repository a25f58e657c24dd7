import IncidentRelay.Alerts.Store
import IncidentRelay.Orchestration.PauseRestore

/-!
# Taking in an event

`_upsert_alert` in two parts: the route that accepts the event, and what is then
written. Maintenance windows, silences, the acknowledgement policy, service rules
and group keys are functions of the state (`Services`); nothing is assumed of them.
-/

namespace IncidentRelay.Alerts

open Json Orchestration RouteSelection

/-! ## What an event is looked at with -/

/-- `window.behavior`. -/
inductive Behavior where
  | suppressNotifications
  | suppressIncident
  | pauseEscalationOnly
  | createMaintenanceIncident
  deriving DecidableEq, Repr

structure Services where
  sha256 : String → String
  accepts : Matching
  /-- `resolve_alert_service(route, alert_data)` -/
  resolveAlertService : Route → Dict → Option Service
  /-- `build_group_key(route, alert_data, service=…)` -/
  buildGroupKey : Route → Dict → Option Service → String
  /-- the behavior of the window of `get_maintenance_decision` -/
  maintenanceWindow : Route → Option Service → Instant → Option Behavior
  /-- `should_apply_window_to_group(decision.window, group)` -/
  shouldApplyWindow : Route → Option Service → Instant → AlertGroup → Bool
  /-- for each window that is applied to the group, the behaviors that are then active -/
  activeBehaviors : Store → AlertGroup → Instant → List (List Behavior)
  /-- `_original_status_for_group(group, …)` -/
  originalStatus : Store → AlertGroup → Status
  /-- `find_active_silences(team_id, alert_data)` finds one -/
  isSilenced : Id → Dict → Instant → Bool
  /-- `_should_preserve_acknowledgement(group, alert_data, route, …)` -/
  preserveAcknowledgement : Store → AlertGroup → Dict → Route → Bool → Bool

/-- An event with the route that accepts it: the variables of `_upsert_alert`
behind its routing. -/
structure Arrival where
  alertData : Dict
  route : Route
  service : Option Service
  runtime : RuntimeResult

/-- How a call ends. -/
inductive Outcome where
  | stopped (outcome : String)
  /-- `_completed_result`: the group, the alert and whether it is a new one -/
  | completed (group alert : ℕ) (created : Bool)
  deriving DecidableEq, Repr

namespace Arrival

variable (a : Arrival)

def source : String := (textIn a.alertData "source").getD ""

def dedupKey : String := (textIn a.alertData "dedup_key").getD ""

/-- `alert_data.get("status") or "firing"`. -/
def status : Status :=
  match textIn a.alertData "status" with
  | none => .firing
  | some "" => .firing
  | some text => .ofText text

/-- `runtime.group_key` or `build_group_key(…)`. -/
def groupKey (env : Services) : String :=
  match a.runtime.groupKey with
  | some key => if key.truthy then key.pyStr else env.buildGroupKey a.route a.alertData a.service
  | none => env.buildGroupKey a.route a.alertData a.service

def identity (env : Services) : Identity :=
  { source := a.source, groupKey := a.groupKey env, team := some a.route.team.id,
    route := some a.route.id, service := a.service.map (·.id) }

/-- `runtime.disposition == "suppress"`. -/
def suppressed : Bool := a.runtime.disposition = .suppress

def suppressReason : Option String := if a.suppressed then a.runtime.dispositionReason else none

end Arrival

/-! ## Routing -/

section Routing

variable {L : Language} (orc : Env L) (env : Services)

/-- The head of `_upsert_alert`: a reason to stop, or the event on its route. -/
def routeEvent (alertData : Dict) (runtime : RuntimeResult) :
    Except PyError (Outcome ⊕ Arrival) := do
  let found ← routeForRuntime orc.db env.accepts alertData (some runtime) none
  match found with
  | none => .ok (.inl (.stopped "routing_failed"))
  | some route =>
    let service := runtime.service <|> env.resolveAlertService route alertData
    match service with
    | none => .ok (.inr { alertData, route, service := none, runtime })
    | some service => do
      let (runtime, alertData) ←
        runServiceOrchestration orc alertData runtime (some route) (some route.team) (some service)
      if runtime.blocked then .ok (.inl (.stopped "orchestration_blocked"))
      else do
        let found ← routeForRuntime orc.db env.accepts alertData (some runtime) (some route)
        match found with
        | none => .ok (.inl (.stopped "routing_failed"))
        | some route =>
          let service := runtime.service <|> env.resolveAlertService route alertData
          .ok (.inr { alertData, route, service, runtime })

/-- The head of `upsert_alert`. -/
def routeIncoming (alertData : Dict) : Except PyError (Outcome ⊕ Arrival) := do
  let (runtime, alertData) ← runEventOrchestration orc alertData
  if runtime.blocked then .ok (.inl (.stopped "orchestration_blocked"))
  else if runtime.disposition = .drop ∧ textIn alertData "status" ≠ some "resolved" then
    .ok (.inl (.stopped "dropped"))
  else routeEvent orc env alertData runtime

end Routing

/-! ## Maintenance -/

section Writing

variable (env : Services)

/-- The children under maintenance get back the status they had. -/
def restoreChildren (s : Store) (groupId : ℕ) : Store :=
  let restored := s.updateAlerts
    (fun a => Store.childOf groupId a && a.status = .maintenance && a.previousStatus.isSome)
    (fun a => { a with status := a.previousStatus.getD .firing, previousStatus := none })
    (fun _ => rfl)
  restored.updateAlerts (fun a => Store.childOf groupId a && a.status = .maintenance)
    (fun a => { a with status := .firing }) (fun _ => rfl)

/-- `_recompute_group_effects(group, …)`. -/
def recomputeGroupEffects (s : Store) (g : AlertGroup) (behaviors : List Behavior)
    (now : Instant) : Store × AlertGroup :=
  let (s, g) :=
    if Behavior.createMaintenanceIncident ∈ behaviors ∧ g.status ≠ .resolved then
      (s.updateAlerts
        (fun a => Store.childOf g.id a && a.status ≠ .resolved && a.status ≠ .maintenance)
        (fun a => { a with status := .maintenance, previousStatus := some a.status })
        (fun _ => rfl),
       { g with
          previousStatus := if g.status ≠ .maintenance then some g.status else g.previousStatus
          status := .maintenance
          resolvedAt := none })
    else if g.status = .maintenance then
      let original := env.originalStatus s g
      let restored := { g with status := original, resolvedAt := none, resolvedBy := none }
      let (s, g) := ((restoreChildren s g.id).saveGroup restored).recalculateAlertGroup restored now
      (s, if original = .acknowledged ∧ g.status ≠ .resolved then { g with status := .acknowledged }
          else g)
    else (s, g)
  let g := { g with updatedAt := now }
  (s.saveGroup g, g)

/-- `reconcile_alert_group_maintenance(group)`: once for each window that applies. -/
def reconcileMaintenance (s : Store) (g : AlertGroup) (now : Instant) : Store × AlertGroup :=
  (env.activeBehaviors s g now).foldl
    (fun (state : Store × AlertGroup) behaviors =>
      recomputeGroupEffects env state.1 state.2 behaviors now) (s, g)

/-! ## The alert that is there -/

variable (a : Arrival) (now : Instant)

/-- The row of `_create_group(…)`. -/
def newGroup (id : ℕ) (status : Status) (firstSeenAt : Instant) (silenced : Bool) : AlertGroup :=
  { id
    team := some a.route.team.id
    route := some a.route.id
    service := a.service.map (·.id)
    source := a.source
    groupKey := a.groupKey env
    groupKeyHash := env.sha256 (a.groupKey env)
    title := a.alertData.getD "title"
    message := a.alertData.getD "message"
    severity := a.alertData.getD "severity"
    status
    firstSeenAt
    lastSeenAt := now
    silenced
    updatedAt := now
    orchestrationSuppressed := a.suppressed
    orchestrationSuppressReason := a.suppressReason }

def createGroup (s : Store) (status : Status) (firstSeenAt : Instant) (silenced : Bool) :
    Store × AlertGroup :=
  let g := newGroup env a now s.groups.next status firstSeenAt silenced
  ({ s with groups := s.groups.insert g rfl }, g)

/-- The existing alert with the payload and the routing of the event. -/
def refreshedAlert (existing : Alert) (status : Status) (groupId : ℕ) : Alert :=
  { Store.updateAlertFromPayload existing a.alertData status (a.groupKey env) now with
    team := some a.route.team.id
    route := some a.route.id
    service := a.service.map (·.id)
    group := some groupId
    orchestrationSuppressed := a.suppressed
    orchestrationSuppressReason := a.suppressReason }

/-- The group of the existing alert; one is created where there is none. -/
def groupForExisting (s : Store) (status : Status) (existing : Alert)
    (existingGroup : Option AlertGroup) : Store × AlertGroup :=
  match s.groupOf existing <|> existingGroup with
  | some g => (s, g)
  | none => createGroup env a now s status existing.firstSeenAt existing.silenced

/-- `_handle_existing_alert(…)`. -/
def handleExistingAlert (s : Store) (status : Status) (existing : Alert)
    (existingGroup : Option AlertGroup) : Store × Outcome :=
  let (s, g) := groupForExisting env a now s status existing existingGroup
  let g := { g with
    orchestrationSuppressed := a.suppressed, orchestrationSuppressReason := a.suppressReason }
  let s := (s.saveGroup g).saveAlert (refreshedAlert env a now existing status g.id)
  let (s, g) := reconcileMaintenance env s g now
  let (s, g) := s.recalculateAlertGroup g now
  (s, .completed g.id existing.id false)

/-! ## The alert that is new -/

/-- The row of `create_alert(…)`. -/
def newAlert (id groupId : ℕ) (status : Status) (silenced : Bool) : Alert :=
  { id
    group := some groupId
    team := some a.route.team.id
    route := some a.route.id
    service := a.service.map (·.id)
    source := a.source
    externalId := a.alertData.getD "external_id"
    dedupKey := a.dedupKey
    groupKey := a.groupKey env
    title := a.alertData.getD "title"
    message := a.alertData.getD "message"
    severity := a.alertData.getD "severity"
    labels := a.alertData.getD "labels"
    payload := a.alertData.getD "payload"
    status
    firstSeenAt := now
    lastSeenAt := now
    silenced
    orchestrationSuppressed := a.suppressed
    orchestrationSuppressReason := a.suppressReason }

/-- An acknowledged group on a new firing alert. -/
def reopenAcknowledged (s : Store) (g : AlertGroup) : Store × AlertGroup :=
  if env.preserveAcknowledgement s g a.alertData a.route (a.runtime.groupKey.any (·.truthy)) then
    (s, g)
  else
    let g := { g with
      previousStatus := some g.status
      status := .firing
      acknowledgedBy := none
      acknowledgedAt := none
      updatedAt := now }
    (s.saveGroup g, g)

/-- The group of a new alert: an open one, one that is reopened, or a new one. -/
def chooseGroup (s : Store) (status : Status) (silenced reopenEnabled : Bool)
    (openGroup : Option AlertGroup) : Store × AlertGroup :=
  let choice :=
    if reopenEnabled then
      match s.findExactOpenGroup env.sha256 (a.identity env) with
      | some g => some (s, g)
      | none =>
        (s.findResolvedReopenCandidate env.sha256 (a.identity env) now
          a.runtime.groupingReopenWindowSeconds).map fun candidate =>
            let g := Store.restartResolvedGroup candidate now
            (s.saveGroup g, g)
    else openGroup.map fun g => (s, g)
  match choice with
  | none => createGroup env a now s status now silenced
  | some (s, g) =>
    if g.status = .acknowledged ∧ status = .firing then reopenAcknowledged env a now s g
    else (s, g)

/-- The alert is created in its group, and the group is recalculated. -/
def createAlertIn (s : Store) (g : AlertGroup) (status : Status) (silenced : Bool) :
    Store × Outcome :=
  let g := { g with
    orchestrationSuppressed := a.suppressed, orchestrationSuppressReason := a.suppressReason }
  let (s, g) := reconcileMaintenance env (s.saveGroup g) g now
  let alert := newAlert env a now s.alerts.next g.id status silenced
  let s := { s with alerts := s.alerts.insert alert rfl }
  let (s, g) := reconcileMaintenance env s g now
  let (s, g) := s.recalculateAlertGroup g now
  (s, .completed g.id alert.id true)

/-- The rest of `_upsert_alert` where no alert is there. -/
def createForNew (s : Store) (status : Status) (reopenEnabled : Bool)
    (openGroup : Option AlertGroup) : Store × Outcome :=
  let silenced := env.isSilenced a.route.team.id a.alertData now
  let status := if silenced ∧ status = .firing then .silenced else status
  let raced :=
    if reopenEnabled then
      (s.findExistingAlert a.source a.dedupKey (some a.route.id)).bind fun raced =>
        (s.groupOf raced).bind fun g =>
          if Store.matchesIdentity env.sha256 (a.identity env) g then some (g, raced) else none
    else none
  match raced with
  | some (g, raced) => (s, .completed g.id raced.id false)
  | none =>
    let (s, g) := chooseGroup env a now s status silenced reopenEnabled openGroup
    createAlertIn env a now s g status silenced

/-! ## The event -/

/-- `existing_alert`, after the identity rules of an active reopen policy. -/
def lookupExisting (s : Store) : Option Alert :=
  (s.findExistingAlert a.source a.dedupKey none).filter fun existing =>
    a.runtime.groupingReopenWindowSeconds = 0 ||
      (s.groupOf existing).any (Store.matchesIdentity env.sha256 (a.identity env))

/-- The maintenance decision, where it applies to the group of the event. -/
def maintenanceDecision (target : Option AlertGroup) : Option Behavior :=
  (env.maintenanceWindow a.route a.service now).filter fun _ =>
    target.all (env.shouldApplyWindow a.route a.service now)

/-- The status of the event under a maintenance decision. -/
def statusUnder (decision : Option Behavior) : Status :=
  if decision = some .createMaintenanceIncident then .maintenance else a.status

/-- `_upsert_alert` behind the pause and drop dispositions. -/
def persistEvent (s : Store) : Store × Outcome :=
  let existing := lookupExisting env a s
  let openGroup := s.findOpenAlertGroup env.sha256 (a.identity env)
  let decision := maintenanceDecision env a now ((existing.bind s.groupOf) <|> openGroup)
  let status := statusUnder a decision
  let reopenEnabled := 0 < a.runtime.groupingReopenWindowSeconds ∧ a.status = .firing ∧
    (status = .firing ∨ status = .silenced)
  if decision = some .suppressIncident ∧ existing = none ∧ openGroup = none then
    (s, .stopped "suppressed")
  else match existing with
    | some existing => handleExistingAlert env a now s status existing openGroup
    | none =>
      if status = .resolved then (s, .stopped "ignored")
      else createForNew env a now s status reopenEnabled openGroup

end Writing

end IncidentRelay.Alerts
