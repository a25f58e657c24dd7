import IncidentRelay.Alerts.Upsert

/-!
# Intake, activation and follow-ups

The state is the two tables of alerts and the table of paused events. Its steps are
a call of `upsert_alert`, a run of `process_due_pending_events` and a follow-up of
the PagerDuty-compatible endpoint. A call that raises leaves the state, and the
transaction of an activation is taken back when it raises.
-/

namespace IncidentRelay.Alerts

open Json Orchestration RouteSelection Pending Redaction

/-! ## The state -/

structure World where
  store : Store
  pending : IdTable PendingOrchestratedEvent (·.id)
  nextToken : ℕ

def World.init : World where
  store := .empty
  pending := .empty
  nextToken := 1

/-- An installation: the tables that events do not change, the settings, and what
the rest of the application answers. -/
structure Site (L : Language) extends Services where
  orc : Env L
  chars : CharClasses
  settings : Settings
  /-- the text of the error that ends the activation of a row -/
  activationError : PendingOrchestratedEvent → String
  /-- a service rule names a row of the table -/
  service_mem : ∀ route alertData, ∀ service ∈ resolveAlertService route alertData,
    service ∈ orc.db.services

section Intake

variable {L : Language} (site : Site L)

/-! ## Paused events -/

/-- The key of a paused event of a group. -/
def activeKey (groupId : Id) (source dedupKey : String) : String :=
  pendingActiveKey site.sha256 groupId source dedupKey

def World.findActive (w : World) (key : String) : Option PendingOrchestratedEvent :=
  w.pending.rows.find? fun r => r.activeKey = some key

def World.updatePending (w : World) (guard : PendingOrchestratedEvent → Bool)
    (set : PendingOrchestratedEvent → PendingOrchestratedEvent) (hset : ∀ r, (set r).id = r.id) :
    World :=
  { w with pending := w.pending.update guard set hset }

/-- `resolve_pending_event(…)`, when there is an active row. -/
def resolvePendingEvent (groupId : Id) (source dedupKey : String) (now : Instant) (w : World) :
    Option World :=
  let key := activeKey site groupId source dedupKey
  (w.findActive key).map fun current =>
    w.updatePending (resolveGuard key current) (resolveRow now current) fun _ => rfl

def retriggerOf : PauseRetrigger → Retrigger
  | .preserve => .preserve
  | .reset => .reset

/-- The arguments of `store_paused_event`. -/
def Arrival.pauseArguments (a : Arrival) (now : Instant) : PauseArguments where
  runtimeGroupId := a.runtime.groupId.map fun n => (n : ℕ)
  routeGroupId := a.route.team.group.map fun n => (n : ℕ)
  source := a.source
  dedupKey := a.dedupKey
  pauseSeconds := a.runtime.pauseSeconds.map fun n => (n : Int)
  retrigger := retriggerOf a.runtime.pauseRetrigger
  provenance := a.runtime.dispositionOrchestrationId.bind fun orchestration =>
    a.runtime.dispositionVersionId.map fun version => ((orchestration : ℕ), (version : ℕ))
  route := some a.route.id
  service := (a.service <|> a.runtime.service).map fun s => (s.id : ℕ)
  integrationName := ((textIn a.alertData "integration_name").filter (· ≠ "")).getD a.source
  storedEvent := eventForStorage a.alertData
  runtimeContext := fun previous =>
    .obj (runtimeContext site.chars a.runtime previous.asDict (toString now))

theorem PauseRequest.refresh_id (r : PauseRequest) (current row : PendingOrchestratedEvent) :
    (r.refresh current row).id = row.id := by
  unfold PauseRequest.refresh
  split_ifs
  · rfl
  · rfl

/-- `store_paused_event(…)`. -/
def storePausedEvent (a : Arrival) (now : Instant) (w : World) : Except String World := do
  let request ← (Arrival.pauseArguments site a now).check now
  match w.findActive (request.key site.sha256) with
  | none =>
    .ok { w with pending := w.pending.insert (request.newRow site.sha256 w.pending.next) rfl }
  | some current =>
    .ok (w.updatePending (request.refreshGuard site.sha256 current) (request.refresh current)
      (PauseRequest.refresh_id request current))

/-! ## The event on its route -/

/-- A resolved event ends the pending row of its key, when there is one. -/
def clearPending (a : Arrival) (now : Instant) (w : World) : Option World :=
  if a.status = .resolved then
    a.route.team.group.bind fun groupId =>
      resolvePendingEvent site groupId a.source a.dedupKey now w
  else none

/-- `_upsert_alert` behind the routing. -/
def upsertRouted (a : Arrival) (now : Instant) (w : World) : Except String (World × Outcome) :=
  match clearPending site a now w with
  | some w => .ok (w, .stopped "resolved_before_activation")
  | none =>
    if a.runtime.disposition = .drop then .ok (w, .stopped "dropped")
    else if a.runtime.disposition = .pause then do
      let w ← storePausedEvent site a now w
      .ok (w, .stopped "paused")
    else
      let (store, outcome) := persistEvent site.toServices a now w.store
      .ok ({ w with store }, outcome)

/-- The event on the route that accepts it, when one does. -/
def arrivalOf (routed : Except PyError (Outcome ⊕ Arrival)) : Option Arrival :=
  match routed with
  | .ok (.inr a) => some a
  | _ => none

/-- The event of a call of `upsert_alert`. -/
def incoming (alertData : Dict) : Option Arrival :=
  arrivalOf (routeIncoming site.orc site.toServices alertData)

/-- The state after a routed event: as it was, where the call raises. -/
def deliver (a : Arrival) (now : Instant) (w : World) : World :=
  match upsertRouted site a now w with
  | .ok (w, _) => w
  | .error _ => w

/-- The state after `upsert_alert(alert_data)`. -/
def upsertAlert (alertData : Dict) (now : Instant) (w : World) : World :=
  match incoming site alertData with
  | some a => deliver site a now w
  | none => w

/-! ## Activation -/

/-- The event of a claimed row, on the route that now accepts it. -/
def resumedArrival (row : PendingOrchestratedEvent) : Option Arrival :=
  arrivalOf (routeEvent site.orc site.toServices row.normalizedEventJson
    (activationRuntime site.orc.db row.contextJson.asDict))

/-- The transaction of `_activate_claimed`; nothing where it raises. -/
def activateClaimed (row : PendingOrchestratedEvent) (now : Instant) (w : World) :
    Option World :=
  (resumedArrival site row).bind fun a =>
    match upsertRouted site a now w with
    | .ok (w, .completed _ _ _) =>
      if Table.affected (heldGuard row) w.pending.rows = 1 then
        some (w.updatePending (heldGuard row) (activatedRow now a.alertData) fun _ => rfl)
      else none
    | _ => none

/-- `_claim_one`: the state with the claim, and the claimed row. -/
def claimOne (rowId : ℕ) (now : Instant) (w : World) :
    Option (World × PendingOrchestratedEvent) :=
  (w.pending.rows.find? (claimGuard rowId)).map fun row =>
    ({ w.updatePending (claimGuard rowId) (claimRow w.nextToken now) (fun _ => rfl) with
        nextToken := w.nextToken + 1 },
      claimRow w.nextToken now row)

/-- One round of `process_due_pending_events`. -/
def activateOne (now : Instant) (w : World) (rowId : ℕ) : World :=
  match claimOne rowId now w with
  | none => w
  | some (w, row) =>
    match activateClaimed site row now w with
    | some w => w
    | none =>
      w.updatePending (heldGuard row)
        (failedRow site.settings now (site.activationError row) row) fun _ => rfl

/-- `_requeue_stale_claims`. -/
def requeueStale (now : Instant) (w : World) : World :=
  w.updatePending (staleGuard site.settings now) (requeueRow now) fun _ => rfl

/-- `process_due_pending_events(limit)`. -/
def processDue (limit : ℕ) (now : Instant) (w : World) : World :=
  let w := requeueStale site now w
  (dueIds limit now w.pending.rows).foldl (activateOne site now) w

/-! ## Follow-ups -/

/-- `acknowledge_alert(group_id)`. -/
def acknowledgeAlert (g : AlertGroup) (now : Instant) (s : Store) : Store :=
  if g.status = .acknowledged ∨ g.status = .resolved ∨ g.status = .merged ∨
    g.mergedInto.isSome = true then s
  else s.acknowledgeAlertGroup g none now

/-- `resolve_alert(group_id)`. -/
def resolveAlert (g : AlertGroup) (now : Instant) (s : Store) : Store :=
  if g.status = .resolved ∨ g.status = .merged ∨ g.mergedInto.isSome = true then s
  else s.resolveAlertGroup g none now

inductive FollowUp where
  | acknowledge
  | resolve
  deriving DecidableEq, Repr

/-- The group of the alert that a follow-up on the route is about. -/
def followUpGroup (route : Route) (dedupKey : String) (s : Store) : Option AlertGroup :=
  (s.findExistingAlert "webhook" dedupKey (some route.id)).bind s.groupOf

/-- `_process_pagerduty_events_v2(alert_data)` on an `acknowledge` or a `resolve`. -/
def processFollowUp (route : Route) (action : FollowUp) (dedupKey : String) (now : Instant)
    (w : World) : World :=
  if route.source ≠ "webhook" then w
  else match followUpGroup route dedupKey w.store with
    | none => w
    | some g =>
      match action with
      | .acknowledge => { w with store := acknowledgeAlert g now w.store }
      | .resolve => { w with store := resolveAlert g now w.store }

/-! ## Runs -/

inductive Label where
  | upsert (alertData : Dict) (now : Instant)
  | processDue (limit : ℕ) (now : Instant)
  | followUp (route : Route) (action : FollowUp) (dedupKey : String) (now : Instant)

def step (w : World) : Label → World
  | .upsert alertData now => upsertAlert site alertData now w
  | .processDue limit now => processDue site limit now w
  | .followUp route action dedupKey now => processFollowUp route action dedupKey now w

end Intake

end IncidentRelay.Alerts
