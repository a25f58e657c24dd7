import IncidentRelay.Orchestration.Engine
import IncidentRelay.Orchestration.Entities

/-!
# Running the published orchestrations

`run_event_orchestration` and `run_service_orchestration`. An orchestration is
evaluated against the context of the event; when it is active and not in legacy
mode its result is a candidate, which is applied after the entities it selects
are loaded. A failure inside `_run_one` or in the selection ends the step; what
is raised outside of them is raised by the run.
-/

namespace IncidentRelay.Orchestration

open Json

/-! ## Rows and results -/

inductive Scope where
  | global
  | service
  deriving DecidableEq, Repr

inductive Mode where
  | active
  | shadow
  | disabled
  deriving DecidableEq, Repr

inductive CompatibilityMode where
  | legacy
  | hybrid
  | orchestration
  deriving DecidableEq, Repr

/-- `_COMPATIBILITY_ORDER`. -/
def CompatibilityMode.order : CompatibilityMode → Nat
  | .legacy => 0
  | .hybrid => 1
  | .orchestration => 2

def CompatibilityMode.text : CompatibilityMode → String
  | .legacy => "legacy"
  | .hybrid => "hybrid"
  | .orchestration => "orchestration"

/-- A published version with its definition. -/
structure Version (L : Language) where
  id : Id
  rules : List (Rule L)

structure Orchestration (L : Language) where
  id : Id
  group : Id
  scope : Scope
  service : Option Id
  mode : Mode
  compatibilityMode : CompatibilityMode
  enabled : Bool
  deleted : Bool
  activeVersionId : Option Id
  /-- the version under `active_version_id`, when it is published -/
  published : Option (Version L)

structure RuntimeStep where
  orchestrationId : Id
  versionId : Option Id
  scope : Scope
  mode : Mode
  compatibilityMode : CompatibilityMode
  applied : Bool
  executionId : Option Id
  matchedRuleCount : Nat := 0
  outcome : String := "continue"
  error : Option String := none
  deriving DecidableEq

structure RuntimeResult where
  groupId : Option Id := none
  compatibilityMode : CompatibilityMode := .legacy
  route : Option Route := none
  team : Option TeamRow := none
  service : Option Service := none
  escalationPolicy : Option Policy := none
  priorityPolicy : Option Policy := none
  notificationPolicy : Option Policy := none
  groupKey : Option Json := none
  groupingWindowSeconds : Option Nat := none
  groupingReopenWindowSeconds : Nat := 0
  traceLevel : Option TraceLevel := none
  alertEventHistory : Option HistoryLevel := none
  routeSelectedByOrchestration : Bool := false
  steps : List RuntimeStep := []
  blocked : Bool := false
  reason : Option String := none
  disposition : Disposition := .process
  dispositionReason : Option String := none
  pauseSeconds : Option Nat := none
  pauseRetrigger : PauseRetrigger := .preserve
  dispositionOrchestrationId : Option Id := none
  dispositionVersionId : Option Id := none
  evaluatedServiceIds : List Id := []
  context : Option Context := none
  deriving DecidableEq

/-- What a run reads: the tables, the settings and the clock. -/
structure Env (L : Language) where
  db : Entities
  /-- in the order of their ids -/
  orchestrations : List (Orchestration L)
  defaultHistory : HistoryLevel
  now : String
  /-- the row that `_safe_record_execution` stores, when it can -/
  recordExecution : Id → Option Id

variable {L : Language}

/-! ## One orchestration -/

/-- `list_runtime_orchestrations(group_id=…, scope=…, service_id=…)`. -/
def listRuntimeOrchestrations (env : Env L) (groupId : Id) (scope : Scope)
    (serviceId : Option Id) : List (Orchestration L) :=
  env.orchestrations.filter fun o => o.group = groupId ∧ o.scope = scope ∧ o.enabled = true ∧
    o.mode ≠ .disabled ∧ o.activeVersionId.isSome = true ∧ o.deleted = false ∧
    (scope = .service → o.service = serviceId)

/-- Active and not in legacy mode: its result is applied. -/
def Orchestration.applies (o : Orchestration L) : Bool :=
  o.mode = .active && o.compatibilityMode ≠ .legacy

/-- Active in legacy mode: it is not executed at all. -/
def Orchestration.skipped (o : Orchestration L) : Bool :=
  o.mode = .active && o.compatibilityMode = .legacy

/-- Active in orchestration mode: its failure blocks. -/
def Orchestration.blocks (o : Orchestration L) : Bool :=
  o.mode = .active && o.compatibilityMode = .orchestration

/-- The rules of the published version on the context. -/
def evaluateRules (env : Env L) (o : Orchestration L) (context : Context) :
    Except PyError (Version L × LevelResult) :=
  match o.published with
  | none => .error (.other "OrchestrationConflict")
  | some version => do
    let result ← executeRuleTree L env.defaultHistory version.rules context
    .ok (version, result)

/-- The outcome of `execute_rule_tree`. -/
def LevelResult.outcome (r : LevelResult) : String :=
  if r.state.result.dropped then "drop" else if r.stopped then "stop" else "continue"

/-- `_run_one(orchestration, context, alert_data)`. -/
def runOne (env : Env L) (o : Orchestration L) (context : Context) :
    Option LevelResult × RuntimeStep :=
  let step : RuntimeStep :=
    { orchestrationId := o.id, versionId := o.published.map (·.id) <|> o.activeVersionId,
      scope := o.scope, mode := o.mode, compatibilityMode := o.compatibilityMode, applied := false,
      executionId := if o.published.isSome then env.recordExecution o.id else none }
  match evaluateRules env o context with
  | .ok (_, result) =>
    (some result, { step with applied := o.applies, matchedRuleCount := result.matched,
                              outcome := result.outcome })
  | .error e => (none, { step with error := some e.className, outcome := "failed" })

/-! ## Selected entities -/

/-- The entities that are in force: a route, its team and a service, and the
policies. -/
structure Selection where
  route : Option Route
  team : Option TeamRow
  service : Option Service
  escalation : Option Policy
  priority : Option Policy
  notification : Option Policy
  deriving DecidableEq

/-- The route of `_resolve_selected_entities`, before the service is looked at. -/
def selectRoute (db : Entities) (routing : Routing) (groupId : Id) (source : Option String)
    (fallback : Option Route) : Except String (Option Route) :=
  if routing.routeId.isSome then db.loadRoute routing.routeId groupId source
  else if routing.teamId.isSome then .ok none
  else .ok fallback

def selectTeam (db : Entities) (routing : Routing) (groupId : Id) (route : Option Route)
    (fallback : Option TeamRow) : Except String (Option TeamRow) :=
  if routing.teamId.isSome then db.loadTeam routing.teamId groupId
  else match route with
    | some r => .ok (some r.team)
    | none => .ok fallback

/-- The service, and the route and team that go with it. -/
def selectService (db : Entities) (routing : Routing) (groupId : Id) (route : Option Route)
    (team : Option TeamRow) (fallback : Option Service) :
    Except String (Option Route × Option TeamRow × Option Service) :=
  if routing.serviceId.isSome then do
    let service ← db.loadService routing.serviceId groupId
    if routing.teamId.isNone && routing.routeId.isNone then
      let team := service.map (·.team)
      let route := route.filter fun r => team.all fun t => r.team.id = t.id
      .ok (route, team, service)
    else .ok (route, team, service)
  else match fallback with
    | some service => .ok (route, team, some service)
    | none => .ok (route, team, route.bind (·.service))

/-- The policy that an action selected, or the one in force. -/
def selectPolicy (policies : List Policy) (policyId : Option Id) (groupId : Id)
    (teamId : Option Id) (fallback : Option Policy) : Except String (Option Policy) :=
  if policyId.isSome then loadPolicy policies policyId groupId teamId else .ok fallback

/-- `_resolve_selected_entities(context, …)`; the error is the message of
`RuntimeOrchestrationError`. -/
def resolveSelectedEntities (db : Entities) (result : ActionResult) (groupId : Id)
    (source : Option String) (fallback : Selection) : Except String Selection := do
  let route ← selectRoute db result.routing groupId source fallback.route
  let team ← selectTeam db result.routing groupId route fallback.team
  let (route, team, service) ←
    selectService db result.routing groupId route team fallback.service
  if route.any fun r => team.any fun t => r.team.id ≠ t.id then
    .error "selected route and team do not match"
  else if service.any fun s => team.any fun t => s.team.id ≠ t.id then
    .error "selected service and team do not match"
  else do
    let teamId := team.map (·.id)
    let escalation ← selectPolicy db.escalationPolicies result.policies.escalationPolicyId groupId
      teamId fallback.escalation
    let priority ← selectPolicy db.priorityPolicies result.policies.priorityPolicyId groupId
      teamId fallback.priority
    let notification ← selectPolicy db.notificationPolicies result.policies.notificationPolicyId
      groupId teamId fallback.notification
    .ok { route, team, service, escalation, priority, notification }

/-! ## The loop over the orchestrations -/

/-- The variables of the loop. -/
structure Loop where
  context : Context
  route : Option Route
  team : Option TeamRow
  service : Option Service
  runtime : RuntimeResult
  deriving DecidableEq

/-- The entities in force before an orchestration. -/
def Loop.selection (s : Loop) : Selection :=
  { route := s.route, team := s.team, service := s.service,
    escalation := s.runtime.escalationPolicy, priority := s.runtime.priorityPolicy,
    notification := s.runtime.notificationPolicy }

def Loop.addStep (s : Loop) (step : RuntimeStep) : Loop :=
  { s with runtime := { s.runtime with steps := s.runtime.steps ++ [step] } }

def Loop.block (s : Loop) (reason : String) : Loop :=
  { s with runtime := { s.runtime with blocked := true, reason := some reason } }

def contextOf {α : Type} (f : α → Dict) (entity : Option α) : Dict := (entity.map f).getD []

/-- `_refresh_entity_context(context, route=…, team=…, service=…)`. -/
def refreshEntityContext (context : Context) (route : Option Route) (team : Option TeamRow)
    (service : Option Service) : Context :=
  { context with
    route := contextOf Route.context route
    team := contextOf TeamRow.context team
    service := contextOf Service.context service }

/-- A value that is neither `None` nor the empty text. -/
def given (value : Json) : Option Json :=
  if value = .null ∨ value = .str "" then none else some value

/-- The disposition of the result, where it is not `process`. -/
def applyDisposition (o : Orchestration L) (step : RuntimeStep) (result : ActionResult)
    (runtime : RuntimeResult) : RuntimeResult :=
  let decided := { runtime with
    disposition := result.disposition
    dispositionOrchestrationId := some o.id
    dispositionVersionId := step.versionId }
  match result.disposition with
  | .process => runtime
  | .suppress => { decided with dispositionReason := result.suppressReason }
  | .pause => { decided with
      dispositionReason := result.pauseReason
      pauseSeconds := result.pauseSeconds
      pauseRetrigger := result.pauseRetrigger }
  | .drop => { decided with dispositionReason := result.dropReason }

/-- The candidate becomes the state of the loop. -/
def commit (o : Orchestration L) (step : RuntimeStep) (context : Context) (result : ActionResult)
    (selected : Selection) (s : Loop) : Loop :=
  let runtime := s.runtime
  let runtime := { runtime with
    steps := runtime.steps ++ [step]
    compatibilityMode :=
      if runtime.compatibilityMode.order < o.compatibilityMode.order then o.compatibilityMode
      else runtime.compatibilityMode
    route := selected.route
    team := selected.team
    service := selected.service
    escalationPolicy := selected.escalation
    priorityPolicy := selected.priority
    notificationPolicy := selected.notification
    routeSelectedByOrchestration :=
      runtime.routeSelectedByOrchestration || result.routing.routeId.isSome
    groupKey := (result.grouping.groupKey.bind fun key => given (.str key)) <|>
      given (context.event.getD "group_key") <|> runtime.groupKey
    groupingWindowSeconds := result.grouping.windowSeconds <|> runtime.groupingWindowSeconds
    groupingReopenWindowSeconds :=
      result.grouping.reopenWindowSeconds.getD runtime.groupingReopenWindowSeconds
    traceLevel :=
      if o.scope = .global then result.traceLevel <|> runtime.traceLevel else runtime.traceLevel
    alertEventHistory := some result.alertEventHistory }
  { context := refreshEntityContext context selected.route selected.team selected.service
    route := selected.route
    team := selected.team
    service := selected.service
    runtime := applyDisposition o step result runtime }

/-- Whether the loop goes on to the next orchestration. -/
inductive Next where
  | proceed
  | stop
  deriving DecidableEq

/-- One round of `_evaluate_orchestrations` on an orchestration that is not
skipped. The candidate's context is copied before anything can be caught. -/
def evaluateOne (env : Env L) (groupId : Id) (source : Option String) (o : Orchestration L)
    (s : Loop) : Except PyError (Loop × Next) :=
  match runOne env o s.context with
  | (none, step) =>
    let s := s.addStep step
    if o.blocks then .ok (s.block "Active orchestration evaluation failed", .stop)
    else .ok (s, .proceed)
  | (some candidate, step) =>
    if !step.applied then .ok (s.addStep step, .proceed)
    else do
      let context ← candidate.state.toDict
      let result := candidate.state.result
      match resolveSelectedEntities env.db result groupId source s.selection with
      | .error message =>
        -- `_mark_execution_rejected`
        let rejected := { step with
          applied := false, outcome := "rejected", error := some "RuntimeOrchestrationError" }
        let s := s.addStep rejected
        if o.compatibilityMode = .orchestration then .ok (s.block message, .stop)
        else .ok (s, .proceed)
      | .ok selected => .ok (commit o step context result selected s, .proceed)

/-- `_evaluate_orchestrations(orchestrations, …)`. -/
def evaluateOrchestrations (env : Env L) (groupId : Id) (source : Option String) :
    List (Orchestration L) → Loop → Except PyError Loop
  | [], s => .ok { s with runtime := { s.runtime with context := some s.context } }
  | o :: os, s =>
    if o.skipped then evaluateOrchestrations env groupId source os s
    else do
      let (s, next) ← evaluateOne env groupId source o s
      match next with
      | .proceed => evaluateOrchestrations env groupId source os s
      | .stop => .ok { s with runtime := { s.runtime with context := some s.context } }

/-- `_evaluate_service_chain(alert_data, runtime, …)`, with the handoffs that are
left. -/
def evaluateServiceChain (env : Env L) (groupId : Id) (source : Option String) :
    Nat → Loop → Except PyError Loop
  | left, s =>
    match s.service with
    | none => .ok s
    | some service =>
      if s.runtime.blocked then .ok s
      else if service.id ∈ s.runtime.evaluatedServiceIds then .ok s
      else match left with
        | 0 => .ok { s with runtime := { s.runtime with
            blocked := s.runtime.compatibilityMode = .orchestration
            reason := some "Service orchestration handoff limit exceeded" } }
        | left + 1 => do
          let s := { s with runtime := { s.runtime with
            evaluatedServiceIds := s.runtime.evaluatedServiceIds ++ [service.id] } }
          let s ← evaluateOrchestrations env groupId source
            (listRuntimeOrchestrations env groupId .service (some service.id)) s
          evaluateServiceChain env groupId source left s

def maxServiceHandoffs : Nat := 8

/-! ## The event -/

/-- A row id. -/
def idOf : Json → Option Id
  | .int n => if h : 0 < n.toNat then some ⟨n.toNat, h⟩ else none
  | _ => none

def textIn (alertData : Dict) (key : String) : Option String :=
  match alertData.getD key with
  | .str s => some s
  | _ => none

/-- `_group_id_from_alert(alert_data)`. -/
def groupIdFromAlert (db : Entities) (alertData : Dict) : Option Id :=
  match given ((alertData.getD "orchestration_group_id").orElse (alertData.getD "group_id")) with
  | some explicit => idOf explicit
  | none =>
    if (alertData.getD "forced_route_id").truthy then
      ((idOf (alertData.getD "forced_route_id")).bind (byId (·.id) db.routes)).bind
        (·.team.group)
    else if (alertData.getD "forced_team_id").truthy then
      ((idOf (alertData.getD "forced_team_id")).bind
        (byId (fun t : TeamRow => t.id) db.teams)).bind (·.group)
    else
      ((textIn alertData "team_slug").filter (· ≠ "")).bind fun slug =>
        (db.teams.find? fun t => t.slug = slug).bind (·.group)

/-- `_initial_entities(alert_data, group_id)`. -/
def initialEntities (db : Entities) (alertData : Dict) (groupId : Id) :
    Except String (Option Route × Option TeamRow × Option Service) := do
  let route ← db.loadRoute (idOf (alertData.getD "forced_route_id")) groupId
    (textIn alertData "source")
  let team ← match route with
    | some r => .ok (some r.team)
    | none => db.loadTeam (idOf (alertData.getD "forced_team_id")) groupId
  let service ← match idOf (alertData.getD "service_id") with
    | some id => db.loadService (some id) groupId
    | none => .ok (route.bind (·.service))
  .ok (route, team, service)

/-- The keys of the alert data that are no part of the event. -/
def contextKey (key : String) : Bool :=
  key != "payload" && key != "raw" && !"_orchestration".toList.isPrefixOf key.toList

/-- `_build_runtime_context(alert_data, …)`. -/
def buildRuntimeContext (now : String) (alertData : Dict) (route : Option Route)
    (team : Option TeamRow) (service : Option Service) : Context :=
  let event := alertData.filter fun kv => contextKey kv.1
  buildContext event (Dict.getD event "labels").asDict
    ((alertData.getD "raw").orElse (alertData.getD "payload")).asDict
    (contextOf Route.context route) (contextOf TeamRow.context team)
    (contextOf Service.context service)
    [("name", alertData.getD "source"), ("source", alertData.getD "source")]
    [("now", .str now)]

/-! ## What the run writes back -/

def mutableEventFields : List String :=
  ["title", "message", "description", "severity", "priority", "dedup_key", "group_key", "labels",
    "custom_details", "event_action"]

/-- `alert_data[key] = event[key]` where the event has the key. -/
def copyField (event alertData : Dict) (key : String) : Dict :=
  match event.get key with
  | some v => alertData.set key v
  | none => alertData

def setId (alertData : Dict) (key : String) (id : Option Id) : Dict :=
  match id with
  | some n => alertData.set key (.int n)
  | none => alertData

/-- `_apply_runtime_to_alert_data(runtime, alert_data)`. -/
def applyRuntimeToAlertData (runtime : RuntimeResult) (alertData : Dict) : Dict :=
  if runtime.blocked || !runtime.steps.any (·.applied) then alertData
  else
    let event : Dict := (runtime.context.map (·.event)).getD []
    let data := mutableEventFields.foldl (copyField event) alertData
    let data := match Dict.getD event "event_action" with
      | .str "resolve" => data.set "status" (.str "resolved")
      | .str "trigger" => data.set "status" (.str "firing")
      | _ => data
    let data := match runtime.route, runtime.team with
      | some route, _ =>
        (data.set "forced_route_id" (.int route.id)).set "forced_team_id" (.int route.team.id)
      | none, some team => (data.pop "forced_route_id").set "forced_team_id" (.int team.id)
      | none, none => data
    let data := setId data "service_id" (runtime.service.map (·.id))
    let data := match runtime.groupKey with
      | some key => if key.truthy then data.set "orchestration_group_key" key else data
      | none => data
    let data := setId data "orchestration_priority_policy_id" (runtime.priorityPolicy.map (·.id))
    let data := setId data "orchestration_escalation_policy_id"
      (runtime.escalationPolicy.map (·.id))
    let data := setId data "orchestration_notification_policy_id"
      (runtime.notificationPolicy.map (·.id))
    match given (Dict.getD event "priority") with
    | some priority =>
      (data.set "priority" priority).set "priority_set_by_orchestration" (.bool true)
    | none => data

/-- Orchestration mode needs a route at the end. -/
def requireRoute (runtime : RuntimeResult) : RuntimeResult :=
  if !runtime.blocked && runtime.compatibilityMode = .orchestration && runtime.route.isNone then
    { runtime with
      blocked := true, reason := some "Orchestration mode requires a selected route" }
  else runtime

/-- The end of a run: the loop's entities and context are those of the result. -/
def Loop.finish (s : Loop) : RuntimeResult :=
  requireRoute { s.runtime with
    context := some s.context, route := s.route, team := s.team, service := s.service }

/-- The loop at the head of `run_event_orchestration`. -/
def startLoop (env : Env L) (alertData : Dict) (groupId : Id) (route : Option Route)
    (team : Option TeamRow) (service : Option Service) : Loop :=
  { context := buildRuntimeContext env.now alertData route team service
    route, team, service
    runtime := { groupId := some groupId, route, team, service } }

/-- The global orchestrations, and those of the service that is then selected. -/
def runLoop (env : Env L) (groupId : Id) (source : Option String) (s : Loop) :
    Except PyError Loop := do
  let s ← evaluateOrchestrations env groupId source
    (listRuntimeOrchestrations env groupId .global none) s
  if s.runtime.blocked then .ok s
  else evaluateServiceChain env groupId source maxServiceHandoffs s

/-- `run_event_orchestration(alert_data)`, with the alert data it leaves. -/
def runEventOrchestration (env : Env L) (alertData : Dict) :
    Except PyError (RuntimeResult × Dict) :=
  match groupIdFromAlert env.db alertData with
  | none => .ok ({}, alertData)
  | some groupId =>
    let globals := listRuntimeOrchestrations env groupId .global none
    match initialEntities env.db alertData groupId with
    | .error message =>
      if globals.any (·.blocks) then
        .ok ({ groupId := some groupId, blocked := true, reason := some message }, alertData)
      else .ok ({ groupId := some groupId }, alertData)
    | .ok (route, team, service) =>
      if globals.isEmpty && service.isNone then
        .ok ({ groupId := some groupId, route, team, service }, alertData)
      else do
        let s ← runLoop env groupId (textIn alertData "source")
          (startLoop env alertData groupId route team service)
        let runtime := s.finish
        .ok (runtime, applyRuntimeToAlertData runtime alertData)

/-- `run_service_orchestration(alert_data, runtime, route=…, team=…, service=…)`. -/
def runServiceOrchestration (env : Env L) (alertData : Dict) (runtime : RuntimeResult)
    (route : Option Route) (team : Option TeamRow) (service : Option Service) :
    Except PyError (RuntimeResult × Dict) :=
  match runtime.groupId with
  | none => .ok (runtime, alertData)
  | some groupId =>
    if runtime.blocked || service.isNone then .ok (runtime, alertData)
    else do
      let context := runtime.context.getD
        (buildRuntimeContext env.now alertData route team service)
      let s ← evaluateServiceChain env groupId (textIn alertData "source") maxServiceHandoffs
        { context := refreshEntityContext context route team service
          route, team, service
          runtime := { runtime with route, team, service } }
      let runtime := s.finish
      .ok (runtime, applyRuntimeToAlertData runtime alertData)

end IncidentRelay.Orchestration
