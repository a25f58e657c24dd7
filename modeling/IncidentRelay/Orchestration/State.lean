import IncidentRelay.Lib.PyText
import IncidentRelay.Tenant

/-!
# The state a rule works on

`EventActionState` with the limits of `_json_copy`. The result of the actions is
typed: a disposition, selected ids, grouping. Its printed form counts towards the
size of the context, like everything else the state carries.
-/

namespace IncidentRelay.Orchestration

open Json

/-! ## Errors -/

/-- An exception, by what catches it. -/
inductive PyError where
  /-- `ActionValidationError` and what else `execute_actions` records as a failed action -/
  | evaluation (message path : String)
  /-- any other exception, by the name of its class -/
  | other (className : String)
  deriving DecidableEq, Repr

/-- `exc.__class__.__name__`. -/
def PyError.className : PyError → String
  | .evaluation _ _ => "ActionValidationError"
  | .other className => className

/-! ## Limits -/

def maxActionValueDepth : Nat := 16
def maxActionCollectionItems : Nat := 512
def maxActionValueBytes : Nat := 65536
def maxLabels : Nat := 256
def maxNoteLength : Nat := 8192

mutual
/-- `_validate_json_value(value, path=…, depth=…)`. -/
def validateJsonValue (path : String) (depth : Nat) : Json → Except PyError Unit
  | .float t =>
    if maxActionValueDepth < depth then
      .error (.evaluation "action value exceeds the nesting limit" path)
    else if t.text = "nan" ∨ t.text = "inf" ∨ t.text = "-inf" then
      .error (.evaluation "action value cannot contain non-finite numbers" path)
    else .ok ()
  | .list xs =>
    if maxActionValueDepth < depth then
      .error (.evaluation "action value exceeds the nesting limit" path)
    else if maxActionCollectionItems < xs.length then
      .error (.evaluation "action value list exceeds the item limit" path)
    else validateItems path 0 (depth + 1) xs
  | .obj kvs =>
    if maxActionValueDepth < depth then
      .error (.evaluation "action value exceeds the nesting limit" path)
    else if maxActionCollectionItems < kvs.length then
      .error (.evaluation "action value object exceeds the item limit" path)
    else validateEntries path (depth + 1) kvs
  | _ =>
    if maxActionValueDepth < depth then
      .error (.evaluation "action value exceeds the nesting limit" path)
    else .ok ()

def validateItems (path : String) (index depth : Nat) : List Json → Except PyError Unit
  | [] => .ok ()
  | x :: xs =>
    match validateJsonValue (path ++ "[" ++ toString index ++ "]") depth x with
    | .error e => .error e
    | .ok () => validateItems path (index + 1) depth xs

def validateEntries (path : String) (depth : Nat) : Dict → Except PyError Unit
  | [] => .ok ()
  | (k, x) :: kvs =>
    match validateJsonValue (path ++ "." ++ k) depth x with
    | .error e => .error e
    | .ok () => validateEntries path depth kvs
end

/-- `json.dumps(value, ensure_ascii=False, separators=(",", ":"))`. -/
def compactJson (value : Json) : String :=
  dumps { itemSeparator := ",", keySeparator := ":" } value

/-- `_json_copy(value, path=…)`. -/
def jsonCopy (path : String) (value : Json) : Except PyError Json := do
  validateJsonValue path 0 value
  if maxActionValueBytes < (compactJson value).utf8ByteSize then
    .error (.evaluation "action value exceeds the size limit" path)
  else .ok value

/-- A copy is the value itself. -/
theorem jsonCopy_eq_ok {path : String} {value copy : Json} (h : jsonCopy path value = .ok copy) :
    copy = value := by
  unfold jsonCopy at h
  cases hv : validateJsonValue path 0 value with
  | error e =>
    rw [hv] at h
    cases h
  | ok u =>
    rw [hv] at h
    change (if _ then _ else _) = _ at h
    split at h
    · cases h
    · cases h
      rfl

/-! ## The result of the actions -/

inductive Disposition where
  | process
  | suppress
  | pause
  | drop
  deriving DecidableEq, Repr

def Disposition.text : Disposition → String
  | .process => "process"
  | .suppress => "suppress"
  | .pause => "pause"
  | .drop => "drop"

inductive TraceLevel where
  | full
  | compact
  | disabled
  deriving DecidableEq, Repr

def TraceLevel.text : TraceLevel → String
  | .full => "full"
  | .compact => "compact"
  | .disabled => "disabled"

/-- `ALERT_EVENT_HISTORY_LEVELS`. -/
inductive HistoryLevel where
  | full
  | initial
  | disabled
  deriving DecidableEq, Repr

def HistoryLevel.text : HistoryLevel → String
  | .full => "full"
  | .initial => "initial"
  | .disabled => "disabled"

inductive PauseRetrigger where
  | preserve
  | reset
  deriving DecidableEq, Repr

def PauseRetrigger.text : PauseRetrigger → String
  | .preserve => "preserve"
  | .reset => "reset"

/-- `result["routing"]`: the ids that an action has set. -/
structure Routing where
  routeId : Option Id := none
  teamId : Option Id := none
  serviceId : Option Id := none
  deriving DecidableEq

/-- `result["policies"]`. -/
structure Policies where
  escalationPolicyId : Option Id := none
  notificationPolicyId : Option Id := none
  priorityPolicyId : Option Id := none
  deriving DecidableEq

/-- `result["grouping"]`. -/
structure Grouping where
  dedupKey : Option String := none
  groupKey : Option String := none
  strategy : Option String := none
  windowSeconds : Option Nat := none
  reopenWindowSeconds : Option Nat := none
  deriving DecidableEq

structure ActionResult where
  alertEventHistory : HistoryLevel
  disposition : Disposition := .process
  suppressNotifications : Bool := false
  traceLevel : Option TraceLevel := none
  dropped : Bool := false
  pauseSeconds : Option Nat := none
  pauseRetrigger : PauseRetrigger := .preserve
  suppressReason : Option String := none
  pauseReason : Option String := none
  dropReason : Option String := none
  routing : Routing := {}
  policies : Policies := {}
  grouping : Grouping := {}
  notes : List String := []
  webhooks : List Id := []
  deriving DecidableEq

def optText : Option String → Json
  | some s => .str s
  | none => .null

def optNat : Option Nat → Json
  | some n => .int n
  | none => .null

/-- The entry of a key that is set. -/
def entry (key : String) (value : Option Json) : Dict :=
  match value with
  | some v => [(key, v)]
  | none => []

def idEntry (key : String) (id : Option Id) : Dict := entry key (id.map fun n : Id => Json.int n)

def Routing.toJson (r : Routing) : Json :=
  .obj (idEntry "route_id" r.routeId ++ idEntry "team_id" r.teamId ++
    idEntry "service_id" r.serviceId)

def Policies.toJson (p : Policies) : Json :=
  .obj (idEntry "escalation_policy_id" p.escalationPolicyId ++
    idEntry "notification_policy_id" p.notificationPolicyId ++
    idEntry "priority_policy_id" p.priorityPolicyId)

def Grouping.toJson (g : Grouping) : Json :=
  .obj (entry "dedup_key" (g.dedupKey.map Json.str) ++ entry "group_key" (g.groupKey.map Json.str) ++
    entry "strategy" (g.strategy.map Json.str) ++
    entry "window_seconds" (g.windowSeconds.map fun n : Nat => Json.int n) ++
    entry "reopen_window_seconds" (g.reopenWindowSeconds.map fun n : Nat => Json.int n))

def ActionResult.toJson (r : ActionResult) : Json :=
  .obj [("disposition", .str r.disposition.text),
    ("suppress_notifications", .bool r.suppressNotifications),
    ("trace_level", optText (r.traceLevel.map TraceLevel.text)),
    ("alert_event_history", .str r.alertEventHistory.text),
    ("dropped", .bool r.dropped),
    ("pause_seconds", optNat r.pauseSeconds),
    ("pause_retrigger", .str r.pauseRetrigger.text),
    ("suppress_reason", optText r.suppressReason),
    ("pause_reason", optText r.pauseReason),
    ("drop_reason", optText r.dropReason),
    ("routing", r.routing.toJson),
    ("policies", r.policies.toJson),
    ("grouping", r.grouping.toJson),
    ("notes", .list (r.notes.map Json.str)),
    ("webhooks", .list (r.webhooks.map fun n : Id => Json.obj [("action_id", .int n)]))]

/-! ## Context and state -/

/-- The context of a rule, as `build_context` and `EventActionState.context` write
it. The labels are those of the event. -/
structure Context where
  event : Dict
  labels : Dict
  raw : Dict := []
  vars : Dict := []
  route : Dict := []
  service : Dict := []
  team : Dict := []
  integration : Dict := []
  time : Dict := []
  /-- `{}` before the first rule tree -/
  result : Option ActionResult := none
  deriving DecidableEq

def Context.toJson (c : Context) : Json :=
  .obj [("event", .obj c.event), ("labels", .obj c.labels), ("raw", .obj c.raw),
    ("variables", .obj c.vars), ("route", .obj c.route), ("service", .obj c.service),
    ("team", .obj c.team), ("integration", .obj c.integration), ("time", .obj c.time),
    ("result", match c.result with
      | some r => r.toJson
      | none => .obj [])]

/-- `build_context(event=…, labels=…, …)`. -/
def buildContext (event labels raw route team service integration time : Dict) : Context :=
  { event := event.set "labels" (.obj labels), labels, raw, route, team, service, integration,
    time }

structure EventActionState where
  event : Dict
  raw : Dict
  vars : Dict
  route : Dict
  service : Dict
  team : Dict
  integration : Dict
  time : Dict
  result : ActionResult
  deriving DecidableEq

namespace EventActionState

/-- `state.labels`. -/
def labels (s : EventActionState) : Dict := (s.event.getD "labels").asDict

/-- `state.context()`. -/
def context (s : EventActionState) : Context :=
  { event := s.event, labels := s.labels, raw := s.raw, vars := s.vars, route := s.route,
    service := s.service, team := s.team, integration := s.integration, time := s.time,
    result := some s.result }

/-- `state.to_dict()`. -/
def toDict (s : EventActionState) : Except PyError Context := do
  let _ ← jsonCopy "context" s.context.toJson
  .ok s.context

/-- `EventActionState.from_context(context)`; `defaultHistory` is the configured
history level. Each part is copied under its own limits. -/
def fromContext (defaultHistory : HistoryLevel) (c : Context) : Except PyError EventActionState := do
  let _ ← jsonCopy "event" (.obj c.event)
  let labels ← jsonCopy "labels" (.obj c.labels)
  let _ ← jsonCopy "result" (match c.result with
    | some r => r.toJson
    | none => .obj [])
  let _ ← jsonCopy "raw" (.obj c.raw)
  let _ ← jsonCopy "variables" (.obj c.vars)
  let _ ← jsonCopy "route" (.obj c.route)
  let _ ← jsonCopy "service" (.obj c.service)
  let _ ← jsonCopy "team" (.obj c.team)
  let _ ← jsonCopy "integration" (.obj c.integration)
  let _ ← jsonCopy "time" (.obj c.time)
  .ok {
    event := c.event.set "labels" labels
    raw := c.raw
    vars := c.vars
    route := c.route
    service := c.service
    team := c.team
    integration := c.integration
    time := c.time
    result := c.result.getD { alertEventHistory := defaultHistory } }

end EventActionState

end IncidentRelay.Orchestration
