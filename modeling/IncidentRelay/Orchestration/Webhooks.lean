import IncidentRelay.Orchestration.PauseRestore
import IncidentRelay.Orchestration.Safety
import IncidentRelay.Orchestration.Trace
import IncidentRelay.Pending.Row

/-!
# Webhook requests in the trace

The trace of an execution is stored as JSON, cut and redacted, and
`enqueue_execution_webhooks` reads the webhook requests back from it. The generator
that walks the rules is lazy: the requests in front of a value that is no object are
yielded before it raises (`Generated`).
-/

namespace IncidentRelay.Orchestration

open Json Redaction

/-! ## The stored trace -/

/-- `EXTRACTION_TYPES` -/
inductive ExtractionType where
  | extractRegex
  | copyField
  | copyToVariable
  | jsonPath
  | split
  | setVariable
  | static
  | lowercase
  | uppercase
  | trim
  deriving DecidableEq, Repr

def ExtractionType.text : ExtractionType → String
  | .extractRegex => "extract_regex"
  | .copyField => "copy_field"
  | .copyToVariable => "copy_to_variable"
  | .jsonPath => "json_path"
  | .split => "split"
  | .setVariable => "set_variable"
  | .static => "static"
  | .lowercase => "lowercase"
  | .uppercase => "uppercase"
  | .trim => "trim"

def RoutingTarget.type : RoutingTarget → String
  | .route => "set_route"
  | .team => "set_team"
  | .service => "set_service"

def PolicyKind.type : PolicyKind → String
  | .escalation => "set_escalation_policy"
  | .notification => "set_notification_policy"
  | .priority => "set_priority_policy"

/-- `action["type"]` -/
def ActionBody.type : ActionBody → String
  | .setText field _ => "set_" ++ field.name
  | .setEventAction _ => "set_event_action"
  | .setTraceLevel _ => "set_trace_level"
  | .setAlertEventHistory _ => "set_alert_event_history"
  | .setLabel _ _ => "set_label"
  | .removeLabel _ => "remove_label"
  | .setCustomField _ _ => "set_custom_field"
  | .removeCustomField _ => "remove_custom_field"
  | .setRouting target _ => target.type
  | .setPolicy kind _ => kind.type
  | .setGrouping _ => "set_grouping"
  | .addNote _ => "add_note"
  | .enqueueWebhook _ => "enqueue_webhook"
  | .suppress _ => "suppress"
  | .pause _ _ _ => "pause"
  | .drop _ => "drop"

def Outcome.text : Outcome → String
  | .continue => "continue"
  | .stopRule => "stop_rule"
  | .stopOrchestration => "stop_orchestration"

def ProcessingMode.text : ProcessingMode → String
  | .continue => "continue"
  | .stop => "stop"
  | .evaluateChildren => "evaluate_children"
  | .childrenThenContinue => "children_then_continue"

def RuleCode.text : RuleCode → String
  | .ruleDisabled => "rule_disabled"
  | .ruleNotMatched => "rule_not_matched"
  | .ruleStoppedOrchestration => "rule_stopped_orchestration"
  | .childStoppedOrchestration => "child_stopped_orchestration"
  | .processingModeStop => "processing_mode_stop"
  | .childrenEvaluatedThenStop => "children_evaluated_then_stop"
  | .ruleMatched => "rule_matched"

def RuleCode.reason : RuleCode → String
  | .ruleDisabled => "rule is disabled"
  | .ruleNotMatched => "rule condition did not match"
  | .ruleStoppedOrchestration => "an action stopped orchestration processing"
  | .childStoppedOrchestration => "a child rule stopped orchestration processing"
  | .processingModeStop => "rule processing_mode stopped orchestration processing"
  | .childrenEvaluatedThenStop => "child rules were evaluated and sibling processing stopped"
  | .ruleMatched => "rule matched and actions were evaluated"

/-- The texts and values of a trace that the walk does not read. -/
structure TraceDetails (L : Language) where
  ruleName : Rule L → String
  condition : Rule L → Json
  extractionType : L.Extractor → ExtractionType
  extractionFailureMode : L.Extractor → String
  stepCode : ActionStep L → String
  stepReason : ActionStep L → String
  before : ActionStep L → Json
  /-- of every step but those of `enqueue_webhook` -/
  after : ActionStep L → Json
  references : ActionStep L → List String
  matchedRuleCount : ℕ
  stoppedAt : Json

section ToDict

variable {L : Language} (d : TraceDetails L)

def ActionStep.type (step : ActionStep L) : String :=
  match step.action with
  | .extract extractor => (d.extractionType extractor).text
  | .run body _ => body.type

def ActionStep.failureMode (step : ActionStep L) : String :=
  match step.action with
  | .extract extractor => d.extractionFailureMode extractor
  | .run _ onFailure => onFailure.text

/-- `_trace_value(after)`: a webhook step ends with its request. -/
def ActionStep.afterJson (step : ActionStep L) : Json :=
  match step.action with
  | .run (.enqueueWebhook actionId) _ =>
    if step.success then .obj [("action_id", .int actionId)] else .null
  | _ => d.after step

/-- `ActionStepResult.to_dict()` -/
def ActionStep.toDict (step : ActionStep L) : Dict :=
  [("index", .int step.index), ("type", .str (step.type d)), ("success", .bool step.success),
    ("code", .str (d.stepCode step)), ("reason", .str (d.stepReason step)),
    ("before", d.before step), ("after", step.afterJson d),
    ("references", .list ((d.references step).map Json.str)),
    ("failure_mode", .str (step.failureMode d)), ("outcome", .str step.outcome.text)]

/-- The outcome of the actions of a rule that did not stop the orchestration. -/
def stepsOutcome (steps : List (ActionStep L)) : Outcome :=
  if steps.getLast?.any (·.outcome = .stopRule) then .stopRule else .continue

def RuleCode.outcome (steps : List (ActionStep L)) : RuleCode → Outcome
  | .ruleDisabled => .continue
  | .ruleNotMatched => .continue
  | .ruleMatched => stepsOutcome steps
  | _ => .stopOrchestration

mutual
/-- `RuleExecutionResult.to_dict()` -/
def RuleTrace.toJson : RuleTrace L → Json
  | .mk path rule code steps children =>
    .obj ([("path", .str path), ("name", .str (d.ruleName rule)), ("enabled", .bool rule.enabled),
      ("matched", .bool code.matched), ("processing_mode", .str rule.mode.text),
      ("actions", .list (steps.map fun step => .obj (step.toDict d))),
      ("children", .list (rulesToJson children)), ("outcome", .str (code.outcome steps).text),
      ("code", .str code.text), ("reason", .str code.reason)] ++
      if rule.enabled then [("condition", d.condition rule)] else [])

def rulesToJson : List (RuleTrace L) → List Json
  | [] => []
  | trace :: traces => trace.toJson :: rulesToJson traces
end

/-- Traces are written one by one. -/
theorem rulesToJson_eq_map (traces : List (RuleTrace L)) :
    rulesToJson d traces = traces.map (·.toJson d) := by
  induction traces with
  | nil => rfl
  | cons trace traces ih => rw [rulesToJson, ih, List.map_cons]

/-- `OrchestrationExecutionResult.to_dict()`, where its context is no error. -/
def OrchestrationExecutionResult.toDict (result : OrchestrationExecutionResult L) : Dict :=
  [("context", result.state.context.toJson), ("rules", .list (rulesToJson d result.rules)),
    ("outcome", .str result.outcome), ("matched_rule_count", .int d.matchedRuleCount),
    ("stopped_at", d.stoppedAt)]

end ToDict

/-- `OrchestrationExecution`, with what the webhooks read of it. -/
structure OrchestrationExecution where
  id : ℕ
  uid : String
  group : Id
  traceJson : Json

/-- The trace of `_record_execution(…)` for an execution with a result. -/
def recordedTrace {L : Language} (u : CharClasses) (d : TraceDetails L) (o : Orchestration L)
    (initialContext : Context) (result : OrchestrationExecutionResult L) : Json :=
  .obj [("applied", .bool o.applies), ("mode", .str o.mode.text),
    ("compatibility_mode", .str o.compatibilityMode.text),
    ("initial_context", safeTraceValue {} u 0 initialContext.toJson),
    ("result", safeTraceValue {} u 0 (.obj (result.toDict d))), ("error", .null)]

/-! ## The walk -/

/-- What a generator yields, and what it then raises. -/
structure Generated where
  requests : List (Int × String) := []
  raised : Option PyError := none
  deriving DecidableEq

/-- The second generator goes on where the first is at its end. -/
def Generated.append (first second : Generated) : Generated :=
  match first.raised with
  | some e => { first with raised := some e }
  | none => { requests := first.requests ++ second.requests, raised := second.raised }

def Generated.raise (className : String) : Generated := { raised := some (.other className) }

/-- The digits of `int(text)`, with single underscores between them. -/
def parseDigits (value : ℕ) (afterDigit : Bool) : List Char → Option ℕ
  | [] => if afterDigit then some value else none
  | c :: rest =>
    if c.isDigit then parseDigits (value * 10 + (c.toNat - '0'.toNat)) true rest
    else if c = '_' ∧ afterDigit = true then parseDigits value false rest
    else none

/-- `int(value)` -/
def pyInt : Json → Except PyError Int
  | .int n => .ok n
  | .bool b => .ok (if b then 1 else 0)
  | .str s =>
    let parsed : Option Int := match (strip s).toList with
      | '-' :: digits => (parseDigits 0 false digits).map fun n => -(n : Int)
      | '+' :: digits => (parseDigits 0 false digits).map fun n => (n : Int)
      | digits => (parseDigits 0 false digits).map fun n => (n : Int)
    match parsed with
    | some n => .ok n
    | none => .error (.other "ValueError")
  | _ => .error (.other "TypeError")

/-- The items of `value or ()` in a `for`, or what the loop raises. -/
def loopItems : Json → Except PyError (List Json)
  | .list xs => .ok xs
  | .obj kvs => .ok (kvs.map fun kv => .str kv.1)
  | .str s => .ok (s.toList.map fun c => .str (String.ofList [c]))
  | v => if v.truthy then .error (.other "TypeError") else .ok []

/-- The body of the loop over the steps of a rule. -/
def walkStep (path : String) : Json → Generated
  | .obj step =>
    if !(Dict.getD step "success").truthy || Dict.getD step "type" ≠ .str "enqueue_webhook" then {}
    else match (Dict.getD step "after").orElse (.obj []) with
      | .obj after =>
        if (Dict.getD after "action_id").truthy then
          match pyInt (Dict.getD after "action_id") with
          | .ok n => { requests := [(n, path)] }
          | .error e => { raised := some e }
        else {}
      | _ => {}
  | _ => .raise "AttributeError"

def walkSteps (path : String) : List Json → Generated
  | [] => {}
  | step :: steps => (walkStep path step).append (walkSteps path steps)

/-- `str(path or "")` -/
def pathText (path : Json) : String := if path.truthy then path.pyStr else ""

/-- The loop over `rule.get("actions") or ()`. -/
def walkActions (rule : Dict) : Generated :=
  match loopItems (rule.getD "actions") with
  | .error e => { raised := some e }
  | .ok steps => walkSteps (pathText (rule.getD "path")) steps

mutual
/-- `_iter_webhook_requests(rules)`. What is no list is looped over by its keys or its
characters, which have no `get`. -/
def iterWebhookRequests : Json → Generated
  | .list rules => walkRules rules
  | .obj kvs => if kvs.isEmpty then {} else .raise "AttributeError"
  | .str s => if s = "" then {} else .raise "AttributeError"
  | .null => {}
  | .bool b => if b then .raise "TypeError" else {}
  | .int n => if n = 0 then {} else .raise "TypeError"
  | .float t => if (Json.float t).truthy then .raise "TypeError" else {}

def walkRules : List Json → Generated
  | [] => {}
  | rule :: rules => (walkRule rule).append (walkRules rules)

/-- The body of the loop over the rules. -/
def walkRule : Json → Generated
  | .obj rule => (walkActions rule).append (walkChildren rule)
  | _ => .raise "AttributeError"

/-- `yield from _iter_webhook_requests(rule.get("children") or ())` -/
def walkChildren : Dict → Generated
  | [] => {}
  | (key, value) :: rest => if key = "children" then iterWebhookRequests value else walkChildren rest
end

/-! ## The queue -/

/-- `OrchestrationWebhookAction` -/
structure WebhookAction where
  id : Id
  uid : String
  group : Id
  url : String
  method : String
  headersEncrypted : Option String
  bodyTemplate : Option String
  timeoutSeconds : ℕ
  retryCount : ℕ
  privateNetworkPolicy : String
  enabled : Bool
  deleted : Bool
  deletedAt : Option Instant

structure AutomationExecution where
  idempotencyKey : String
  action : Id
  orchestrationExecution : ℕ
  group : Id
  alertGroupId : Option ℕ
  rulePath : String
  status : String
  requestMetadata : Json
  requestHeadersEncrypted : String
  requestBodyEncrypted : String
  nextAttemptAt : Instant
  deriving DecidableEq

/-- The cipher, the digest and the templates. -/
structure WebhookServices where
  sha256 : String → String
  /-- `render_template(text, context).value` -/
  renderTemplate : String → Json → Except PyError String
  /-- `decrypt_json(text, default={}) or {}` -/
  decryptHeaders : Option String → List (String × String)
  encryptHeaders : List (String × String) → String
  encryptSecret : String → String

section Queue

variable (s : WebhookServices)

/-- The value of a header. -/
def renderHeader (context : Json) (value : String) : Except PyError String := do
  let rendered ← if isTemplate value then s.renderTemplate value context else .ok value
  if rendered.toList.contains '\r' || rendered.toList.contains '\n' then
    .error (.other "WebhookValidationError")
  else .ok rendered

/-- `_render_headers(headers, context)` -/
def renderHeaders (context : Json) :
    List (String × String) → Except PyError (List (String × String))
  | [] => .ok []
  | (name, value) :: rest => do
    let rendered ← renderHeader s context value
    let others ← renderHeaders context rest
    .ok ((name, rendered) :: others)

mutual
/-- `json.dumps(…, allow_nan=False)` finds no such number. -/
def finite : Json → Bool
  | .float t => t.text ≠ "nan" ∧ t.text ≠ "inf" ∧ t.text ≠ "-inf"
  | .list xs => finiteItems xs
  | .obj kvs => finiteEntries kvs
  | _ => true

def finiteItems : List Json → Bool
  | [] => true
  | x :: xs => finite x && finiteItems xs

def finiteEntries : Dict → Bool
  | [] => true
  | (_, x) :: kvs => finite x && finiteEntries kvs
end

/-- `_render_body(action, context)` -/
def renderBody (action : WebhookAction) (context : Json) : Except PyError String :=
  match action.bodyTemplate with
  | some template => s.renderTemplate template context
  | none =>
    let body := Json.obj [("event", (context.asDict.getD "event").orElse (.obj [])),
      ("result", (context.asDict.getD "result").orElse (.obj []))]
    if finite body then .ok (compactJson body) else .error (.other "ValueError")

/-- `headers.setdefault(name, value)` -/
def setHeader (headers : List (String × String)) (name value : String) : List (String × String) :=
  if headers.any (·.1 = name) then headers else headers ++ [(name, value)]

/-- The headers of a request with those of the queue. -/
def requestHeaders (headers : List (String × String)) (key body : String) :
    List (String × String) :=
  let headers := setHeader (setHeader headers "Idempotency-Key" key) "User-Agent"
    "IncidentRelay-Orchestration/1"
  if body ≠ "" && !headers.any (fun kv => lower kv.1 = "content-type") then
    headers ++ [("Content-Type", "application/json")]
  else headers

/-- The text that the idempotency key is the digest of. -/
def keyMaterial (uid actionUid rulePath : String) (ordinal : ℕ) : String :=
  uid ++ ":" ++ actionUid ++ ":" ++ rulePath ++ ":" ++ toString ordinal

/-- The enabled action of the group that has the id. -/
def findAction (actions : List WebhookAction) (group : Id) (actionId : Int) :
    Option WebhookAction :=
  actions.find? fun a => ((a.id : ℕ) : Int) = actionId && a.group = group && a.enabled &&
    !a.deleted && a.deletedAt.isNone

/-- A call of `enqueue_execution_webhooks`. -/
structure WebhookCall where
  alertGroupId : Option ℕ
  now : Instant

variable (actions : List WebhookAction) (execution : OrchestrationExecution) (context : Json)

/-- `AutomationExecution.get_or_create(…)`, and the group of a row that has none. -/
def getOrCreate (call : WebhookCall) (row : AutomationExecution)
    (rows : List AutomationExecution) : List AutomationExecution × Bool :=
  if rows.any (·.idempotencyKey = row.idempotencyKey) then
    (rows.map fun r =>
      if r.idempotencyKey = row.idempotencyKey ∧ call.alertGroupId.any (· ≠ 0) ∧
        r.alertGroupId = none
      then { r with alertGroupId := call.alertGroupId } else r, false)
  else (rows ++ [row], true)

/-- The row of a request. -/
def newExecution (call : WebhookCall) (ordinal : ℕ) (rulePath : String) (action : WebhookAction)
    (headers : List (String × String)) (body : String) : AutomationExecution :=
  let key := s.sha256 (keyMaterial execution.uid action.uid rulePath ordinal)
  let headers := requestHeaders headers key body
  { idempotencyKey := key
    action := action.id
    orchestrationExecution := execution.id
    group := execution.group
    alertGroupId := call.alertGroupId
    rulePath
    status := "pending"
    requestMetadata := .obj [("url", .str action.url), ("method", .str action.method),
      ("timeout_seconds", .int action.timeoutSeconds), ("retry_count", .int action.retryCount),
      ("private_network_policy", .str action.privateNetworkPolicy),
      ("header_names", .list (((headers.map Prod.fst).insertionSort (· ≤ ·)).map Json.str)),
      ("body_bytes", .int body.utf8ByteSize)]
    requestHeadersEncrypted := s.encryptHeaders headers
    requestBodyEncrypted := s.encryptSecret body
    nextAttemptAt := call.now }

/-- The headers and the body of a request. -/
def renderRequest (action : WebhookAction) :
    Except PyError (List (String × String) × String) := do
  let headers ← renderHeaders s context (s.decryptHeaders action.headersEncrypted)
  let body ← renderBody s action context
  .ok (headers, body)

/-- The body of the loop over the requests. -/
def enqueueOne (call : WebhookCall) (ordinal : ℕ) (request : Int × String)
    (rows : List AutomationExecution) : Except PyError (List AutomationExecution × Bool) :=
  match findAction actions execution.group request.1 with
  | none => .ok (rows, false)
  | some action => do
    let (headers, body) ← renderRequest s context action
    .ok (getOrCreate call (newExecution s execution call ordinal request.2 action headers body) rows)

/-- The loop from an ordinal on; what is queued before it raises stays. -/
def enqueueFrom (call : WebhookCall) (ordinal : ℕ) :
    List (Int × String) → List AutomationExecution → List AutomationExecution × Except PyError ℕ
  | [], rows => (rows, .ok 0)
  | request :: requests, rows =>
    match enqueueOne s actions execution context call ordinal request rows with
    | .error e => (rows, .error e)
    | .ok (rows, created) =>
      let (rows, queued) := enqueueFrom call (ordinal + 1) requests rows
      (rows, queued.map (· + created.toNat))

end Queue

/-- `enqueue_execution_webhooks(execution_id, alert_group_id=…)`. -/
def enqueueExecutionWebhooks (s : WebhookServices) (actions : List WebhookAction)
    (execution : OrchestrationExecution) (call : WebhookCall) (rows : List AutomationExecution) :
    List AutomationExecution × Except PyError ℕ :=
  let trace := execution.traceJson.asDict
  if !(trace.getD "applied").truthy then (rows, .ok 0)
  else
    let result := ((trace.getD "result").orElse (.obj [])).asDict
    let context := (result.getD "context").orElse (.obj [])
    let walk := iterWebhookRequests (result.getD "rules")
    let (rows, queued) := enqueueFrom s actions execution context call 0 walk.requests rows
    (rows, queued.bind fun n =>
      match walk.raised with
      | none => .ok n
      | some e => .error e)

end IncidentRelay.Orchestration
