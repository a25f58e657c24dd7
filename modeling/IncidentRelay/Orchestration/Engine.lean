import IncidentRelay.Orchestration.State

/-!
# Actions and rule trees

`execute_actions` and `execute_rule_tree` on a definition that passed its
validation. Conditions, field references, templates and extractors are functions
of the context that may raise (`Language`); nothing is assumed of them.

An action writes to the state before it can fail, so it returns the state it
leaves with either outcome.
-/

namespace IncidentRelay.Orchestration

open Json

/-! ## The language of a definition -/

inductive Outcome where
  | continue
  | stopRule
  | stopOrchestration
  deriving DecidableEq, Repr

/-- What a definition is written in: its conditions and extractors, and what they
evaluate to. -/
structure Language where
  Condition : Type
  Extractor : Type
  /-- `evaluate_condition_tree(condition, context).matched` -/
  evaluateConditionTree : Condition → Context → Except PyError Bool
  /-- `resolve_field(context, reference)`, with a value when it is found -/
  resolveField : Context → String → Except PyError (Option Json)
  /-- `render_template(text, context).value` -/
  renderTemplate : String → Context → Except PyError String
  /-- `extract_variables([extractor], context, initial_variables=…)` -/
  extractVariables : Extractor → Context → Dict → Except PyError (Dict × Outcome)
  /-- the `success` of the one step of that extraction -/
  extractionSucceeds : Extractor → Context → Dict → Bool

/-- The one of `value`, `value_from` and `template` that an action has. -/
inductive ValueSource where
  | value (v : Json)
  | valueFrom (reference : String)
  | template (text : String)

inductive TextField where
  | title
  | message
  | description
  | severity
  | priority
  | dedupKey
  | groupKey
  deriving DecidableEq

def TextField.name : TextField → String
  | .title => "title"
  | .message => "message"
  | .description => "description"
  | .severity => "severity"
  | .priority => "priority"
  | .dedupKey => "dedup_key"
  | .groupKey => "group_key"

inductive RoutingTarget where
  | route
  | team
  | service
  deriving DecidableEq

inductive PolicyKind where
  | escalation
  | notification
  | priority
  deriving DecidableEq

/-- The fields of a `set_grouping` action. -/
structure GroupingAction where
  dedupKey : Option Json := none
  groupKey : Option Json := none
  strategy : Option Json := none
  windowSeconds : Option Nat := none
  reopenWindowSeconds : Option Nat := none

inductive ActionBody where
  | setText (field : TextField) (value : ValueSource)
  | setEventAction (value : ValueSource)
  | setTraceLevel (level : TraceLevel)
  | setAlertEventHistory (level : HistoryLevel)
  | setLabel (name : String) (value : ValueSource)
  | removeLabel (name : String)
  | setCustomField (name : String) (value : ValueSource)
  | removeCustomField (name : String)
  | setRouting (target : RoutingTarget) (id : Id)
  | setPolicy (kind : PolicyKind) (id : Id)
  | setGrouping (grouping : GroupingAction)
  | addNote (value : ValueSource)
  | enqueueWebhook (actionId : Id)
  | suppress (reason : Option String)
  | pause (seconds : Nat) (retrigger : PauseRetrigger) (reason : Option String)
  | drop (reason : Option String)

inductive Action (L : Language) where
  | extract (extractor : L.Extractor)
  | run (body : ActionBody) (onFailure : Outcome)

inductive ProcessingMode where
  | continue
  | stop
  | evaluateChildren
  | childrenThenContinue
  deriving DecidableEq

inductive Rule (L : Language) where
  | mk (enabled : Bool) (mode : ProcessingMode) (condition : L.Condition)
      (actions : List (Action L)) (children : List (Rule L))

/-! ## Values -/

/-- The text contains the character twice in a row. -/
def hasPair (c : Char) : List Char → Bool
  | [] => false
  | [_] => false
  | x :: y :: rest => (x == c && y == c) || hasPair c (y :: rest)

/-- `"{{" in text or "}}" in text`. -/
def isTemplate (text : String) : Bool :=
  hasPair openBrace text.toList || hasPair closeBrace text.toList

section Actions

variable (L : Language)

/-- `_resolve_value(action, state, path=…)`. -/
def resolveValue (state : EventActionState) (path : String) : ValueSource → Except PyError Json
  | .valueFrom reference => do
    match ← L.resolveField state.context reference with
    | none => .error (.evaluation "source field does not exist" (path ++ ".value_from"))
    | some v => jsonCopy (path ++ ".value_from") v
  | .template text => do
    let rendered ← L.renderTemplate text state.context
    .ok (.str rendered)
  | .value (.str text) =>
    if isTemplate text then do
      let rendered ← L.renderTemplate text state.context
      .ok (.str rendered)
    else jsonCopy (path ++ ".value") (.str text)
  | .value v => jsonCopy (path ++ ".value") v

/-- `_scalar_text(value, path=…, allow_empty=…)`. -/
def scalarText (path : String) (allowEmpty : Bool) (value : Json) : Except PyError String := do
  let text ← match value with
    | .bool b => .ok (if b then "true" else "false")
    | .null => .ok ""
    | .str s => .ok s
    | .int n => .ok (String.ofList (integerRepr n))
    | .float t => .ok t.text
    | _ => .error (.evaluation "action value must be scalar" path)
  if !allowEmpty && strip text == "" then .error (.evaluation "action value cannot be empty" path)
  else .ok text

/-- `_disposition_reason(action, state, path=…)`. -/
def dispositionReason (state : EventActionState) (path : String) (reason : Option String) :
    Except PyError (Option String) := do
  match reason with
  | none => .ok none
  | some "" => .ok none
  | some text =>
    let text ← if isTemplate text then L.renderTemplate text state.context else .ok text
    if maxNoteLength < text.length then
      .error (.evaluation "disposition reason exceeds the size limit" (path ++ ".reason"))
    else .ok (if text = "" then none else some text)

/-! ## Actions -/

/-- The state that an action leaves, and how it ends. -/
abbrev Effect := EventActionState × Except PyError Outcome

/-- Writes with a value, when there is one. -/
def withValue {α : Type} (state : EventActionState) (value : Except PyError α)
    (write : α → EventActionState) (outcome : Outcome) : Effect :=
  match value with
  | .ok v => (write v, .ok outcome)
  | .error e => (state, .error e)

def setResult (state : EventActionState) (f : ActionResult → ActionResult) : EventActionState :=
  { state with result := f state.result }

def setEvent (state : EventActionState) (key : String) (value : Json) : EventActionState :=
  { state with event := state.event.set key value }

/-- One text of `set_grouping`. -/
def groupingText (state : EventActionState) (path key : String) (value : Json) :
    Except PyError String :=
  match value with
  | .str text =>
    if isTemplate text then do
      let rendered ← L.renderTemplate text state.context
      scalarText (path ++ "." ++ key) false (.str rendered)
    else scalarText (path ++ "." ++ key) false (.str text)
  | v => scalarText (path ++ "." ++ key) false v

/-- A text of `set_grouping` that may be missing; what was written before a
failure stays. -/
def groupingStep (path key : String) (value : Option Json)
    (write : EventActionState → String → EventActionState) (effect : Effect) : Effect :=
  match effect with
  | (state, .error e) => (state, .error e)
  | (state, .ok outcome) =>
    match value with
    | none => (state, .ok outcome)
    | some v => withValue state (groupingText L state path key v) (write state) outcome

/-- `_execute_grouping(action, state, path=…)`. -/
def executeGrouping (state : EventActionState) (path : String) (g : GroupingAction) : Effect :=
  let effect := groupingStep L path "dedup_key" g.dedupKey
    (fun s text => setEvent (setResult s fun r =>
      { r with grouping := { r.grouping with dedupKey := some text } }) "dedup_key" (.str text))
    (state, .ok .continue)
  let effect := groupingStep L path "group_key" g.groupKey
    (fun s text => setEvent (setResult s fun r =>
      { r with grouping := { r.grouping with groupKey := some text } }) "group_key" (.str text))
    effect
  let effect := groupingStep L path "strategy" g.strategy
    (fun s text => setResult s fun r =>
      { r with grouping := { r.grouping with strategy := some text } })
    effect
  match effect with
  | (state, .error e) => (state, .error e)
  | (state, .ok outcome) =>
    (setResult state fun r => { r with grouping := { r.grouping with
      windowSeconds := g.windowSeconds <|> r.grouping.windowSeconds
      reopenWindowSeconds := g.reopenWindowSeconds <|> r.grouping.reopenWindowSeconds } },
      .ok outcome)

/-- `event.custom_details`, made when it is missing. -/
def withCustomDetails (state : EventActionState)
    (f : EventActionState → Dict → Effect) : Effect :=
  let state := { state with event := state.event.setdefault "custom_details" (.obj []) }
  match state.event.getD "custom_details" with
  | .obj details => f state details
  | _ => (state, .error (.evaluation "event.custom_details must be an object"
      "event.custom_details"))

def RoutingTarget.select (state : EventActionState) (id : Id) : RoutingTarget → EventActionState
  | .route => setResult { state with route := [("id", .int id)] } fun r =>
      { r with routing := { r.routing with routeId := some id } }
  | .team => setResult { state with team := [("id", .int id)] } fun r =>
      { r with routing := { r.routing with teamId := some id } }
  | .service => setResult { state with service := [("id", .int id)] } fun r =>
      { r with routing := { r.routing with serviceId := some id } }

def PolicyKind.select (id : Id) (p : Policies) : PolicyKind → Policies
  | .escalation => { p with escalationPolicyId := some id }
  | .notification => { p with notificationPolicyId := some id }
  | .priority => { p with priorityPolicyId := some id }

/-- `_execute_action(action, state, path=…)`. -/
def executeAction (state : EventActionState) (path : String) : ActionBody → Effect
  | .setText field source =>
    withValue state (resolveValue L state path source >>= scalarText (path ++ ".value") true)
      (fun text => setEvent state field.name (.str text)) .continue
  | .setEventAction source =>
    let normalized := do
      let text ← resolveValue L state path source >>= scalarText (path ++ ".value") false
      if lower text = "trigger" ∨ lower text = "resolve" then .ok (lower text)
      else .error (.evaluation "event action must be trigger or resolve" (path ++ ".value"))
    withValue state normalized (fun text => setEvent state "event_action" (.str text)) .continue
  | .setTraceLevel level =>
    (setResult state fun r => { r with traceLevel := some level }, .ok .continue)
  | .setAlertEventHistory level =>
    (setResult state fun r => { r with alertEventHistory := level }, .ok .continue)
  | .setLabel name source =>
    if !state.labels.has name && maxLabels ≤ state.labels.length then
      (state, .error (.evaluation "event label count exceeds the limit" (path ++ ".name")))
    else
      withValue state (resolveValue L state path source >>= scalarText (path ++ ".value") true)
        (fun text => setEvent state "labels" (.obj (state.labels.set name (.str text)))) .continue
  | .removeLabel name => (setEvent state "labels" (.obj (state.labels.pop name)), .ok .continue)
  | .setCustomField name source =>
    withCustomDetails state fun state details =>
      withValue state (resolveValue L state path source >>= jsonCopy (path ++ ".value"))
        (fun v => setEvent state "custom_details" (.obj (details.set name v))) .continue
  | .removeCustomField name =>
    withCustomDetails state fun state details =>
      (setEvent state "custom_details" (.obj (details.pop name)), .ok .continue)
  | .setRouting target id => (target.select state id, .ok .continue)
  | .setPolicy kind id =>
    (setResult state fun r => { r with policies := kind.select id r.policies }, .ok .continue)
  | .setGrouping grouping => executeGrouping L state path grouping
  | .addNote source =>
    let note := do
      let text ← resolveValue L state path source >>= scalarText (path ++ ".value") false
      if maxNoteLength < text.length then
        .error (.evaluation "note exceeds the size limit" (path ++ ".value"))
      else .ok text
    withValue state note
      (fun text => setResult state fun r => { r with notes := r.notes ++ [text] }) .continue
  | .enqueueWebhook actionId =>
    (setResult state fun r => { r with webhooks := r.webhooks ++ [actionId] }, .ok .continue)
  | .suppress reason =>
    withValue state (dispositionReason L state path reason) (fun reason =>
      setResult state fun r => { r with
        disposition := .suppress
        suppressNotifications := true
        suppressReason := reason }) .continue
  | .pause seconds retrigger reason =>
    withValue state (dispositionReason L state path reason) (fun reason =>
      setResult state fun r => { r with
        disposition := .pause
        pauseSeconds := some seconds
        pauseRetrigger := retrigger
        pauseReason := reason }) .continue
  | .drop reason =>
    withValue state (dispositionReason L state path reason) (fun reason =>
      setResult state fun r => { r with
        disposition := .drop
        dropped := true
        suppressNotifications := true
        dropReason := reason }) .stopOrchestration

/-- `execute_actions(actions, state=…)` from an index on. A failed action is
recorded and ends the list when its `on_failure` says so; what is no evaluation
error is raised. -/
def executeActions (index : Nat) (state : EventActionState) :
    List (Action L) → Except PyError (EventActionState × Outcome)
  | [] => .ok (state, .continue)
  | .extract extractor :: rest =>
    match L.extractVariables extractor state.context state.vars with
    | .error e => .error e
    | .ok (vars, .continue) => executeActions (index + 1) { state with vars := vars } rest
    | .ok (vars, outcome) => .ok ({ state with vars := vars }, outcome)
  | .run body onFailure :: rest =>
    match executeAction L state ("actions[" ++ toString index ++ "]") body with
    | (state, .ok .stopOrchestration) => .ok (state, .stopOrchestration)
    | (state, .ok _) => executeActions (index + 1) state rest
    | (state, .error (.evaluation _ _)) =>
      if onFailure = .continue then executeActions (index + 1) state rest else .ok (state, onFailure)
    | (_, .error e) => .error e

/-! ## Rule trees -/

/-- What a level of rules leaves: the state, the rules that matched so far, and
whether the orchestration stops. -/
structure LevelResult where
  state : EventActionState
  matched : Nat
  stopped : Bool
  deriving DecidableEq

mutual
/-- One rule of `_execute_level`. -/
def executeRule (state : EventActionState) (matched : Nat) :
    Rule L → Except PyError LevelResult
  | .mk false _ _ _ _ => .ok ⟨state, matched, false⟩
  | .mk true mode condition actions children => do
    if !(← L.evaluateConditionTree condition state.context) then .ok ⟨state, matched, false⟩
    else
      let (state, outcome) ← executeActions L 0 state actions
      if outcome = .stopOrchestration then .ok ⟨state, matched + 1, true⟩
      else
        let level ←
          if mode = .evaluateChildren ∨ mode = .childrenThenContinue then
            executeLevel state (matched + 1) children
          else .ok ⟨state, matched + 1, false⟩
        .ok { level with stopped := level.stopped || mode = .stop || mode = .evaluateChildren }

/-- `_execute_level(rules, state, …)`. -/
def executeLevel (state : EventActionState) (matched : Nat) :
    List (Rule L) → Except PyError LevelResult
  | [] => .ok ⟨state, matched, false⟩
  | rule :: rules => do
    let level ← executeRule state matched rule
    if level.stopped then .ok level else executeLevel level.state level.matched rules
end

/-- `execute_rule_tree(rules, context)`. -/
def executeRuleTree (defaultHistory : HistoryLevel) (rules : List (Rule L)) (context : Context) :
    Except PyError LevelResult := do
  let state ← EventActionState.fromContext defaultHistory context
  executeLevel L state 0 rules

end Actions

end IncidentRelay.Orchestration
