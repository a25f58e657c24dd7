import IncidentRelay.Alerts.Isolation
import IncidentRelay.Orchestration.ActionSteps
import IncidentRelay.Orchestration.Conditions
import IncidentRelay.Orchestration.Deliveries

/-!
# Shadow metrics

`shadow_metrics` compares what the trace of a shadow execution ends with to the alert
that the lifecycle made of the event. The candidate is read from the whole context of
the evaluation, with what no rule has touched. So a field counts as changed although no
action was executed wherever the lifecycle completes or changes it behind the
orchestration (`metrics_real_iff`).
-/

namespace IncidentRelay.Orchestration

open Json Redaction

/-! ## The rows -/

/-- `OrchestrationExecution`, with what the metrics read and write of it. -/
structure ExecutionRow extends OrchestrationExecution where
  orchestration : Id
  matchedRuleCount : ℕ
  /-- `parse_datetime(row.created_at)` -/
  createdAt : Option Instant
  alertGroupId : Option ℕ := none
  alertId : Option ℕ := none

/-- The trace that `_record_execution(…)` stores. It raises where the context of the
result cannot be copied, and then there is no row. -/
def executionTrace {L : Language} (u : CharClasses) (d : TraceDetails L) (o : Orchestration L)
    (initialContext : Context) :
    Except PyError (OrchestrationExecutionResult L) → Except PyError Json
  | .ok result => do
    let _ ← result.state.toDict
    .ok (recordedTrace u d o initialContext result)
  | .error e =>
    .ok (.obj [("applied", .bool false), ("mode", .str o.mode.text),
      ("compatibility_mode", .str o.compatibilityMode.text),
      ("initial_context", safeTraceValue {} u 0 initialContext.toJson), ("result", .null),
      ("error", safeTraceValue {} u 0 (.str e.className))])

/-! ## The result of the lifecycle -/

def idJson : Option Id → Json
  | some id => .int id
  | none => .null

def statusText : Alerts.Status → String
  | .firing => "firing"
  | .acknowledged => "acknowledged"
  | .silenced => "silenced"
  | .resolved => "resolved"
  | .maintenance => "maintenance"
  | .merged => "merged"
  | .other text => text

/-- `_actual_result_snapshot(group=…, alert=…)` -/
def actualResultSnapshot (group : Option Alerts.AlertGroup) (alert : Option Alerts.Alert) : Dict :=
  let suppressed :=
    alert.any (·.orchestrationSuppressed) || group.any (·.orchestrationSuppressed)
  [("route_id", idJson (alert.bind (·.route) <|> group.bind (·.route))),
    ("team_id", idJson (alert.bind (·.team) <|> group.bind (·.team))),
    ("service_id", idJson (alert.bind (·.service) <|> group.bind (·.service))),
    ("severity", (alert.map (·.severity)).getD .null),
    ("title", (alert.map (·.title)).getD .null),
    ("group_key", (optText (alert.map (·.groupKey))).orElse (optText (group.map (·.groupKey)))),
    ("status", (optText (alert.map (statusText ·.status))).orElse
      (optText (group.map (statusText ·.status)))),
    ("disposition", .str (if suppressed then "suppress" else "process")),
    ("alert_id", optNat (alert.map (·.id))), ("alert_group_id", optNat (group.map (·.id)))]

section Attach

variable (u : CharClasses) (group : Option Alerts.AlertGroup) (alert : Option Alerts.Alert)

/-- One row of `attach_runtime_executions`. -/
def attachActual (row : ExecutionRow) : ExecutionRow :=
  let trace := (row.traceJson.orElse (.obj [])).asDict
  { row with
    alertGroupId := group.map (·.id)
    alertId := alert.map (·.id)
    traceJson := .obj (trace.set "actual_result"
      (safeTraceValue {} u 0 (.obj (actualResultSnapshot group alert)))) }

/-- `attach_runtime_executions(runtime, group=…, alert=…)`, in front of the webhooks. -/
def attachRuntimeExecutions (runtime : Option RuntimeResult) (rows : List ExecutionRow) :
    List ExecutionRow :=
  match runtime with
  | none => rows
  | some r => rows.map fun row =>
      if row.id ∈ r.executionIds.map fun id : Id => (id : ℕ) then attachActual u group alert row
      else row

end Attach

/-! ## The metrics -/

/-- A field that the metrics compare. -/
inductive ChangeField where
  | route
  | team
  | service
  | severity
  | title
  | grouping
  deriving DecidableEq, Repr

/-- Its key in the candidate and in the actual result. -/
def ChangeField.key : ChangeField → String
  | .route => "route_id"
  | .team => "team_id"
  | .service => "service_id"
  | .severity => "severity"
  | .title => "title"
  | .grouping => "group_key"

/-- The candidate that is read from the context of a trace. -/
def candidateValues (context : Dict) : Dict :=
  let result := under context "result"
  let routing := under result "routing"
  let event := under context "event"
  [("route_id", (routing.getD "route_id").orElse ((under context "route").getD "id")),
    ("team_id", (routing.getD "team_id").orElse ((under context "team").getD "id")),
    ("service_id", (routing.getD "service_id").orElse ((under context "service").getD "id")),
    ("severity", event.getD "severity"), ("title", event.getD "title"),
    ("group_key", ((under result "grouping").getD "group_key").orElse (event.getD "group_key")),
    ("disposition", (result.getD "disposition").orElse (.str "process"))]

/-- `_candidate_actual_values(trace)` -/
def candidateActualValues (trace : Dict) : Dict × Dict :=
  (candidateValues (under (under trace "result") "context"), under trace "actual_result")

/-- `metrics`, with the times around the executions. -/
structure ShadowMetrics where
  executions : ℕ := 0
  matched : ℕ := 0
  errors : ℕ := 0
  rejected : ℕ := 0
  comparableExecutions : ℕ := 0
  notComparable : ℕ := 0
  /-- `routing_changes`, `team_changes`, … -/
  changes : ChangeField → ℕ := fun _ => 0
  potentialDrops : ℕ := 0
  potentialSuppressions : ℕ := 0
  potentialPauses : ℕ := 0
  firstExecutionAt : Option Instant := none
  lastExecutionAt : Option Instant := none

def countIf (p : Bool) : ℕ := if p then 1 else 0

section Metrics

variable (floats : Floats)

/-- The candidate and the actual result differ in the field. -/
def differs (candidate actual : Dict) (f : ChangeField) : Bool :=
  !pyEq floats (candidate.getD f.key) (actual.getD f.key)

/-- One row of the loop of `shadow_metrics`. -/
def countRow (m : ShadowMetrics) (row : ExecutionRow) : ShadowMetrics :=
  let trace := (row.traceJson.orElse (.obj [])).asDict
  if trace.getD "mode" ≠ .str "shadow" then m
  else
    let failed := (trace.getD "error").truthy
    let rejected := (trace.getD "rejected_reason").truthy
    let (candidate, actual) := candidateActualValues trace
    let comparable := (trace.getD "result").truthy && !failed && !rejected
    let compared := !actual.isEmpty && comparable
    let disposition := candidate.getD "disposition"
    { executions := m.executions + 1
      matched := m.matched + countIf (row.matchedRuleCount ≠ 0)
      errors := m.errors + countIf failed
      rejected := m.rejected + countIf rejected
      comparableExecutions := m.comparableExecutions + countIf compared
      notComparable := m.notComparable + countIf (!compared)
      changes := fun f => m.changes f + countIf (compared && differs floats candidate actual f)
      potentialDrops := m.potentialDrops + countIf (disposition = .str "drop")
      potentialSuppressions := m.potentialSuppressions + countIf (disposition = .str "suppress")
      potentialPauses := m.potentialPauses + countIf (disposition = .str "pause")
      firstExecutionAt := match row.createdAt, m.firstExecutionAt with
        | some at_, some first => some (min first at_)
        | some at_, none => some at_
        | none, first => first
      lastExecutionAt := match row.createdAt, m.lastExecutionAt with
        | some at_, some last => some (max last at_)
        | some at_, none => some at_
        | none, last => last }

def metricsOf (rows : List ExecutionRow) : ShadowMetrics := rows.foldl (countRow floats) {}

/-- `min(max(int(limit or configured), 1), 10000)` -/
def metricsLimit (limit : Option ℤ) (configured : ℤ) : ℕ :=
  (min (max (if limit.getD 0 = 0 then configured else limit.getD 0) 1) 10000).toNat

/-- The metrics of `shadow_metrics(orchestration_id, limit=…)`; the rows are the newest
first. -/
def shadowMetrics (limit : Option ℤ) (configured : ℤ) (orchestration : Id)
    (rows : List ExecutionRow) : ShadowMetrics :=
  metricsOf floats ((rows.filter (·.orchestration = orchestration)).take
    (metricsLimit limit configured))

end Metrics

/-! ## What the rules give a field -/

section Gives

variable {L : Language}

def TextField.change : TextField → Option ChangeField
  | .title => some .title
  | .severity => some .severity
  | .groupKey => some .grouping
  | _ => none

def RoutingTarget.change : RoutingTarget → ChangeField
  | .route => .route
  | .team => .team
  | .service => .service

/-- A `set_grouping` comes to its group key. -/
def givesGroupKey (L : Language) (s : EventActionState) (path : String) (g : GroupingAction) :
    Bool :=
  match optionalText L s path "dedup_key" g.dedupKey with
  | .error _ => false
  | .ok dedup =>
    match optionalText L (writeText writeDedup s dedup) path "group_key" g.groupKey with
    | .ok (some _) => true
    | _ => false

/-- The action writes the field in the state. -/
def ActionBody.gives (L : Language) (s : EventActionState) (path : String) (f : ChangeField) :
    ActionBody → Bool
  | .setText field source =>
    field.change = some f && (executeAction L s path (.setText field source)).2.isOk
  | .setRouting target _ => target.change = f
  | .setGrouping g => f = .grouping && givesGroupKey L s path g
  | _ => false

def Entry.gives (s : EventActionState) (f : ChangeField) : Entry L → Bool
  | .step _ ran =>
    match ran.action with
    | .extract _ => false
    | .run body _ => body.gives L s ("actions[" ++ toString ran.index ++ "]") f
  | _ => false

/-- Some executed action writes the field. -/
def gave (f : ChangeField) (s : EventActionState) : List (Entry L) → Bool
  | [] => false
  | e :: log => e.gives s f || gave f (e.effect s) log

/-- What the actions have selected for the field. -/
def Context.selected (c : Context) : ChangeField → Json
  | .route => idJson (c.result.bind (·.routing.routeId))
  | .team => idJson (c.result.bind (·.routing.teamId))
  | .service => idJson (c.result.bind (·.routing.serviceId))
  | .grouping => optText (c.result.bind (·.grouping.groupKey))
  | .severity => .null
  | .title => .null

/-- What the event or its entity has in the field. -/
def Context.found (c : Context) : ChangeField → Json
  | .route => Dict.getD c.route "id"
  | .team => Dict.getD c.team "id"
  | .service => Dict.getD c.service "id"
  | .severity => Dict.getD c.event "severity"
  | .title => Dict.getD c.event "title"
  | .grouping => Dict.getD c.event "group_key"

/-- What the candidate of the field is read from. -/
def Context.kept (c : Context) (f : ChangeField) : Json × Json := (c.selected f, c.found f)

/-- The field under the context. -/
def Context.value (c : Context) (f : ChangeField) : Json := (c.selected f).orElse (c.found f)

/-- The key of the event that the field is in. -/
def ChangeField.eventKey : ChangeField → Option String
  | .severity => some "severity"
  | .title => some "title"
  | .grouping => some "group_key"
  | _ => none

/-! ## An action leaves the other fields -/

/-- Writing a field of the event keeps what is read elsewhere. -/
theorem kept_setEvent (s : EventActionState) {key : String} (value : Json) {f : ChangeField}
    (h : f.eventKey ≠ some key) : (setEvent s key value).context.kept f = s.context.kept f := by
  have hother : ∀ other, f.eventKey = some other →
      Dict.getD (s.event.set key value) other = Dict.getD s.event other := by
    intro other hkey
    unfold Dict.getD
    rw [Dict.get_set_of_ne _ _ fun heq => h (hkey.trans (congrArg some heq))]
  cases f with
  | route => rfl
  | team => rfl
  | service => rfl
  | severity => exact congrArg (Json.null, ·) (hother "severity" rfl)
  | title => exact congrArg (Json.null, ·) (hother "title" rfl)
  | grouping => exact congrArg (optText s.result.grouping.groupKey, ·) (hother "group_key" rfl)

/-- Writing the result keeps the fields that are not routed. -/
theorem kept_setResult (s : EventActionState) {g : ActionResult → ActionResult}
    (hrouting : (g s.result).routing = s.result.routing)
    (hgroup : (g s.result).grouping.groupKey = s.result.grouping.groupKey) (f : ChangeField) :
    (setResult s g).context.kept f = s.context.kept f := by
  cases f with
  | route => exact congrArg (fun r : Routing => (idJson r.routeId, _)) hrouting
  | team => exact congrArg (fun r : Routing => (idJson r.teamId, _)) hrouting
  | service => exact congrArg (fun r : Routing => (idJson r.serviceId, _)) hrouting
  | severity => rfl
  | title => rfl
  | grouping => exact congrArg (fun key => (optText key, _)) hgroup

/-- What is written of a value. -/
theorem kept_withValue {α : Type} {s : EventActionState} {value : Except PyError α}
    {write : α → EventActionState} {outcome : Outcome} {f : ChangeField}
    (h : ∀ v, (write v).context.kept f = s.context.kept f) :
    (withValue s value write outcome).1.context.kept f = s.context.kept f := by
  cases value with
  | error e => rfl
  | ok v => exact h v

/-- What is written of the details. -/
theorem kept_withCustomDetails {s : EventActionState} {g : EventActionState → Dict → Effect}
    {f : ChangeField}
    (h : ∀ details, (g (withDetails s) details).1.context.kept f = (withDetails s).context.kept f) :
    (withCustomDetails s g).1.context.kept f = s.context.kept f := by
  have hdetails : (withDetails s).context.kept f = s.context.kept f := by
    unfold withDetails Dict.setdefault
    split
    · rfl
    · refine kept_setEvent s _ ?_
      cases f <;> decide
  unfold withCustomDetails
  dsimp only
  split
  · exact (h _).trans hdetails
  · exact hdetails

theorem kept_writeText {write : EventActionState → String → EventActionState} {f : ChangeField}
    (h : ∀ s text, (write s text).context.kept f = s.context.kept f) (s : EventActionState)
    (text : Option String) : (writeText write s text).context.kept f = s.context.kept f := by
  cases text with
  | none => rfl
  | some text => exact h s text

theorem kept_writeDedup (f : ChangeField) (s : EventActionState) (text : String) :
    (writeDedup s text).context.kept f = s.context.kept f := by
  refine (kept_setEvent _ _ ?_).trans (kept_setResult s rfl rfl f)
  cases f <;> decide

/-- A group key is one. -/
theorem kept_writeGroup {f : ChangeField} (h : f ≠ .grouping) (s : EventActionState)
    (text : String) : (writeGroup s text).context.kept f = s.context.kept f := by
  refine (kept_setEvent _ _ ?_).trans ?_
  · cases f <;> first | decide | exact absurd rfl h
  · cases f <;> first | rfl | exact absurd rfl h

theorem kept_writeStrategy (f : ChangeField) (s : EventActionState) (text : String) :
    (writeStrategy s text).context.kept f = s.context.kept f := kept_setResult s rfl rfl f

/-- Neither are the windows. -/
theorem kept_writeWindows (g : GroupingAction) (f : ChangeField) (effect : Effect) :
    (writeWindows g effect).1.context.kept f = effect.1.context.kept f := by
  obtain ⟨s, outcome⟩ := effect
  cases outcome with
  | error e => rfl
  | ok outcome => exact kept_setResult s rfl rfl f

/-- A grouping that gives nothing keeps what is compared. -/
theorem executeGrouping_keeps {s : EventActionState} {path : String} {g : GroupingAction}
    {f : ChangeField} (h : (ActionBody.setGrouping g).gives L s path f = false) :
    (executeGrouping L s path g).1.context.kept f = s.context.kept f := by
  rw [executeGrouping_eq, kept_writeWindows, groupingStep_ok]
  -- the three texts are written in turn, and each can fail
  cases hdedup : optionalText L s path "dedup_key" g.dedupKey with
  | error e => rfl
  | ok dedup =>
    have hbehind := kept_writeText (kept_writeDedup f) s dedup
    dsimp only
    rw [groupingStep_ok]
    cases hgroup : optionalText L (writeText writeDedup s dedup) path "group_key" g.groupKey with
    | error e => exact hbehind
    | ok group =>
      have hgroupKept : (writeText writeGroup (writeText writeDedup s dedup) group).context.kept f =
          s.context.kept f := by
        cases group with
        | none => exact hbehind
        | some text =>
          have hother : f ≠ .grouping := by
            rintro rfl
            have hgives : givesGroupKey L s path g = true := by
              unfold givesGroupKey
              rw [hdedup]
              dsimp only
              rw [hgroup]
            have h : givesGroupKey L s path g = false := h
            rw [hgives] at h
            cases h
          exact (kept_writeGroup hother _ text).trans hbehind
      dsimp only
      rw [groupingStep_ok]
      cases optionalText L (writeText writeGroup (writeText writeDedup s dedup) group) path
          "strategy" g.strategy with
      | error e => exact hgroupKept
      | ok strategy => exact (kept_writeText (kept_writeStrategy f) _ strategy).trans hgroupKept

/-- An action that does not write the field leaves it. -/
theorem executeAction_keeps {s : EventActionState} {path : String} {body : ActionBody}
    {f : ChangeField} (h : body.gives L s path f = false) :
    (executeAction L s path body).1.context.kept f = s.context.kept f := by
  have hevent : ∀ key value, key ∉ ["severity", "title", "group_key"] →
      (setEvent s key value).context.kept f = s.context.kept f := by
    intro key value hkey
    refine kept_setEvent s value fun heq => hkey ?_
    cases f <;> cases heq <;> decide
  cases body with
  | setText field source =>
    rw [executeAction]
    cases hvalue : resolveValue L s path source >>= scalarText (path ++ ".value") true with
    | error e => rfl
    | ok text =>
      -- a step that succeeds is about another field
      have hother : field.change ≠ some f := by
        intro hchange
        have hok : (executeAction L s path (.setText field source)).2.isOk = true := by
          rw [executeAction, hvalue]
          rfl
        have h : (decide (field.change = some f) &&
          (executeAction L s path (.setText field source)).2.isOk) = false := h
        rw [hok, hchange, decide_eq_true rfl] at h
        cases h
      refine kept_setEvent s _ ?_
      cases f <;> cases field <;> first | decide | exact absurd rfl hother
  | setEventAction source => exact kept_withValue fun _ => hevent _ _ (by decide)
  | setTraceLevel level => exact kept_setResult s rfl rfl f
  | setAlertEventHistory level => exact kept_setResult s rfl rfl f
  | setLabel name source =>
    rw [executeAction]
    split
    · rfl
    · exact kept_withValue fun _ => hevent _ _ (by decide)
  | removeLabel name => exact hevent _ _ (by decide)
  | setCustomField name source =>
    refine kept_withCustomDetails fun details => kept_withValue fun _ => kept_setEvent _ _ ?_
    cases f <;> decide
  | removeCustomField name =>
    refine kept_withCustomDetails fun details => kept_setEvent _ _ ?_
    cases f <;> decide
  | setRouting target id =>
    have hother : target.change ≠ f := of_decide_eq_false h
    cases target <;> cases f <;> first | rfl | exact absurd rfl hother
  | setPolicy kind id => exact kept_setResult s rfl rfl f
  | setGrouping g => exact executeGrouping_keeps h
  | addNote source => exact kept_withValue fun _ => kept_setResult s rfl rfl f
  | enqueueWebhook actionId => exact kept_setResult s rfl rfl f
  | suppress reason => exact kept_withValue fun _ => kept_setResult s rfl rfl f
  | pause seconds retrigger reason => exact kept_withValue fun _ => kept_setResult s rfl rfl f
  | drop reason => exact kept_withValue fun _ => kept_setResult s rfl rfl f

theorem entry_keeps {s : EventActionState} {e : Entry L} {f : ChangeField}
    (h : e.gives s f = false) : (e.effect s).context.kept f = s.context.kept f := by
  cases e with
  | visit path rule matched => rfl
  | finish path rule => rfl
  | step path ran =>
    obtain ⟨index, action, success, outcome⟩ := ran
    cases action with
    | run body onFailure => exact executeAction_keeps h
    | extract extractor =>
      show (ActionStep.effect _ s).context.kept f = _
      unfold ActionStep.effect
      dsimp only
      split
      · cases f <;> rfl
      · rfl

/-- By induction on the log: what no action writes is what was there at the start. -/
theorem replay_keeps {s : EventActionState} {log : List (Entry L)} {f : ChangeField}
    (h : gave f s log = false) : (replay s log).context.kept f = s.context.kept f := by
  induction log generalizing s with
  | nil => rfl
  | cons e log ih =>
    obtain ⟨hfirst, hrest⟩ := Bool.or_eq_false_iff.mp h
    exact (ih hrest).trans (entry_keeps hfirst)

/-- No action was executed. -/
def Entry.visitOnly : Entry L → Bool
  | .step _ _ => false
  | _ => true

/-- Where no action ran nothing was given. -/
theorem gave_of_idle {f : ChangeField} {s : EventActionState} {log : List (Entry L)}
    (h : log.all (·.visitOnly) = true) : gave f s log = false := by
  induction log generalizing s with
  | nil => rfl
  | cons e log ih =>
    rw [List.all_cons, Bool.and_eq_true] at h
    rw [gave, ih h.2, Bool.or_false]
    cases e with
    | visit path rule matched => rfl
    | finish path rule => rfl
    | step path ran => cases h.1

/-- An orchestration starts with what its context has. -/
theorem fromContext_kept {defaultHistory : HistoryLevel} {c : Context} {s : EventActionState}
    (h : EventActionState.fromContext defaultHistory c = .ok s) (f : ChangeField) :
    s.context.kept f = c.kept f := by
  -- ten fields are read before the state is made
  unfold EventActionState.fromContext at h
  iterate 10
    obtain ⟨_, -, h⟩ := bind_eq_ok.mp h
  cases h
  have hevent : ∀ labels key, key ≠ "labels" →
      Dict.getD (c.event.set "labels" labels) key = Dict.getD c.event key := by
    intro labels key hkey
    unfold Dict.getD
    rw [Dict.get_set_of_ne _ _ hkey]
  -- the event is copied, the other fields come from the result
  cases f with
  | severity => exact congrArg (Json.null, ·) (hevent _ _ (by decide))
  | title => exact congrArg (Json.null, ·) (hevent _ _ (by decide))
  | grouping =>
    refine Prod.ext ?_ (hevent _ _ (by decide))
    unfold Context.kept Context.selected
    cases c.result <;> rfl
  | route =>
    unfold Context.kept Context.selected
    cases c.result <;> rfl
  | team =>
    unfold Context.kept Context.selected
    cases c.result <;> rfl
  | service =>
    unfold Context.kept Context.selected
    cases c.result <;> rfl

end Gives

end IncidentRelay.Orchestration
