import IncidentRelay.Orchestration.Deliveries
import IncidentRelay.Orchestration.IntakeContexts

/-!
# Replaying an execution

`replay_events` on one stored execution: the event and its payload are taken from the
stored initial context, and `_simulate_version` builds a new context around them. Rules
that do not read the time do the same on two contexts that differ in it
(`executeRuleTree_withTime`).
-/

namespace IncidentRelay.Orchestration

open Json

/-! ## The event of an execution -/

/-- `OrchestrationExecution`, with what a replay reads of it. -/
structure ReplayedRow extends OrchestrationExecution where
  source : Option String
  eventFingerprint : Option String

/-- `text or fallback` -/
def orText (text : Option String) (fallback : String) : String :=
  match text with
  | some text => if text = "" then fallback else text
  | none => fallback

/-- `event_from_execution(execution)`, in front of its check. -/
def eventFromExecution (row : ReplayedRow) : Dict :=
  let context := under (row.traceJson.orElse (.obj [])).asDict "initial_context"
  let event := under context "event"
  let event :=
    if (context.getD "raw").truthy && !(event.getD "payload").truthy then
      event.set "payload" (context.getD "raw")
    else event
  let event := event.setdefault "source" (.str (orText row.source "webhook"))
  let event := event.setdefault "dedup_key"
    (.str (orText row.eventFingerprint ("execution:" ++ toString row.id)))
  let event := event.setdefault "title" (.str ("Replay execution " ++ toString row.id))
  event.setdefault "labels" (.obj [])

/-- The keys that `_validate_normalized_event` misses. -/
def missingKeys (event : Dict) : List String :=
  ["source", "dedup_key", "title"].filter fun key =>
    event.getD key = .null || event.getD key = .str ""

/-- `prepare_normalized_event(event)`, with the message of its error. -/
def prepareNormalizedEvent (maximumBytes : ℕ) (event : Dict) : Except String Dict :=
  if maximumBytes < (compactJson (.obj event)).utf8ByteSize then
    .error ("Normalized event exceeds the " ++ toString maximumBytes ++ "-byte simulation limit")
  else if missingKeys event ≠ [] then
    .error ("Normalized event is missing: " ++ ", ".intercalate (missingKeys event))
  else match event.getD "labels" with
    | .null => .ok event
    | .obj _ => .ok event
    | _ => .error "normalized_event.labels must be an object"

/-! ## The simulation -/

section Simulation

variable {L : Language}

/-- What the simulator reads beside the tables. -/
structure SimulatorSettings (L : Language) where
  /-- `ORCHESTRATION_SIMULATION_MAX_PAYLOAD_BYTES`, at least 1024 -/
  maximumBytes : ℕ
  /-- what `validate_version` has against a rule -/
  ruleErrors : Rule L → List String

/-- What `validate_version` has against the orchestration. -/
def scopeErrors (db : Entities) (o : Orchestration L) : List String :=
  match o.scope, o.service with
  | .global, none => []
  | .global, some _ => ["global orchestration cannot reference a service"]
  | .service, none => ["service-scoped orchestration requires a service"]
  | .service, some service =>
    if (byId (·.id) db.services service).bind (·.group) = some o.group then []
    else ["service-scoped orchestration references another group"]

/-- `validate_version(version.id)["errors"]` -/
def validationErrors (db : Entities) (settings : SimulatorSettings L) (o : Orchestration L)
    (version : Version L) : List String :=
  scopeErrors db o ++ version.rules.flatMap settings.ruleErrors

/-- The entities that `_simulate_version` starts with. -/
def simulatedEntities (db : Entities) (o : Orchestration L) (event : Dict) :
    Except String (Option Route × Option TeamRow × Option Service) := do
  let (route, team, service) ← initialEntities db event o.group
  if service.isNone && o.scope = .service then
    let service := o.service.bind (byId (·.id) db.services)
    .ok (route, team <|> service.map (·.team), service)
  else .ok (route, team, service)

/-- `_disposition(context)` -/
structure DispositionReport where
  type : Disposition
  reason : Option String
  pauseSeconds : Option ℕ
  pauseRetrigger : PauseRetrigger
  deriving DecidableEq

def ActionResult.report (r : ActionResult) : DispositionReport where
  type := r.disposition
  reason := match r.disposition with
    | .process => none
    | .suppress => r.suppressReason
    | .pause => r.pauseReason
    | .drop => r.dropReason
  pauseSeconds := r.pauseSeconds
  pauseRetrigger := r.pauseRetrigger

/-- The response of `_simulate_version` for a version that was executed, in front of the
cut of its values. -/
structure SimulationResult (L : Language) where
  initialNormalizedEvent : Dict
  initialContext : Context
  execution : OrchestrationExecutionResult L
  finalContext : Context
  selected : Except String Selection
  disposition : DispositionReport

/-- What is reported of an execution that started with the entities. -/
def simulationResult (env : Env L) (o : Orchestration L) (event : Dict) (context : Context)
    (start : Selection) (execution : OrchestrationExecutionResult L) (finalContext : Context) :
    SimulationResult L where
  initialNormalizedEvent := event
  initialContext := context
  execution := execution
  finalContext := finalContext
  selected := resolveSelectedEntities env.db execution.state.result o.group
    (textIn event "source") start
  disposition := execution.state.result.report

inductive Simulation (L : Language) where
  /-- `executed` is false, with the errors -/
  | refused (errors : List String)
  | ran (result : SimulationResult L)

variable (env : Env L) (settings : SimulatorSettings L) (o : Orchestration L)
  (version : Version L)

/-- `_simulate_version(orchestration, version, event, evaluated_at=…)` -/
def simulateVersion (event : Dict) (evaluatedAt : String) : Except PyError (Simulation L) :=
  match validationErrors env.db settings o version with
  | e :: es => .ok (.refused (e :: es))
  | [] =>
    match prepareNormalizedEvent settings.maximumBytes event with
    | .error _ => .error (.other "OrchestrationSimulationError")
    | .ok normalized =>
      match simulatedEntities env.db o normalized with
      | .error message => .ok (.refused [message])
      | .ok (route, team, service) => do
        let context := buildRuntimeContext evaluatedAt normalized route team service
        let baseline ← EventActionState.fromContext env.defaultHistory context
        let _ ← baseline.toDict
        match executeRuleTreeTraced L env.defaultHistory version.rules context with
        | .error e => .ok (.refused [e.className])
        | .ok execution =>
          let finalContext ← execution.state.toDict
          .ok (.ran (simulationResult env o normalized context
            { route, team, service, escalation := none, priority := none, notification := none }
            execution finalContext))

/-- A simulation that ran, step by step. -/
theorem simulateVersion_ran {event : Dict} {evaluatedAt : String} {result : SimulationResult L} :
    simulateVersion env settings o version event evaluatedAt = .ok (.ran result) ↔
      validationErrors env.db settings o version = [] ∧ ∃ normalized route team service,
        prepareNormalizedEvent settings.maximumBytes event = .ok normalized ∧
        simulatedEntities env.db o normalized = .ok (route, team, service) ∧
        ∃ baseline copy execution final,
          EventActionState.fromContext env.defaultHistory
            (buildRuntimeContext evaluatedAt normalized route team service) = .ok baseline ∧
          baseline.toDict = .ok copy ∧
          executeRuleTreeTraced L env.defaultHistory version.rules
            (buildRuntimeContext evaluatedAt normalized route team service) = .ok execution ∧
          execution.state.toDict = .ok final ∧
          result = simulationResult env o normalized
            (buildRuntimeContext evaluatedAt normalized route team service)
            { route, team, service, escalation := none, priority := none, notification := none }
            execution final := by
  unfold simulateVersion
  constructor
  · intro h
    -- a version with errors is not run
    cases hvalid : validationErrors env.db settings o version with
    | cons e es =>
      rw [hvalid] at h
      cases h
    | nil =>
      rw [hvalid] at h
      dsimp only at h
      split at h
      · cases h
      -- what is run was prepared, with its entities
      · next normalized hprepared =>
        split at h
        · cases h
        · next route team service hentities =>
          obtain ⟨baseline, hbaseline, h⟩ := bind_eq_ok.mp h
          obtain ⟨copy, hcopy, h⟩ := bind_eq_ok.mp h
          split at h
          · cases h
          · next execution hexecution =>
            obtain ⟨final, hfinal, h⟩ := bind_eq_ok.mp h
            cases h
            exact ⟨rfl, normalized, route, team, service, hprepared, hentities, baseline, copy,
              execution, final, hbaseline, hcopy, hexecution, hfinal, rfl⟩
  · rintro ⟨hvalid, normalized, route, team, service, hprepared, hentities, baseline, copy, execution,
      final, hbaseline, hcopy, hexecution, hfinal, rfl⟩
    rw [hvalid]
    dsimp only
    rw [hprepared]
    dsimp only
    rw [hentities]
    refine bind_eq_ok.mpr ⟨baseline, hbaseline, bind_eq_ok.mpr ⟨copy, hcopy, ?_⟩⟩
    rw [hexecution]
    exact bind_eq_ok.mpr ⟨final, hfinal, rfl⟩

/-- `replay_events(orchestration_id, execution_ids=[row.id], version_id=version.id)` for the
rows that the ids name: the error that it raises, or the item of the execution. -/
def replayExecution (row : ReplayedRow) (evaluatedAt : String) :
    Except String (Except PyError (Simulation L)) :=
  if row.group ≠ o.group then
    .error ("Execution " ++ toString row.id ++ " belongs to another group")
  else do
    let event ← prepareNormalizedEvent settings.maximumBytes (eventFromExecution row)
    .ok (simulateVersion env settings o version event evaluatedAt)

end Simulation

/-! ## Rules that do not read the time -/

def Context.withTime (c : Context) (time : Dict) : Context := { c with time := time }

def EventActionState.withTime (s : EventActionState) (time : Dict) : EventActionState :=
  { s with time := time }

@[simp] theorem context_withTime (s : EventActionState) (time : Dict) :
    (s.withTime time).context = s.context.withTime time := rfl

section Time

variable {L : Language}

/-- The outcome of the action is the same at every time, and it leaves the time as it was. -/
def Action.TimeBlind : Action L → Prop
  | .extract extractor => ∀ (c : Context) time vars,
      L.extractVariables extractor (c.withTime time) vars = L.extractVariables extractor c vars ∧
      L.extractionSucceeds extractor (c.withTime time) vars = L.extractionSucceeds extractor c vars
  | .run body _ => ∀ (s : EventActionState) time path,
      executeAction L (s.withTime time) path body =
        ((executeAction L s path body).1.withTime time, (executeAction L s path body).2)

mutual
/-- Neither the condition nor an action of the rule or of a rule under it reads the time. -/
def Rule.TimeBlind : Rule L → Prop
  | .mk _ _ condition actions children =>
    (∀ (c : Context) time, L.evaluateConditionTree condition (c.withTime time) =
      L.evaluateConditionTree condition c) ∧
    (∀ action ∈ actions, action.TimeBlind) ∧ RulesTimeBlind children

def RulesTimeBlind : List (Rule L) → Prop
  | [] => True
  | rule :: rules => rule.TimeBlind ∧ RulesTimeBlind rules
end

/-- By induction on the actions. -/
theorem traceActions_withTime (time : Dict) {index : ℕ} {s : EventActionState}
    {actions : List (Action L)} (h : ∀ action ∈ actions, action.TimeBlind) :
    traceActions L index (s.withTime time) actions =
      (traceActions L index s actions).map fun r => (r.1, r.2.1.withTime time, r.2.2) := by
  have hstep : ∀ (step : ActionStep L)
      (rest : Except PyError (List (ActionStep L) × EventActionState × Outcome)),
      withStep L step (rest.map fun r => (r.1, r.2.1.withTime time, r.2.2)) =
        (withStep L step rest).map fun r => (r.1, r.2.1.withTime time, r.2.2) := by
    intro step rest
    cases rest <;> rfl
  -- by induction on the actions, none of which looks at the time
  induction actions generalizing index s with
  | nil => rfl
  | cons action actions ih =>
    have hfirst := h action List.mem_cons_self
    have hrest : ∀ (index : ℕ) (s : EventActionState),
        traceActions L index (s.withTime time) actions = _ :=
      fun index s => ih fun a ha => h a (List.mem_cons_of_mem _ ha)
    -- an extraction or an action is the same at any time, and so is the state it leaves but for
    -- the time
    cases action with
    | extract extractor =>
      obtain ⟨hvars, hsucceeds⟩ := hfirst s.context time s.vars
      rw [traceActions, traceActions]
      rw [show L.extractVariables extractor (s.withTime time).context (s.withTime time).vars =
        L.extractVariables extractor s.context s.vars from hvars]
      cases L.extractVariables extractor s.context s.vars with
      | error e => rfl
      | ok extracted =>
        obtain ⟨vars, outcome⟩ := extracted
        dsimp only
        rw [show L.extractionSucceeds extractor (s.withTime time).context (s.withTime time).vars =
          L.extractionSucceeds extractor s.context s.vars from hsucceeds]
        cases outcome with
        | «continue» =>
          dsimp only
          rw [← hstep]
          exact congrArg _ (hrest (index + 1) { s with vars := vars })
        | stopRule => rfl
        | stopOrchestration => rfl
    | run body onFailure =>
      have hrun := hfirst s time ("actions[" ++ toString index ++ "]")
      rw [traceActions, traceActions, hrun]
      obtain ⟨left, outcome⟩ := executeAction L s ("actions[" ++ toString index ++ "]") body
      dsimp only
      cases outcome with
      | error e =>
        cases e with
        | evaluation message path =>
          dsimp only
          split
          · rw [← hstep]
            exact congrArg _ (hrest _ _)
          · rfl
        | other className => rfl
      | ok outcome =>
        cases outcome with
        | «continue» =>
          dsimp only
          rw [← hstep]
          exact congrArg _ (hrest _ _)
        | stopRule =>
          dsimp only
          rw [← hstep]
          exact congrArg _ (hrest _ _)
        | stopOrchestration => rfl

/-- The trace of a rule does not show it. -/
theorem closeRule_withTime (time : Dict) (path : String) (rule : Rule L)
    (steps : List (ActionStep L)) (traces : List (RuleTrace L)) (s : EventActionState)
    (stopped : Bool) :
    closeRule L path rule steps (traces, s.withTime time, stopped) =
      ((closeRule L path rule steps (traces, s, stopped)).1,
        (closeRule L path rule steps (traces, s, stopped)).2.1.withTime time,
        (closeRule L path rule steps (traces, s, stopped)).2.2) := by
  unfold closeRule
  cases stopped with
  | true => rfl
  | false =>
    dsimp only
    split_ifs <;> rfl

mutual
/-- **A rule that does not look at the time** does the same at another one. By induction on it.
-/
theorem traceRule_withTime (time : Dict) (s : EventActionState) (path : String) :
    ∀ rule : Rule L, rule.TimeBlind → traceRule L (s.withTime time) path rule =
      (traceRule L s path rule).map fun r => (r.1, r.2.1.withTime time, r.2.2)
  | .mk false mode condition actions children, _ => by
    rw [traceRule, traceRule]
    rfl
  | .mk true mode condition actions children, h => by
    rw [Rule.TimeBlind] at h
    obtain ⟨hcondition, hactions, hchildren⟩ := h
    rw [traceRule, traceRule, context_withTime, hcondition]
    cases L.evaluateConditionTree condition s.context with
    | error e => rfl
    -- the condition and the actions of the rule are blind to the time, and so are its children
    | ok held =>
      cases held with
      | false => rfl
      | true =>
        simp only [bind, Except.bind, Bool.not_true, Bool.false_eq_true, if_false]
        rw [traceActions_withTime time hactions]
        cases traceActions L 0 s actions with
        | error e => rfl
        | ok ran =>
          obtain ⟨steps, left, outcome⟩ := ran
          dsimp only [Except.map]
          split_ifs
          · rfl
          · rw [traceLevel_withTime time left (path ++ ".children") 0 children hchildren]
            cases traceLevel L left (path ++ ".children") 0 children with
            | error e => rfl
            | ok level => exact congrArg Except.ok (closeRule_withTime time _ _ _ _ _ _)
          · exact congrArg Except.ok (closeRule_withTime time _ _ _ _ _ _)

theorem traceLevel_withTime (time : Dict) (s : EventActionState) (path : String) (index : ℕ) :
    ∀ rules : List (Rule L), RulesTimeBlind rules →
      traceLevel L (s.withTime time) path index rules =
        (traceLevel L s path index rules).map fun r => (r.1, r.2.1.withTime time, r.2.2)
  | [], _ => rfl
  | rule :: rules, h => by
    rw [RulesTimeBlind] at h
    rw [traceLevel, traceLevel, traceRule_withTime time s _ rule h.1]
    cases traceRule L s (path ++ "[" ++ toString index ++ "]") rule with
    | error e => rfl
    | ok first =>
      obtain ⟨trace, left, stopped⟩ := first
      -- the level stops at the same rule
      cases stopped with
      | true => rfl
      | false =>
        have hrest := traceLevel_withTime time left path (index + 1) rules h.2
        show (traceLevel L (left.withTime time) path (index + 1) rules >>= _) = _
        rw [hrest]
        show _ = Except.map _ (traceLevel L left path (index + 1) rules >>= _)
        cases traceLevel L left path (index + 1) rules <;> rfl
end

/-- **Rules that do not read the time leave the same trace at every time.** -/
theorem executeRuleTree_withTime {defaultHistory : HistoryLevel} {rules : List (Rule L)}
    (h : RulesTimeBlind rules) {c c' : Context} {s : EventActionState} (time : Dict)
    (hs : EventActionState.fromContext defaultHistory c = .ok s)
    (hs' : EventActionState.fromContext defaultHistory c' = .ok (s.withTime time)) :
    executeRuleTreeTraced L defaultHistory rules c' =
      (executeRuleTreeTraced L defaultHistory rules c).map
        fun r => { r with state := r.state.withTime time } := by
  unfold executeRuleTreeTraced
  rw [hs, hs']
  show (traceLevel L (s.withTime time) "rules" 0 rules >>= _) =
    Except.map _ (traceLevel L s "rules" 0 rules >>= _)
  rw [traceLevel_withTime time s "rules" 0 rules h]
  cases traceLevel L s "rules" 0 rules <;> rfl

end Time

end IncidentRelay.Orchestration
