import IncidentRelay.Lib.Result
import IncidentRelay.Orchestration.Engine

/-!
# The trace of a rule tree

`execute_rule_tree` with the trace it returns: a step for each action that was run,
and an entry for each rule of a level that the evaluation came to. Without the trace
it is the engine (`executeRuleTree_eq`).
-/

namespace IncidentRelay.Orchestration

/-! ## The trace -/

/-- `ActionStepResult`, with the action it is about. -/
structure ActionStep (L : Language) where
  index : ℕ
  action : Action L
  success : Bool
  outcome : Outcome

/-- `RuleExecutionResult.code`. -/
inductive RuleCode where
  | ruleDisabled
  | ruleNotMatched
  | ruleStoppedOrchestration
  | childStoppedOrchestration
  | processingModeStop
  | childrenEvaluatedThenStop
  | ruleMatched
  deriving DecidableEq, Repr

/-- The rule was evaluated and its condition held. -/
def RuleCode.matched : RuleCode → Bool
  | .ruleDisabled => false
  | .ruleNotMatched => false
  | _ => true

/-- `RuleExecutionResult`, with the rule it is about. -/
inductive RuleTrace (L : Language) where
  | mk (path : String) (rule : Rule L) (code : RuleCode) (steps : List (ActionStep L))
      (children : List (RuleTrace L))

section Rules

variable {L : Language}

def Rule.enabled : Rule L → Bool
  | .mk enabled _ _ _ _ => enabled

def Rule.mode : Rule L → ProcessingMode
  | .mk _ mode _ _ _ => mode

def Rule.condition : Rule L → L.Condition
  | .mk _ _ condition _ _ => condition

def Rule.actions : Rule L → List (Action L)
  | .mk _ _ _ actions _ => actions

def Rule.children : Rule L → List (Rule L)
  | .mk _ _ _ _ children => children

/-- `mode in {"evaluate_children", "children_then_continue"}`. -/
def ProcessingMode.opensChildren (mode : ProcessingMode) : Bool :=
  mode = .evaluateChildren ∨ mode = .childrenThenContinue

/-- The modes that stop the orchestration when the rule is at its end. -/
def ProcessingMode.stops (mode : ProcessingMode) : Bool :=
  mode = .stop ∨ mode = .evaluateChildren

end Rules

/-! ## The execution -/

section Execution

variable (L : Language)

/-- A step in front of the steps of the rest. -/
def withStep (step : ActionStep L)
    (rest : Except PyError (List (ActionStep L) × EventActionState × Outcome)) :
    Except PyError (List (ActionStep L) × EventActionState × Outcome) :=
  rest.map fun r => (step :: r.1, r.2)

/-- `execute_actions(actions, state=…)` from an index on, with its steps. -/
def traceActions (index : ℕ) (state : EventActionState) :
    List (Action L) → Except PyError (List (ActionStep L) × EventActionState × Outcome)
  | [] => .ok ([], state, .continue)
  | .extract extractor :: rest =>
    match L.extractVariables extractor state.context state.vars with
    | .error e => .error e
    | .ok (vars, outcome) =>
      let step : ActionStep L :=
        { index, action := .extract extractor,
          success := L.extractionSucceeds extractor state.context state.vars, outcome }
      match outcome with
      | .continue => withStep L step (traceActions (index + 1) { state with vars := vars } rest)
      | outcome => .ok ([step], { state with vars := vars }, outcome)
  | .run body onFailure :: rest =>
    match executeAction L state ("actions[" ++ toString index ++ "]") body with
    | (state, .ok .stopOrchestration) =>
      .ok ([⟨index, .run body onFailure, true, .stopOrchestration⟩], state, .stopOrchestration)
    | (state, .ok outcome) =>
      withStep L ⟨index, .run body onFailure, true, outcome⟩ (traceActions (index + 1) state rest)
    | (state, .error (.evaluation _ _)) =>
      let step : ActionStep L := ⟨index, .run body onFailure, false, onFailure⟩
      if onFailure = .continue then withStep L step (traceActions (index + 1) state rest)
      else .ok ([step], state, onFailure)
    | (_, .error e) => .error e

/-- The entry of a rule behind its children, and whether it stops. -/
def closeRule (path : String) (rule : Rule L) (steps : List (ActionStep L))
    (children : List (RuleTrace L) × EventActionState × Bool) :
    RuleTrace L × EventActionState × Bool :=
  match children with
  | (traces, state, true) => (.mk path rule .childStoppedOrchestration steps traces, state, true)
  | (traces, state, false) =>
    if rule.mode = .stop then (.mk path rule .processingModeStop steps traces, state, true)
    else if rule.mode = .evaluateChildren then
      (.mk path rule .childrenEvaluatedThenStop steps traces, state, true)
    else (.mk path rule .ruleMatched steps traces, state, false)

mutual
/-- One rule of `_execute_level`, with its entry. -/
def traceRule (state : EventActionState) (path : String) :
    Rule L → Except PyError (RuleTrace L × EventActionState × Bool)
  | .mk false mode condition actions children =>
    .ok (.mk path (.mk false mode condition actions children) .ruleDisabled [] [], state, false)
  | .mk true mode condition actions children => do
    let rule := Rule.mk true mode condition actions children
    if !(← L.evaluateConditionTree condition state.context) then
      .ok (.mk path rule .ruleNotMatched [] [], state, false)
    else
      let (steps, state, outcome) ← traceActions L 0 state actions
      if outcome = .stopOrchestration then
        .ok (.mk path rule .ruleStoppedOrchestration steps [], state, true)
      else if mode.opensChildren then
        (traceLevel state (path ++ ".children") 0 children).map (closeRule L path rule steps)
      else .ok (closeRule L path rule steps ([], state, false))

/-- `_execute_level(rules, state, …)` from an index on. -/
def traceLevel (state : EventActionState) (path : String) (index : ℕ) :
    List (Rule L) → Except PyError (List (RuleTrace L) × EventActionState × Bool)
  | [] => .ok ([], state, false)
  | rule :: rules => do
    let (trace, state, stopped) ← traceRule state (path ++ "[" ++ toString index ++ "]") rule
    if stopped then .ok ([trace], state, true)
    else
      let (traces, state, stopped) ← traceLevel state path (index + 1) rules
      .ok (trace :: traces, state, stopped)
end

/-- `OrchestrationExecutionResult`. -/
structure OrchestrationExecutionResult where
  state : EventActionState
  rules : List (RuleTrace L)
  outcome : String

/-- `execute_rule_tree(rules, context)` with its trace. -/
def executeRuleTreeTraced (defaultHistory : HistoryLevel) (rules : List (Rule L))
    (context : Context) : Except PyError (OrchestrationExecutionResult L) := do
  let state ← EventActionState.fromContext defaultHistory context
  let (traces, state, stopped) ← traceLevel L state "rules" 0 rules
  .ok { state, rules := traces,
        outcome := if state.result.dropped then "drop" else if stopped then "stop" else "continue" }

end Execution

/-! ## What a rule leaves -/

section Cases

variable {L : Language}

/-- The children of a matched rule, where its mode opens them. -/
def traceChildren (L : Language) (state : EventActionState) (path : String) (rule : Rule L) :
    Except PyError (List (RuleTrace L) × EventActionState × Bool) :=
  if rule.mode.opensChildren then traceLevel L state (path ++ ".children") 0 rule.children
  else .ok ([], state, false)

/-- How a rule ends. -/
inductive RuleEnds (state : EventActionState) (path : String) (rule : Rule L) :
    RuleTrace L → EventActionState → Bool → Prop where
  | disabled : rule.enabled = false →
      RuleEnds state path rule (.mk path rule .ruleDisabled [] []) state false
  | unmatched : rule.enabled = true →
      L.evaluateConditionTree rule.condition state.context = .ok false →
      RuleEnds state path rule (.mk path rule .ruleNotMatched [] []) state false
  | halted {steps : List (ActionStep L)} {t : EventActionState} : rule.enabled = true →
      L.evaluateConditionTree rule.condition state.context = .ok true →
      traceActions L 0 state rule.actions = .ok (steps, t, .stopOrchestration) →
      RuleEnds state path rule (.mk path rule .ruleStoppedOrchestration steps []) t true
  | closed {steps : List (ActionStep L)} {s t : EventActionState} {outcome : Outcome}
      {children : List (RuleTrace L)} {stopped : Bool} : rule.enabled = true →
      L.evaluateConditionTree rule.condition state.context = .ok true →
      traceActions L 0 state rule.actions = .ok (steps, s, outcome) →
      outcome ≠ .stopOrchestration →
      traceChildren L s path rule = .ok (children, t, stopped) →
      RuleEnds state path rule (closeRule L path rule steps (children, t, stopped)).1
        (closeRule L path rule steps (children, t, stopped)).2.1
        (closeRule L path rule steps (children, t, stopped)).2.2

/-- **How a rule ends**: one case for each way through it. -/
theorem traceRule_ends {state t : EventActionState} {path : String} {rule : Rule L}
    {trace : RuleTrace L} {stopped : Bool}
    (h : traceRule L state path rule = .ok (trace, t, stopped)) :
    RuleEnds state path rule trace t stopped := by
  obtain ⟨enabled, mode, condition, actions, children⟩ := rule
  -- a rule ends when it is disabled, does not match, is halted by an action, or closes
  cases enabled with
  | false =>
    rw [traceRule] at h
    cases h
    exact .disabled rfl
  | true =>
    rw [traceRule] at h
    obtain ⟨matched, hcondition, h⟩ := bind_eq_ok.mp h
    cases matched with
    | false =>
      cases h
      exact .unmatched rfl hcondition
    | true =>
      obtain ⟨⟨steps, s, outcome⟩, hactions, h⟩ := bind_eq_ok.mp h
      dsimp only at h
      split at h
      · rename_i houtcome
        cases h
        subst houtcome
        exact .halted rfl hcondition hactions
      · rename_i houtcome
        have hchildren : ∃ kids, traceChildren L s path (.mk true mode condition actions children) =
            .ok kids ∧ closeRule L path (.mk true mode condition actions children) steps kids =
              (trace, t, stopped) := by
          by_cases hopens : mode.opensChildren = true
          · have hkids : traceChildren L s path (.mk true mode condition actions children) =
                traceLevel L s (path ++ ".children") 0 children := if_pos hopens
            rw [if_pos hopens] at h
            rw [hkids]
            cases hlevel : traceLevel L s (path ++ ".children") 0 children with
            | error e =>
              rw [hlevel] at h
              cases h
            | ok kids =>
              rw [hlevel] at h
              exact ⟨kids, rfl, Except.ok.inj h⟩
          · have hkids : traceChildren L s path (.mk true mode condition actions children) =
                .ok ([], s, false) := if_neg hopens
            rw [if_neg hopens] at h
            exact ⟨_, hkids, Except.ok.inj h⟩
        obtain ⟨⟨kids, u, halted⟩, hkids, hclose⟩ := hchildren
        have hends : RuleEnds state path (.mk true mode condition actions children) _ _ _ :=
          .closed rfl hcondition hactions houtcome hkids
        rw [hclose] at hends
        exact hends

end Cases

/-! ## Without the trace -/

section Erasure

variable (L : Language)

/-- By induction on the actions. -/
theorem executeActions_eq (index : ℕ) (state : EventActionState) (actions : List (Action L)) :
    executeActions L index state actions = (traceActions L index state actions).map (·.2) := by
  have hstep : ∀ (step : ActionStep L) rest,
      (withStep L step rest).map (·.2) = rest.map (·.2) := by
    intro step rest
    cases rest <;> rfl
  -- the loop and the traced loop take the same steps
  induction actions generalizing index state with
  | nil => rfl
  | cons action actions ih =>
    cases action with
    | extract extractor =>
      rw [executeActions, traceActions]
      cases L.extractVariables extractor state.context state.vars with
      | error e => rfl
      | ok extracted =>
        obtain ⟨vars, outcome⟩ := extracted
        cases outcome with
        | «continue» =>
          show executeActions L (index + 1) _ actions = (withStep L _ _).map (·.2)
          rw [hstep]
          exact ih _ _
        | stopRule => rfl
        | stopOrchestration => rfl
    | run body onFailure =>
      rw [executeActions, traceActions]
      obtain ⟨left, outcome⟩ := executeAction L state ("actions[" ++ toString index ++ "]") body
      cases outcome with
      | error e =>
        cases e with
        | evaluation message path =>
          dsimp only
          split
          · rw [hstep]
            exact ih _ _
          · rfl
        | other className => rfl
      | ok outcome =>
        cases outcome with
        | «continue» =>
          show executeActions L (index + 1) _ actions = (withStep L _ _).map (·.2)
          rw [hstep]
          exact ih _ _
        | stopRule =>
          show executeActions L (index + 1) _ actions = (withStep L _ _).map (·.2)
          rw [hstep]
          exact ih _ _
        | stopOrchestration => rfl

theorem ProcessingMode.stops_eq (mode : ProcessingMode) :
    mode.stops = (decide (mode = .stop) || decide (mode = .evaluateChildren)) := by
  unfold ProcessingMode.stops
  exact Bool.decide_or _ _

/-- What a level leaves beside its trace. -/
def LevelResult.rest (r : LevelResult) : EventActionState × Bool := (r.state, r.stopped)

/-- What is left of a rule without its trace. -/
theorem closeRule_rest (path : String) (rule : Rule L) (steps : List (ActionStep L))
    (traces : List (RuleTrace L)) (state : EventActionState) (stopped : Bool) :
    (closeRule L path rule steps (traces, state, stopped)).2 =
      (state, stopped || rule.mode.stops) := by
  unfold closeRule ProcessingMode.stops
  cases stopped with
  | true => rfl
  | false =>
    dsimp only
    split_ifs with hstop hchildren
    · simp [hstop]
    · simp [hchildren]
    · simp [hstop, hchildren]

mutual
/-- **A rule without its trace.** By induction on it. -/
theorem executeRule_rest (state : EventActionState) (matched : ℕ) (path : String) :
    ∀ rule : Rule L, (executeRule L state matched rule).map (·.rest) =
      (traceRule L state path rule).map (·.2)
  | .mk false mode condition actions children => by
    rw [executeRule, traceRule]
    rfl
  -- the children are executed in the same way, as the levels are
  | .mk true mode condition actions children => by
    rw [executeRule, traceRule]
    cases L.evaluateConditionTree condition state.context with
    | error e => rfl
    | ok held =>
      cases held with
      | false => rfl
      | true =>
        simp only [bind, Except.bind, Bool.not_true, Bool.false_eq_true, if_false]
        rw [executeActions_eq]
        cases traceActions L 0 state actions with
        | error e => rfl
        | ok ran =>
          obtain ⟨steps, s, outcome⟩ := ran
          have hlevel := executeLevel_rest s (matched + 1) (path ++ ".children") 0 children
          dsimp only [Except.map]
          by_cases houtcome : outcome = .stopOrchestration
          · rw [if_pos houtcome, if_pos houtcome]
            rfl
          · rw [if_neg houtcome, if_neg houtcome]
            by_cases hopens : mode = .evaluateChildren ∨ mode = .childrenThenContinue
            · have hmode : mode.opensChildren = true := decide_eq_true hopens
              rw [if_pos hopens, if_pos hmode]
              cases hchildren : executeLevel L s (matched + 1) children with
              | error e =>
                rw [hchildren] at hlevel
                rw [map_error_eq hlevel.symm]
              | ok level =>
                rw [hchildren] at hlevel
                obtain ⟨⟨traces, t, stopped⟩, htraces, hlevel⟩ := map_ok_eq hlevel.symm
                rw [htraces]
                have hrest : level.rest = (t, stopped) := hlevel.symm
                have hclose := closeRule_rest L path (.mk true mode condition actions children)
                  steps traces t stopped
                show Except.ok _ = Except.ok _
                rw [hclose]
                cases hrest
                show Except.ok (level.state, level.stopped || decide _ || decide _) =
                  Except.ok (level.state, level.stopped || mode.stops)
                rw [mode.stops_eq, Bool.or_assoc]
            · have hmode : ¬mode.opensChildren = true := fun h => hopens (of_decide_eq_true h)
              have hclose := closeRule_rest L path (.mk true mode condition actions children)
                steps [] s false
              rw [if_neg hopens, if_neg hmode]
              show Except.ok _ = Except.ok _
              rw [hclose]
              show Except.ok (s, false || decide _ || decide _) = Except.ok (s, false || mode.stops)
              rw [mode.stops_eq, Bool.or_assoc]

theorem executeLevel_rest (state : EventActionState) (matched : ℕ) (path : String) (index : ℕ) :
    ∀ rules : List (Rule L), (executeLevel L state matched rules).map (·.rest) =
      (traceLevel L state path index rules).map (·.2)
  | [] => rfl
  | rule :: rules => by
    have hrule := executeRule_rest state matched (path ++ "[" ++ toString index ++ "]") rule
    rw [executeLevel, traceLevel]
    cases hfirst : executeRule L state matched rule with
    | error e =>
      rw [hfirst] at hrule
      rw [map_error_eq hrule.symm]
      rfl
    | ok level =>
      rw [hfirst] at hrule
      obtain ⟨⟨trace, t, stopped⟩, htrace, hrest⟩ := map_ok_eq hrule.symm
      have hrest : level.rest = (t, stopped) := hrest.symm
      have hlevel := executeLevel_rest level.state level.matched path (index + 1) rules
      rw [htrace]
      cases hrest
      -- the level stops with its first rule that stops
      cases hstopped : level.stopped with
      | true =>
        show (if level.stopped = true then _ else _ : Except PyError LevelResult).map _ = _
        rw [if_pos hstopped]
        show Except.ok level.rest = Except.ok (level.state, true)
        rw [LevelResult.rest, hstopped]
      | false =>
        show (if level.stopped = true then _ else _ : Except PyError LevelResult).map _ = _
        rw [if_neg (by simp [hstopped]), hlevel]
        show Except.map _ (traceLevel L level.state path (index + 1) rules) = Except.map _
          (traceLevel L level.state path (index + 1) rules >>= _)
        cases traceLevel L level.state path (index + 1) rules with
        | error e => rfl
        | ok rest => rfl
end

/-- **Without its trace, the traced execution is the execution.** -/
theorem executeRuleTree_eq (defaultHistory : HistoryLevel) (rules : List (Rule L))
    (context : Context) :
    (executeRuleTree L defaultHistory rules context).map (·.state) =
      (executeRuleTreeTraced L defaultHistory rules context).map (·.state) := by
  unfold executeRuleTree executeRuleTreeTraced
  -- both start from the same state
  cases EventActionState.fromContext defaultHistory context with
  | error e => rfl
  | ok state =>
    have hlevel := executeLevel_rest L state 0 "rules" 0 rules
    show (executeLevel L state 0 rules).map _ = Except.map _ (traceLevel L state "rules" 0 rules >>= _)
    cases hrun : executeLevel L state 0 rules with
    | error e =>
      rw [hrun] at hlevel
      rw [map_error_eq hlevel.symm]
      rfl
    | ok level =>
      rw [hrun] at hlevel
      obtain ⟨⟨traces, t, stopped⟩, htraces, hrest⟩ := map_ok_eq hlevel.symm
      rw [htraces]
      show Except.ok level.state = Except.ok t
      rw [show t = level.state from congrArg Prod.fst hrest]

end Erasure

end IncidentRelay.Orchestration
