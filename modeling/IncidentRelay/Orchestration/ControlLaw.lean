import IncidentRelay.Orchestration.Containment
import IncidentRelay.Orchestration.Trace
import Mathlib.Data.List.Induction

/-!
# The control law of the rule engine

The evaluation of a rule tree is a walk over a stack of tasks: the rules in their
order, the children of a matched rule in front of what follows it, and behind them
the end of the rule (`Walk`). What is visited, what a condition sees and what a stop
signal ends are read off the walk. The state is at every point what the actions that
were run have made of it; that the ones that failed have made nothing of it does not
hold of every action (`control_law_iff`).
-/

namespace IncidentRelay.Orchestration

open Json

variable {L : Language}

/-! ## What happens, in order -/

inductive Entry (L : Language) where
  /-- the condition of a rule is evaluated -/
  | visit (path : String) (rule : Rule L) (matched : Bool)
  /-- an action is run -/
  | step (path : String) (step : ActionStep L)
  /-- a matched rule is at its end -/
  | finish (path : String) (rule : Rule L)

/-- The entries of the actions of a rule. -/
def stepEntries (path : String) (steps : List (ActionStep L)) : List (Entry L) :=
  steps.map (.step path)

/-- The rule came to its end. -/
def RuleCode.finished : RuleCode → Bool
  | .processingModeStop => true
  | .childrenEvaluatedThenStop => true
  | .ruleMatched => true
  | _ => false

mutual
/-- The entries of a trace. -/
def RuleTrace.log : RuleTrace L → List (Entry L)
  | .mk path rule code steps children =>
    (if code = .ruleDisabled then [] else [.visit path rule code.matched]) ++
      stepEntries path steps ++ logs children ++
      (if code.finished then [.finish path rule] else [])

def logs : List (RuleTrace L) → List (Entry L)
  | [] => []
  | trace :: traces => trace.log ++ logs traces
end

/-- A stop signal. -/
def Entry.stops : Entry L → Bool
  | .visit _ _ _ => false
  | .step _ ran => ran.outcome = .stopOrchestration
  | .finish _ rule => rule.mode.stops

/-! ## What the actions make of the state -/

/-- The state that the action of a step leaves. -/
def ActionStep.effect (step : ActionStep L) (s : EventActionState) : EventActionState :=
  match step.action with
  | .extract extractor =>
    match L.extractVariables extractor s.context s.vars with
    | .ok (vars, _) => { s with vars := vars }
    | .error _ => s
  | .run body _ => (executeAction L s ("actions[" ++ toString step.index ++ "]") body).1

/-- The action of a step succeeds in a state. -/
def ActionStep.succeeds (step : ActionStep L) (s : EventActionState) : Bool :=
  match step.action with
  | .extract extractor => L.extractionSucceeds extractor s.context s.vars
  | .run body _ => (executeAction L s ("actions[" ++ toString step.index ++ "]") body).2.isOk

def Entry.effect (s : EventActionState) : Entry L → EventActionState
  | .step _ ran => ran.effect s
  | _ => s

/-- The state after what happened. -/
def replay (s : EventActionState) (log : List (Entry L)) : EventActionState :=
  log.foldl Entry.effect s

/-- The effect of a step that is recorded as a success. -/
def Entry.successEffect (s : EventActionState) : Entry L → EventActionState
  | .step _ ran => if ran.success then ran.effect s else s
  | _ => s

/-- The fold of the successful steps. -/
def replaySuccessful (s : EventActionState) (log : List (Entry L)) : EventActionState :=
  log.foldl Entry.successEffect s

/-! ## The walk -/

inductive Task (L : Language) where
  | rule (path : String) (rule : Rule L)
  | finish (path : String) (rule : Rule L)

/-- The rules of a level, each under its path. -/
def tasks (path : String) (index : ℕ) : List (Rule L) → List (Task L)
  | [] => []
  | rule :: rules =>
    .rule (path ++ "[" ++ toString index ++ "]") rule :: tasks path (index + 1) rules

/-- The children that a matched rule opens. -/
def childTasks (path : String) (rule : Rule L) : List (Task L) :=
  if rule.mode.opensChildren then tasks (path ++ ".children") 0 rule.children else []

inductive Walk : List (Task L) → EventActionState → List (Entry L) → EventActionState → Prop where
  | done (s : EventActionState) : Walk [] s [] s
  | disabled {path : String} {rule : Rule L} {ts : List (Task L)} {s t : EventActionState}
      {log : List (Entry L)} : rule.enabled = false → Walk ts s log t →
      Walk (.rule path rule :: ts) s log t
  | unmatched {path : String} {rule : Rule L} {ts : List (Task L)} {s t : EventActionState}
      {log : List (Entry L)} : rule.enabled = true →
      L.evaluateConditionTree rule.condition s.context = .ok false → Walk ts s log t →
      Walk (.rule path rule :: ts) s (.visit path rule false :: log) t
  | halted {path : String} {rule : Rule L} {ts : List (Task L)} {s t : EventActionState}
      {steps : List (ActionStep L)} : rule.enabled = true →
      L.evaluateConditionTree rule.condition s.context = .ok true →
      traceActions L 0 s rule.actions = .ok (steps, t, .stopOrchestration) →
      Walk (.rule path rule :: ts) s (.visit path rule true :: stepEntries path steps) t
  | matched {path : String} {rule : Rule L} {ts : List (Task L)} {s s' t : EventActionState}
      {steps : List (ActionStep L)} {outcome : Outcome} {log : List (Entry L)} :
      rule.enabled = true → L.evaluateConditionTree rule.condition s.context = .ok true →
      traceActions L 0 s rule.actions = .ok (steps, s', outcome) →
      outcome ≠ .stopOrchestration →
      Walk (childTasks path rule ++ .finish path rule :: ts) s' log t →
      Walk (.rule path rule :: ts) s (.visit path rule true :: (stepEntries path steps ++ log)) t
  | stop {path : String} {rule : Rule L} {ts : List (Task L)} (s : EventActionState) :
      rule.mode.stops = true → Walk (.finish path rule :: ts) s [.finish path rule] s
  | pass {path : String} {rule : Rule L} {ts : List (Task L)} {s t : EventActionState}
      {log : List (Entry L)} : rule.mode.stops = false → Walk ts s log t →
      Walk (.finish path rule :: ts) s (.finish path rule :: log) t

/-! ## The engine walks -/

/-- A part of an evaluation in front of a stack: it ends the walk, or the walk goes
on with the stack. -/
def WalksOver (part : List (Task L)) (s : EventActionState) (log : List (Entry L))
    (t : EventActionState) (stopped : Bool) : Prop :=
  if stopped then ∀ ts, Walk (part ++ ts) s log t
  else ∀ ts rest u, Walk ts t rest u → Walk (part ++ ts) s (log ++ rest) u

/-- The log of a rule: it was visited, its actions ran, then its children. -/
theorem closeRule_log (path : String) (rule : Rule L) (steps : List (ActionStep L))
    (traces : List (RuleTrace L)) (t : EventActionState) (stopped : Bool) :
    (closeRule L path rule steps (traces, t, stopped)).1.log =
      .visit path rule true :: (stepEntries path steps ++ logs traces ++
        if stopped then [] else [.finish path rule]) := by
  unfold closeRule
  cases stopped with
  | true => simp [RuleTrace.log, RuleCode.matched, RuleCode.finished]
  | false =>
    simp only [Bool.false_eq_true, if_false]
    split_ifs <;> simp [RuleTrace.log, RuleCode.matched, RuleCode.finished]

/-- Two parts of a walk. -/
theorem WalksOver.append {part part' : List (Task L)} {s t u : EventActionState}
    {log log' : List (Entry L)} {stopped : Bool} (h : WalksOver part s log t false)
    (h' : WalksOver part' t log' u stopped) : WalksOver (part ++ part') s (log ++ log') u stopped := by
  unfold WalksOver at h h' ⊢
  rw [if_neg Bool.false_ne_true] at h
  cases stopped with
  | true =>
    intro ts
    rw [List.append_assoc]
    exact h _ _ _ (h' ts)
  | false =>
    intro ts rest v hrest
    rw [List.append_assoc, List.append_assoc]
    exact h _ _ _ (h' ts rest v hrest)

/-- A matched rule, with its end behind the children. -/
theorem walksOver_closed {s s' t : EventActionState} {path : String} {rule : Rule L}
    {steps : List (ActionStep L)} {outcome : Outcome} {traces : List (RuleTrace L)}
    {stopped : Bool} (henabled : rule.enabled = true)
    (hcondition : L.evaluateConditionTree rule.condition s.context = .ok true)
    (hactions : traceActions L 0 s rule.actions = .ok (steps, s', outcome))
    (houtcome : outcome ≠ .stopOrchestration)
    (hchildren : WalksOver (childTasks path rule) s' (logs traces) t stopped) :
    WalksOver [.rule path rule] s (closeRule L path rule steps (traces, t, stopped)).1.log
      (closeRule L path rule steps (traces, t, stopped)).2.1
      (closeRule L path rule steps (traces, t, stopped)).2.2 := by
  rw [closeRule_log, closeRule_rest]
  unfold WalksOver at hchildren ⊢
  -- what stops the walk: a child, or the mode of the rule itself
  cases stopped with
  | true =>
    intro ts
    rw [if_pos rfl, List.append_nil]
    exact .matched henabled hcondition hactions houtcome (hchildren _)
  | false =>
    cases hstops : rule.mode.stops with
    | true =>
      intro ts
      rw [if_neg Bool.false_ne_true, List.append_assoc]
      exact .matched henabled hcondition hactions houtcome (hchildren _ _ _ (.stop t hstops))
    | false =>
      intro ts rest u hrest
      simp only [Bool.false_eq_true, if_false, List.cons_append, List.nil_append, List.append_assoc]
      exact .matched henabled hcondition hactions houtcome (hchildren _ _ _ (.pass hstops hrest))

mutual
/-- **A rule walks over itself.** By induction on it, together with its children. -/
theorem traceRule_walks {state t : EventActionState} {path : String} {trace : RuleTrace L}
    {stopped : Bool} : ∀ rule : Rule L, traceRule L state path rule = .ok (trace, t, stopped) →
      WalksOver [.rule path rule] state trace.log t stopped
  | .mk enabled mode condition actions children, h => by
    have hends := traceRule_ends h
    cases hends with
    | disabled hdisabled =>
      intro ts rest u hrest
      exact .disabled hdisabled hrest
    | unmatched henabled hcondition =>
      intro ts rest u hrest
      exact .unmatched henabled hcondition hrest
    | halted henabled hcondition hactions =>
      intro ts
      have hwalk : Walk (.rule path (.mk enabled mode condition actions children) :: ts)
          state _ _ := .halted henabled hcondition hactions
      simpa [RuleTrace.log, logs, RuleCode.matched, RuleCode.finished] using hwalk
    -- a rule that matched goes on with its children, if its mode opens them
    | closed henabled hcondition hactions houtcome hchildren =>
      refine walksOver_closed henabled hcondition hactions houtcome ?_
      by_cases hopens : mode.opensChildren = true
      · -- the children are walked in front of the end of the rule
        have htasks : childTasks path (.mk enabled mode condition actions children) =
            tasks (path ++ ".children") 0 children := if_pos hopens
        rw [htasks]
        exact traceLevel_walks children ((if_pos hopens).symm.trans hchildren)
      · have htasks : childTasks path (.mk enabled mode condition actions children) = [] :=
          if_neg hopens
        rw [htasks]
        cases (if_neg hopens).symm.trans hchildren
        intro ts rest u hrest
        exact hrest

theorem traceLevel_walks {state t : EventActionState} {path : String} {index : ℕ}
    {traces : List (RuleTrace L)} {stopped : Bool} : ∀ rules : List (Rule L),
      traceLevel L state path index rules = .ok (traces, t, stopped) →
      WalksOver (tasks path index rules) state (logs traces) t stopped
  | [], h => by
    rw [traceLevel] at h
    cases h
    intro ts rest u hrest
    exact hrest
  | rule :: rules, h => by
    rw [traceLevel] at h
    -- the level stops with the first rule that stops
    obtain ⟨⟨trace, s, halted⟩, hrule, h⟩ := bind_eq_ok.mp h
    have hwalk := traceRule_walks rule hrule
    cases halted with
    | true =>
      cases h
      have hlogs : logs [trace] = trace.log := by simp [logs]
      rw [hlogs]
      intro ts
      exact hwalk (tasks path (index + 1) rules ++ ts)
    | false =>
      obtain ⟨⟨rest, u, stopped⟩, hrest, h⟩ := bind_eq_ok.mp h
      cases h
      exact hwalk.append (traceLevel_walks rules hrest)
end

/-! ## What an entry says of the state -/

/-- An entry is true of the state it is made in. -/
def Entry.Holds (s : EventActionState) : Entry L → Prop
  | .visit _ rule matched =>
    rule.enabled = true ∧ L.evaluateConditionTree rule.condition s.context = .ok matched
  | .step _ ran => ran.success = ran.succeeds s
  | .finish _ _ => True

/-- Every entry is true of the state that what happened before has made. -/
def Sees (s : EventActionState) (log : List (Entry L)) : Prop :=
  ∀ before e after, log = before ++ e :: after → e.Holds (replay s before)

/-- Nothing happens behind a stop signal. -/
def EndsAtStop (log : List (Entry L)) : Prop :=
  ∀ before e after, log = before ++ e :: after → e.stops = true → after = []

theorem replay_append (s : EventActionState) (log log' : List (Entry L)) :
    replay s (log ++ log') = replay (replay s log) log' := List.foldl_append

theorem sees_nil (s : EventActionState) : Sees s ([] : List (Entry L)) := by
  intro before e after h
  simp at h

/-- One more entry in front. -/
theorem Sees.cons {s : EventActionState} {e : Entry L} {log : List (Entry L)} (he : e.Holds s)
    (h : Sees (e.effect s) log) : Sees s (e :: log) := by
  intro before e' after heq
  cases before with
  | nil =>
    cases heq
    exact he
  | cons first before =>
    cases heq
    exact h before e' after rfl

/-- Two logs, one after the other. -/
theorem Sees.append {s : EventActionState} {log log' : List (Entry L)} (h : Sees s log)
    (h' : Sees (replay s log) log') : Sees s (log ++ log') := by
  induction log generalizing s with
  | nil => exact h'
  | cons e log ih =>
    refine .cons (h [] e log rfl) (ih ?_ h')
    intro before e' after heq
    exact h (e :: before) e' after (congrArg (e :: ·) heq)

theorem endsAtStop_nil : EndsAtStop ([] : List (Entry L)) := by
  intro before e after h
  simp at h

/-- What stops is the last entry. -/
theorem EndsAtStop.cons {e : Entry L} {log : List (Entry L)} (he : e.stops = true → log = [])
    (h : EndsAtStop log) : EndsAtStop (e :: log) := by
  intro before e' after heq hstops
  cases before with
  | nil =>
    cases heq
    exact he hstops
  | cons first before =>
    cases heq
    exact h before e' after rfl hstops

/-- Behind entries that do not stop. -/
theorem EndsAtStop.append {log log' : List (Entry L)} (h : ∀ e ∈ log, e.stops = false)
    (h' : EndsAtStop log') : EndsAtStop (log ++ log') := by
  induction log with
  | nil => exact h'
  | cons e log ih =>
    refine .cons ?_ (ih fun e' he' => h e' (List.mem_cons_of_mem e he'))
    intro hstops
    rw [h e List.mem_cons_self] at hstops
    cases hstops

/-! ## The actions of a rule -/

/-- What the actions of a rule leave in a log. -/
structure ActionsLogged (path : String) (s : EventActionState) (steps : List (ActionStep L))
    (t : EventActionState) (outcome : Outcome) : Prop where
  replayed : replay s (stepEntries path steps) = t
  sees : Sees s (stepEntries path steps)
  ends : EndsAtStop (stepEntries path steps)
  quiet : outcome ≠ .stopOrchestration → ∀ ran ∈ steps, ran.outcome ≠ .stopOrchestration

/-- An action ran, and the next one does. -/
theorem ActionsLogged.cons {path : String} {s t : EventActionState} {ran : ActionStep L}
    {steps : List (ActionStep L)} {outcome : Outcome} (htrue : ran.success = ran.succeeds s)
    (hquiet : ran.outcome ≠ .stopOrchestration)
    (h : ActionsLogged path (ran.effect s) steps t outcome) :
    ActionsLogged path s (ran :: steps) t outcome where
  replayed := h.replayed
  sees := .cons htrue h.sees
  ends := .cons (fun hstops => absurd (of_decide_eq_true hstops) hquiet) h.ends
  quiet houtcome other hother := by
    rcases List.mem_cons.mp hother with rfl | hother
    · exact hquiet
    · exact h.quiet houtcome other hother

/-- The last action, or one that stops. -/
theorem ActionsLogged.last {path : String} {s t : EventActionState} {ran : ActionStep L}
    (htrue : ran.success = ran.succeeds s) (ht : ran.effect s = t) :
    ActionsLogged path s [ran] t ran.outcome where
  replayed := ht
  sees := .cons htrue (sees_nil _)
  ends := .cons (fun _ => rfl) endsAtStop_nil
  quiet houtcome other hother := by
    obtain rfl := List.mem_singleton.mp hother
    exact houtcome

/-- A step that returned is in front of the others. -/
theorem withStep_eq_ok {ran : ActionStep L} {steps : List (ActionStep L)} {t : EventActionState}
    {outcome : Outcome} {rest : Except PyError (List (ActionStep L) × EventActionState × Outcome)}
    (h : withStep L ran rest = .ok (steps, t, outcome)) :
    ∃ others, rest = .ok (others, t, outcome) ∧ steps = ran :: others := by
  cases rest with
  | error e => cases h
  | ok r =>
    obtain ⟨others, t', outcome'⟩ := r
    cases h
    exact ⟨others, rfl, rfl⟩

/-- By induction on the actions. -/
theorem traceActions_logged {index : ℕ} (path : String) {s t : EventActionState}
    {actions : List (Action L)} {steps : List (ActionStep L)} {outcome : Outcome}
    (h : traceActions L index s actions = .ok (steps, t, outcome)) :
    ActionsLogged path s steps t outcome := by
  -- by induction on the actions, each of which is logged with the state before it
  induction actions generalizing index s steps with
  | nil =>
    cases h
    exact ⟨rfl, sees_nil _, endsAtStop_nil, by simp⟩
  | cons action actions ih =>
    cases action with
    -- an extraction logs its variables, or its failure
    | extract extractor =>
      rw [traceActions] at h
      cases hextract : L.extractVariables extractor s.context s.vars with
      | error e =>
        rw [hextract] at h
        cases h
      | ok extracted =>
        obtain ⟨vars, ending⟩ := extracted
        rw [hextract] at h
        let ran : ActionStep L :=
          ⟨index, .extract extractor, L.extractionSucceeds extractor s.context s.vars, ending⟩
        have heffect : ran.effect s = { s with vars := vars } := by
          show (match L.extractVariables extractor s.context s.vars with
            | .ok (vars, _) => { s with vars := vars }
            | .error _ => s) = _
          rw [hextract]
        cases ending with
        | «continue» =>
          obtain ⟨others, hrest, rfl⟩ := withStep_eq_ok h
          refine ActionsLogged.cons rfl Outcome.noConfusion ?_
          rw [heffect]
          exact ih hrest
        | stopRule =>
          cases h
          exact .last rfl heffect
        | stopOrchestration =>
          cases h
          exact .last rfl heffect
    -- an action logs the step that it is, and its failure policy says how the rule goes on
    | run body onFailure =>
      rw [traceActions] at h
      cases hrun : executeAction L s ("actions[" ++ toString index ++ "]") body with
      | mk left result =>
        rw [hrun] at h
        let ran (success : Bool) (ending : Outcome) : ActionStep L :=
          ⟨index, .run body onFailure, success, ending⟩
        have heffect : ∀ success ending, (ran success ending).effect s = left := by
          intro success ending
          exact congrArg Prod.fst hrun
        have hsucceeds : ∀ success ending, (ran success ending).succeeds s = result.isOk := by
          intro success ending
          exact congrArg (fun r => r.2.isOk) hrun
        cases result with
        | ok ending =>
          cases ending with
          | «continue» =>
            obtain ⟨others, hrest, rfl⟩ := withStep_eq_ok h
            refine ActionsLogged.cons (hsucceeds _ _).symm Outcome.noConfusion ?_
            rw [heffect]
            exact ih hrest
          | stopRule =>
            obtain ⟨others, hrest, rfl⟩ := withStep_eq_ok h
            refine ActionsLogged.cons (hsucceeds _ _).symm Outcome.noConfusion ?_
            rw [heffect]
            exact ih hrest
          | stopOrchestration =>
            cases h
            exact .last (hsucceeds _ _).symm (heffect _ _)
        | error e =>
          cases e with
          | evaluation message place =>
            dsimp only at h
            split at h
            · -- the failure is recorded, and the rest is run
              rename_i hcontinue
              subst hcontinue
              obtain ⟨others, hrest, rfl⟩ := withStep_eq_ok h
              refine ActionsLogged.cons (hsucceeds _ _).symm Outcome.noConfusion ?_
              rw [heffect]
              exact ih hrest
            · cases h
              exact .last (hsucceeds _ _).symm (heffect _ _)
          | other className => cases h

/-! ## What the walk shows -/

/-- The conditions that were evaluated. -/
def visits (log : List (Entry L)) : List (String × Rule L) :=
  log.filterMap fun e => match e with
    | .visit path rule _ => some (path, rule)
    | _ => none

mutual
/-- A rule and all rules below it. -/
def preorderRule (path : String) : Rule L → List (String × Rule L)
  | .mk enabled mode condition actions children =>
    (path, .mk enabled mode condition actions children) :: preorder (path ++ ".children") 0 children

/-- The rules of a level and all rules below them, each before its children and
these before its siblings. -/
def preorder (path : String) (index : ℕ) : List (Rule L) → List (String × Rule L)
  | [] => []
  | rule :: rules =>
    preorderRule (path ++ "[" ++ toString index ++ "]") rule ++ preorder path (index + 1) rules
end

def Task.preorder : Task L → List (String × Rule L)
  | .rule path top => preorderRule path top
  | .finish _ _ => []

/-- The tasks of a level in preorder. -/
theorem preorder_tasks (path : String) (index : ℕ) (rules : List (Rule L)) :
    (tasks path index rules).flatMap Task.preorder = preorder path index rules := by
  induction rules generalizing index with
  | nil => rfl
  | cons rule rules ih =>
    rw [tasks, List.flatMap_cons, ih, preorder]
    rfl

/-- Those of the children come behind the rule. -/
theorem preorder_childTasks (path : String) (rule : Rule L) :
    ((path, rule) :: (childTasks path rule).flatMap Task.preorder).Sublist
      (preorderRule path rule) := by
  obtain ⟨enabled, mode, condition, actions, children⟩ := rule
  rw [preorderRule]
  refine List.Sublist.cons_cons _ ?_
  unfold childTasks
  split_ifs
  · rw [preorder_tasks]
    exact List.Sublist.refl _
  · exact List.nil_sublist _

/-- Actions are no visits. -/
theorem visits_stepEntries (path : String) (steps : List (ActionStep L)) (log : List (Entry L)) :
    visits (stepEntries path steps ++ log) = visits log := by
  unfold visits stepEntries
  rw [List.filterMap_append, List.filterMap_map]
  simp

/-- None of them. -/
theorem visit_not_mem_steps {path path' : String} {rule : Rule L} {m : Bool}
    {steps : List (ActionStep L)} : Entry.visit path rule m ∉ stepEntries path' steps := by
  intro h
  obtain ⟨ran, -, heq⟩ := List.mem_map.mp h
  cases heq

namespace Walk

variable {ts : List (Task L)} {s t : EventActionState} {log : List (Entry L)}

/-- The rules are visited in pre-order. -/
theorem visits_preorder (h : Walk ts s log t) :
    (visits log).Sublist (ts.flatMap Task.preorder) := by
  -- each rule that is visited is the first of the tasks that are left
  induction h with
  | done s => exact List.Sublist.refl _
  | disabled _ _ ih => exact ih.trans (List.sublist_append_right _ _)
  | @unmatched path rule ts s t log _ _ _ ih =>
    have hsingle : [(path, rule)].Sublist (preorderRule path rule) :=
      (List.nil_sublist _).cons_cons _ |>.trans (preorder_childTasks path rule)
    exact hsingle.append ih
  | @halted path rule ts s t steps _ _ _ =>
    have hsingle : [(path, rule)].Sublist (preorderRule path rule) :=
      (List.nil_sublist _).cons_cons _ |>.trans (preorder_childTasks path rule)
    have hvisits := visits_stepEntries path steps []
    rw [List.append_nil] at hvisits
    show ((path, rule) :: visits (stepEntries path steps)).Sublist _
    rw [hvisits]
    exact hsingle.trans (List.sublist_append_left _ _)
  | @matched path rule ts s s' t steps outcome log _ _ _ _ _ ih =>
    show ((path, rule) :: visits (stepEntries path steps ++ log)).Sublist _
    rw [visits_stepEntries]
    rw [List.flatMap_append] at ih
    exact (ih.cons_cons (path, rule)).trans ((preorder_childTasks path rule).append
      (List.Sublist.refl _))
  | stop s _ => exact List.nil_sublist _
  | pass _ _ ih => exact ih

/-- A rule that is visited is of the tasks, or a child that a matched rule opens. -/
theorem visit_opened (h : Walk ts s log t) {path : String} {rule : Rule L} {m : Bool}
    (hvisit : Entry.visit path rule m ∈ log) :
    Task.rule path rule ∈ ts ∨ ∃ parentPath parent, Entry.visit parentPath parent true ∈ log ∧
      Task.rule path rule ∈ childTasks parentPath parent := by
  -- a visit is of a task, or of a child that an earlier visit opened
  induction h with
  | done s => cases hvisit
  | disabled _ _ ih =>
    rcases ih hvisit with htask | hchild
    · exact .inl (List.mem_cons_of_mem _ htask)
    · exact .inr hchild
  | unmatched _ _ _ ih =>
    rcases List.mem_cons.mp hvisit with heq | hvisit
    · cases heq
      exact .inl List.mem_cons_self
    · rcases ih hvisit with htask | ⟨q, parent, hparent, hchild⟩
      · exact .inl (List.mem_cons_of_mem _ htask)
      · exact .inr ⟨q, parent, List.mem_cons_of_mem _ hparent, hchild⟩
  | halted _ _ _ =>
    rcases List.mem_cons.mp hvisit with heq | hvisit
    · cases heq
      exact .inl List.mem_cons_self
    · exact absurd hvisit visit_not_mem_steps
  -- behind a match the tasks are the children and then those that were left
  | @matched q parent ts s s' t steps outcome log _ _ _ _ _ ih =>
    rcases List.mem_cons.mp hvisit with heq | hvisit
    · cases heq
      exact .inl List.mem_cons_self
    · rcases List.mem_append.mp hvisit with hvisit | hvisit
      · exact absurd hvisit visit_not_mem_steps
      · rcases ih hvisit with htask | ⟨q', parent', hparent, hchild⟩
        · rcases List.mem_append.mp htask with hchild | htask
          · exact .inr ⟨q, parent, List.mem_cons_self, hchild⟩
          · rcases List.mem_cons.mp htask with heq | htask
            · cases heq
            · exact .inl (List.mem_cons_of_mem _ htask)
        · exact .inr ⟨q', parent', List.mem_cons_of_mem _ (List.mem_append_right _ hparent), hchild⟩
  | stop s _ =>
    cases List.mem_singleton.mp hvisit
  | pass _ _ ih =>
    rcases List.mem_cons.mp hvisit with heq | hvisit
    · cases heq
    · rcases ih hvisit with htask | ⟨q, parent, hparent, hchild⟩
      · exact .inl (List.mem_cons_of_mem _ htask)
      · exact .inr ⟨q, parent, List.mem_cons_of_mem _ hparent, hchild⟩

/-- What is logged is true of the state, and the state is what was done. -/
theorem sees (h : Walk ts s log t) : Sees s log ∧ replay s log = t := by
  induction h with
  | done s => exact ⟨sees_nil s, rfl⟩
  | disabled _ _ ih => exact ih
  | unmatched henabled hcondition _ ih => exact ⟨.cons ⟨henabled, hcondition⟩ ih.1, ih.2⟩
  | @halted path rule ts s t steps henabled hcondition hactions =>
    have hlogged := traceActions_logged path hactions
    exact ⟨.cons ⟨henabled, hcondition⟩ hlogged.sees, hlogged.replayed⟩
  | @matched path rule ts s s' t steps outcome log henabled hcondition hactions _ _ ih =>
    have hlogged := traceActions_logged path hactions
    refine ⟨.cons ⟨henabled, hcondition⟩ (hlogged.sees.append ?_), ?_⟩
    · show Sees (replay s _) log
      rw [hlogged.replayed]
      exact ih.1
    · show replay s (stepEntries path steps ++ log) = t
      rw [replay_append, hlogged.replayed]
      exact ih.2
  | stop s _ => exact ⟨.cons trivial (sees_nil _), rfl⟩
  | pass _ _ ih => exact ⟨.cons trivial ih.1, ih.2⟩

/-- A walk ends where it is stopped. -/
theorem endsAtStop (h : Walk ts s log t) : EndsAtStop log := by
  induction h with
  | done s => exact endsAtStop_nil
  | disabled _ _ ih => exact ih
  | unmatched _ _ _ ih => exact .cons (fun hstops => by cases hstops) ih
  | halted _ _ hactions =>
    exact .cons (fun hstops => by cases hstops) (traceActions_logged _ hactions).ends
  | matched _ _ hactions houtcome _ ih =>
    refine .cons (fun hstops => by cases hstops) (.append ?_ ih)
    intro e he
    obtain ⟨ran, hran, rfl⟩ := List.mem_map.mp he
    exact decide_eq_false ((traceActions_logged "" hactions).quiet houtcome ran hran)
  | stop s _ => exact .cons (fun _ => rfl) endsAtStop_nil
  | pass hstops _ ih =>
    refine .cons (fun h => ?_) ih
    rw [show Entry.stops (.finish _ _) = _ from hstops] at h
    cases h

end Walk

/-! ## Dispositions -/

/-- The disposition that an action sets where it succeeds. -/
def ActionBody.disposition : ActionBody → Option Disposition
  | .suppress _ => some .suppress
  | .pause _ _ _ => some .pause
  | .drop _ => some .drop
  | _ => none

def ActionStep.disposition (ran : ActionStep L) : Option Disposition :=
  match ran.action with
  | .extract _ => none
  | .run body _ => body.disposition

/-- The part of the result that the disposition actions write. -/
def ActionResult.decided (r : ActionResult) : Disposition × Bool := (r.disposition, r.dropped)

/-- What a disposition writes there. -/
def decide? (disposition : Option Disposition) (decided : Disposition × Bool) : Disposition × Bool :=
  match disposition with
  | none => decided
  | some disposition => (disposition, decided.2 || disposition = .drop)

section Kept

variable {β : Type} (π : ActionResult → β)

/-- A part of the result that a grouping does not write. -/
theorem groupingStep_kept (path key : String) (value : Option Json)
    (write : EventActionState → String → EventActionState) (effect : Effect)
    (hwrite : ∀ s text, π (write s text).result = π s.result) :
    π (groupingStep L path key value write effect).1.result = π effect.1.result := by
  obtain ⟨state, outcome⟩ := effect
  unfold groupingStep
  cases outcome with
  | error e => rfl
  | ok outcome =>
    cases value with
    | none => rfl
    | some v =>
      dsimp only
      unfold withValue
      split
      · exact hwrite _ _
      · rfl

/-- A grouping writes nothing but the grouping. -/
theorem executeGrouping_kept (hπ : ∀ r grouping, π { r with grouping := grouping } = π r)
    (state : EventActionState) (path : String) (g : GroupingAction) :
    π (executeGrouping L state path g).1.result = π state.result := by
  unfold executeGrouping
  dsimp only
  -- the three parts of a grouping are written one after the other, and each keeps the quantity
  have hdedup := groupingStep_kept (L := L) π path "dedup_key" g.dedupKey
    (fun s text => setEvent (setResult s fun r =>
      { r with grouping := { r.grouping with dedupKey := some text } }) "dedup_key" (.str text))
    (state, .ok .continue) fun _ _ => hπ _ _
  generalize groupingStep L path "dedup_key" g.dedupKey _ (state, .ok .continue) = effect at hdedup
  have hgroup := groupingStep_kept (L := L) π path "group_key" g.groupKey
    (fun s text => setEvent (setResult s fun r =>
      { r with grouping := { r.grouping with groupKey := some text } }) "group_key" (.str text))
    effect fun _ _ => hπ _ _
  generalize groupingStep L path "group_key" g.groupKey _ effect = effect at hgroup
  have hstrategy := groupingStep_kept (L := L) π path "strategy" g.strategy
    (fun s text => setResult s fun r =>
      { r with grouping := { r.grouping with strategy := some text } }) effect fun _ _ => hπ _ _
  generalize groupingStep L path "strategy" g.strategy _ effect = effect at hstrategy
  rw [hgroup, hdedup] at hstrategy
  obtain ⟨left, outcome⟩ := effect
  cases outcome with
  | error e => exact hstrategy
  | ok outcome => exact (hπ _ _).trans hstrategy

/-- The details are no result. -/
theorem withCustomDetails_kept (s : EventActionState) (f : EventActionState → Dict → Effect)
    (hf : ∀ t details, t.result = s.result → π (f t details).1.result = π s.result) :
    π (withCustomDetails s f).1.result = π s.result := by
  unfold withCustomDetails
  dsimp only
  split
  · exact hf _ _ rfl
  · rfl

/-- What is written of a value. -/
theorem withValue_kept {α : Type} (s : EventActionState) (value : Except PyError α)
    (write : α → EventActionState) (outcome : Outcome)
    (hwrite : ∀ v, π (write v).result = π s.result) :
    π (withValue s value write outcome).1.result = π s.result := by
  unfold withValue
  cases value with
  | error e => rfl
  | ok v => exact hwrite v

end Kept

/-- A disposition is decided by an action that succeeds. -/
theorem withValue_decided {α : Type} (s : EventActionState) (value : Except PyError α)
    (write : α → EventActionState) (outcome : Outcome) (disposition : Option Disposition)
    (hwrite : ∀ v, (write v).result.decided = decide? disposition s.result.decided) :
    (withValue s value write outcome).1.result.decided =
      if (withValue s value write outcome).2.isOk then decide? disposition s.result.decided
      else s.result.decided := by
  unfold withValue
  cases value with
  | error e => rfl
  | ok v => exact hwrite v

/-- An action writes a disposition exactly when it is one of the three and succeeds. -/
theorem executeAction_decided (s : EventActionState) (path : String) (body : ActionBody) :
    (executeAction L s path body).1.result.decided =
      if (executeAction L s path body).2.isOk then decide? body.disposition s.result.decided
      else s.result.decided := by
  -- only suppressing, dropping and pausing decide, and they do so when they succeed
  cases body with
  | setText field source => exact withValue_decided s _ _ _ none fun _ => rfl
  | setEventAction source => exact withValue_decided s _ _ _ none fun _ => rfl
  | setTraceLevel level => rfl
  | setAlertEventHistory level => rfl
  | setLabel name source =>
    rw [executeAction]
    split
    · rfl
    · exact withValue_decided s _ _ _ none fun _ => rfl
  | removeLabel name => rfl
  | setCustomField name source =>
    have hkept := withCustomDetails_kept ActionResult.decided s (fun state details =>
      withValue state (resolveValue L state path source >>= jsonCopy (path ++ ".value"))
        (fun v => setEvent state "custom_details" (.obj (details.set name v))) .continue)
      fun t details ht => by
        refine Eq.trans ?_ (congrArg ActionResult.decided ht)
        exact withValue_kept ActionResult.decided t _ _ _ fun _ => rfl
    exact hkept.trans (ite_self _).symm
  | removeCustomField name =>
    have hkept := withCustomDetails_kept ActionResult.decided s (fun state details =>
      (setEvent state "custom_details" (.obj (details.pop name)), .ok .continue))
      fun t _ ht => congrArg ActionResult.decided ht
    exact hkept.trans (ite_self _).symm
  | setRouting target id => cases target <;> rfl
  | setPolicy kind id => rfl
  | setGrouping grouping =>
    show (executeGrouping L s path grouping).1.result.decided =
      if (executeGrouping L s path grouping).2.isOk then s.result.decided else s.result.decided
    rw [ite_self]
    exact executeGrouping_kept ActionResult.decided (fun _ _ => rfl) s path grouping
  | addNote source => exact withValue_decided s _ _ _ none fun _ => rfl
  | enqueueWebhook actionId => rfl
  | suppress reason =>
    refine withValue_decided s _ _ _ (some .suppress) fun _ => ?_
    show (Disposition.suppress, s.result.dropped) = (.suppress, s.result.dropped || false)
    rw [Bool.or_false]
  | pause seconds retrigger reason =>
    refine withValue_decided s _ _ _ (some .pause) fun _ => ?_
    show (Disposition.pause, s.result.dropped) = (.pause, s.result.dropped || false)
    rw [Bool.or_false]
  | drop reason =>
    refine withValue_decided s _ _ _ (some .drop) fun _ => ?_
    show (Disposition.drop, true) = (.drop, s.result.dropped || true)
    rw [Bool.or_true]

/-- The disposition that an entry has set. -/
def Entry.disposition : Entry L → Option Disposition
  | .step _ ran => if ran.success then ran.disposition else none
  | _ => none

/-- The dispositions that successful actions have set, in order. -/
def dispositions (log : List (Entry L)) : List Disposition := log.filterMap Entry.disposition

/-- An entry decides what its action does. -/
theorem entry_decided {s : EventActionState} {e : Entry L} (h : e.Holds s) :
    (e.effect s).result.decided = decide? e.disposition s.result.decided := by
  cases e with
  | visit path rule matched => rfl
  | finish path rule => rfl
  | step path ran =>
    obtain ⟨index, action, success, outcome⟩ := ran
    have hsuccess : success = _ := h
    cases action with
    | extract extractor =>
      have hdisposition : Entry.disposition (.step path (ActionStep.mk index (.extract extractor)
          success outcome)) = none := by
        show (if success then none else none) = none
        rw [ite_self]
      rw [hdisposition]
      show (ActionStep.effect _ s).result.decided = _
      unfold ActionStep.effect
      dsimp only
      split
      · rfl
      · rfl
    | run body onFailure =>
      have hrun := executeAction_decided (L := L) s ("actions[" ++ toString index ++ "]") body
      have hok : success =
        (executeAction L s ("actions[" ++ toString index ++ "]") body).2.isOk := hsuccess
      show (executeAction L s _ body).1.result.decided =
        decide? (if success then body.disposition else none) s.result.decided
      rw [hrun, ← hok]
      cases success with
      | true => rfl
      | false => rfl

/-- By induction on the log. -/
theorem replay_decided {s : EventActionState} {log : List (Entry L)} (h : Sees s log) :
    (replay s log).result.decided =
      ((dispositions log).getLastD s.result.disposition,
        s.result.dropped || (dispositions log).contains .drop) := by
  induction log generalizing s with
  | nil => simp [replay, dispositions, ActionResult.decided]
  | cons e log ih =>
    have hrest : Sees (e.effect s) log := fun before e' after heq =>
      h (e :: before) e' after (congrArg (e :: ·) heq)
    have hfirst : e.Holds s := h [] e log rfl
    have hentry := entry_decided hfirst
    show (replay (e.effect s) log).result.decided = _
    rw [ih hrest]
    have hdisposition := congrArg Prod.fst hentry
    have hdropped := congrArg Prod.snd hentry
    dsimp only [ActionResult.decided] at hdisposition hdropped
    rw [hdisposition, hdropped]
    unfold dispositions
    cases he : e.disposition with
    | none =>
      rw [List.filterMap_cons_none he]
      rfl
    | some disposition =>
      rw [List.filterMap_cons_some he]
      simp only [decide?, List.getLastD_cons, List.contains_cons, Bool.or_assoc]
      rw [Bool.beq_comm]
      cases disposition <;> rfl

/-! ## The law -/

/-- The rules of a definition, under their paths. -/
def rootTasks (rules : List (Rule L)) : List (Task L) := tasks "rules" 0 rules

/-- What an evaluation does, beside what its failed actions leave. -/
structure ControlLaw (rules : List (Rule L)) (s : EventActionState)
    (r : OrchestrationExecutionResult L) : Prop where
  /-- the evaluation is the walk over the rules -/
  walk : Walk (rootTasks rules) s (logs r.rules) r.state
  /-- conditions are evaluated in pre-order -/
  inPreorder : (visits (logs r.rules)).Sublist (preorder "rules" 0 rules)
  /-- a rule is evaluated at the root, or under a matched rule that opens its children -/
  opened : ∀ path rule m, Entry.visit path rule m ∈ logs r.rules →
    Task.rule path rule ∈ rootTasks rules ∨ ∃ parentPath parent,
      Entry.visit parentPath parent true ∈ logs r.rules ∧
      Task.rule path rule ∈ childTasks parentPath parent
  /-- a rule is enabled, and its condition sees what was done before it -/
  sees : Sees s (logs r.rules)
  /-- nothing is evaluated or run behind a stop signal -/
  endsAtStop : EndsAtStop (logs r.rules)
  /-- the final state is what was done -/
  replayed : r.state = replay s (logs r.rules)
  /-- the outcome is `drop` when a drop action succeeded -/
  drop : r.outcome = "drop" ↔ ∃ path ran, Entry.step path ran ∈ logs r.rules ∧
    ran.success = true ∧ ran.disposition = some .drop

/-- The dispositions of a log are those of its successful steps. -/
theorem mem_dispositions {log : List (Entry L)} {disposition : Disposition} :
    disposition ∈ dispositions log ↔ ∃ path ran, Entry.step path ran ∈ log ∧
      ran.success = true ∧ ran.disposition = some disposition := by
  unfold dispositions
  rw [List.mem_filterMap]
  constructor
  · rintro ⟨e, he, hset⟩
    cases e with
    | visit path rule m => cases hset
    | finish path rule => cases hset
    | step path ran =>
      have hset : (if ran.success then ran.disposition else none) = some disposition := hset
      split_ifs at hset with hsuccess
      exact ⟨path, ran, he, hsuccess, hset⟩
  · rintro ⟨path, ran, hran, hsuccess, hset⟩
    refine ⟨_, hran, ?_⟩
    show (if ran.success then ran.disposition else none) = _
    rw [if_pos hsuccess, hset]

/-- An evaluation is a walk over the rules from the state of its context. -/
theorem executeRuleTreeTraced_walk {defaultHistory : HistoryLevel} {rules : List (Rule L)}
    {context : Context} {r : OrchestrationExecutionResult L}
    (h : executeRuleTreeTraced L defaultHistory rules context = .ok r) :
    ∃ s, EventActionState.fromContext defaultHistory context = .ok s ∧
      Walk (rootTasks rules) s (logs r.rules) r.state ∧
      (r.outcome = "drop" ↔ r.state.result.dropped = true) := by
  unfold executeRuleTreeTraced at h
  obtain ⟨s, hstart, h⟩ := bind_eq_ok.mp h
  obtain ⟨⟨traces, t, stopped⟩, hlevel, h⟩ := bind_eq_ok.mp h
  cases h
  refine ⟨s, hstart, ?_, ?_⟩
  -- the walk begins with the rules of the top level and no parent
  · have hwalks := traceLevel_walks rules hlevel
    unfold WalksOver at hwalks
    cases stopped with
    | true => simpa [rootTasks] using hwalks []
    | false => simpa [rootTasks] using hwalks [] [] t (.done t)
  -- the outcome and the dropped mark are those of the last state
  · dsimp only
    constructor
    · intro houtcome
      by_contra hdropped
      rw [if_neg hdropped] at houtcome
      split_ifs at houtcome <;> exact absurd houtcome (by decide)
    · intro hdropped
      rw [if_pos hdropped]

/-- An evaluation that starts from a context without a drop. -/
structure Evaluates (defaultHistory : HistoryLevel) (rules : List (Rule L)) (context : Context)
    (s : EventActionState) (r : OrchestrationExecutionResult L) : Prop where
  start : EventActionState.fromContext defaultHistory context = .ok s
  result : executeRuleTreeTraced L defaultHistory rules context = .ok r
  fresh : s.result.dropped = false

/-- **The law of control**: what an evaluation does is what its log says, in the order of the
tree. -/
theorem control_law {defaultHistory : HistoryLevel} {rules : List (Rule L)} {context : Context}
    {s : EventActionState} {r : OrchestrationExecutionResult L}
    (h : Evaluates defaultHistory rules context s r) : ControlLaw rules s r := by
  obtain ⟨s', hstart, hwalk, houtcome⟩ := executeRuleTreeTraced_walk h.result
  obtain rfl : s = s' := Except.ok.inj (h.start.symm.trans hstart)
  have hsees := hwalk.sees
  refine ⟨hwalk, ?_, fun path rule m hvisit => hwalk.visit_opened hvisit, hsees.1,
    hwalk.endsAtStop, hsees.2.symm, ?_⟩
  · rw [← preorder_tasks]
    exact hwalk.visits_preorder
  · have hdecided := congrArg Prod.snd (replay_decided hsees.1)
    rw [hsees.2] at hdecided
    dsimp only [ActionResult.decided] at hdecided
    rw [h.fresh, Bool.false_or] at hdecided
    rw [houtcome, ← mem_dispositions, ← List.contains_iff_mem, ← hdecided]

/-! ## What failed actions leave -/

/-- At every point of the log the state is the fold of the successful steps. -/
def FoldsSuccesses (s : EventActionState) (log : List (Entry L)) : Prop :=
  ∀ before after, log = before ++ after → replay s before = replaySuccessful s before

/-- A failed action leaves the state as it was. -/
def FailuresLeaveNothing (s : EventActionState) (log : List (Entry L)) : Prop :=
  ∀ before path ran after, log = before ++ .step path ran :: after → ran.success = false →
    ran.effect (replay s before) = replay s before

/-- The result is the fold of what succeeded, if and only if what failed left nothing. -/
theorem foldsSuccesses_iff (s : EventActionState) (log : List (Entry L)) :
    FoldsSuccesses s log ↔ FailuresLeaveNothing s log := by
  constructor
  · intro h before path ran after heq hfailed
    have hbefore := h before _ heq
    have hbehind := h (before ++ [.step path ran]) after (by simp [heq])
    rw [replay_append] at hbehind
    unfold replaySuccessful at hbehind hbefore
    rw [List.foldl_append, ← hbefore] at hbehind
    show replay (replay s before) [.step path ran] = _
    rw [hbehind]
    show (if ran.success then _ else _) = _
    rw [hfailed, if_neg Bool.false_ne_true]
  · intro h before after heq
    -- one entry at a time from the front
    induction before using List.reverseRecOn generalizing after with
    | nil => rfl
    | append_singleton before e ih =>
      rw [List.append_assoc] at heq
      have hbefore := ih _ heq
      rw [replay_append, hbefore]
      unfold replaySuccessful
      rw [List.foldl_append]
      show Entry.effect _ e = Entry.successEffect _ e
      cases e with
      | visit path rule m => rfl
      | finish path rule => rfl
      | step path ran =>
        show ran.effect _ = if ran.success then ran.effect _ else _
        cases hsuccess : ran.success with
        | true => rfl
        | false =>
          have hleft := h before path ran after heq hsuccess
          rw [hbefore] at hleft
          rw [if_neg Bool.false_ne_true]
          exact hleft

/-! ## Evaluations of a bare event -/

def bareContext : Context := { event := [("title", .str "Disk full")], labels := [] }

/-- The state in which an evaluation of the context starts. -/
def bareState : EventActionState :=
  { event := [("title", .str "Disk full"), ("labels", .obj [])], raw := [], vars := [], route := [],
    service := [], team := [], integration := [], time := [],
    result := { alertEventHistory := .full } }

def evaluateBare (rules : List (Rule L)) : Except PyError (OrchestrationExecutionResult L) :=
  executeRuleTreeTraced L .full rules bareContext

theorem fromContext_bare : EventActionState.fromContext .full bareContext = .ok bareState := by
  decide +kernel

/-- What is read off an evaluation of the bare event is what the evaluation computes. -/
theorem evaluates_bare (rules : List (Rule L)) {β : Type} (x : β)
    (f : OrchestrationExecutionResult L → β) (h : (evaluateBare rules).map f = .ok x) :
    ∃ r, Evaluates .full rules bareContext bareState r ∧ f r = x := by
  cases hresult : evaluateBare rules with
  | error e =>
    rw [hresult] at h
    cases h
  | ok r =>
    rw [hresult] at h
    exact ⟨r, ⟨fromContext_bare, hresult, rfl⟩, Except.ok.inj h⟩

end IncidentRelay.Orchestration
