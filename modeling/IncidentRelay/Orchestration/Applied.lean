import IncidentRelay.Lib.Run
import IncidentRelay.Orchestration.ControlLaw
import IncidentRelay.Orchestration.Runtime
import Mathlib.Data.List.ReduceOption

/-!
# The orchestrations that a run applies

A run of the orchestrations of an event leaves a list of those whose result was
applied, in order, each with its rule trace. The lists are read off the run, and the
run is taken apart into rounds (`Round`), so that what a round does to the state of
the loop is said once.
-/

namespace IncidentRelay.Orchestration

/-! ## What is applied -/

/-- An orchestration whose result was applied, on the context it found, with the
entities that are in force behind it. -/
structure Applied (L : Language) where
  orchestration : Orchestration L
  versionId : Id
  context : Context
  result : OrchestrationExecutionResult L
  selected : Selection

/-- The dispositions that its own actions have set, in order. -/
def Applied.dispositions {L : Language} (a : Applied L) : List Disposition :=
  IncidentRelay.Orchestration.dispositions (logs a.result.rules)

section Lists

variable {L : Language} (env : Env L) (groupId : Id) (source : Option String)

/-- What an orchestration applies to a state of the loop. -/
def appliedOne (o : Orchestration L) (s : Loop) : Option (Applied L) :=
  o.published.bind fun version =>
    match executeRuleTreeTraced L env.defaultHistory version.rules s.context with
    | .error _ => none
    | .ok result =>
      match resolveSelectedEntities env.db result.state.result groupId source s.selection with
      | .error _ => none
      | .ok selected =>
        if o.applies then
          some { orchestration := o, versionId := version.id, context := s.context, result,
                 selected }
        else none

/-- What `_evaluate_orchestrations` applies. -/
def appliedIn : List (Orchestration L) → Loop → List (Applied L)
  | [], _ => []
  | o :: os, s =>
    if o.skipped then appliedIn os s
    else (appliedOne env groupId source o s).toList ++
      match evaluateOne env groupId source o s with
      | .ok (s, .proceed) => appliedIn os s
      | _ => []

/-- The service that the chain evaluates next. -/
def Loop.nextService (s : Loop) : Option Service :=
  s.service.filter fun service =>
    !s.runtime.blocked && !(decide (service.id ∈ s.runtime.evaluatedServiceIds))

/-- What `_evaluate_service_chain` applies. -/
def appliedInChain : Nat → Loop → List (Applied L)
  | 0, _ => []
  | left + 1, s =>
    match s.nextService with
    | none => []
    | some service =>
      let os := serviceOrchestrations env groupId service
      appliedIn env groupId source os (enterService s service) ++
        match evaluateOrchestrations env groupId source os (enterService s service) with
        | .ok s => appliedInChain left s
        | .error _ => []

/-- What the global orchestrations and those of the services apply. -/
def appliedInRun (s : Loop) : List (Applied L) :=
  let globals := listRuntimeOrchestrations env groupId .global none
  appliedIn env groupId source globals s ++
    match evaluateOrchestrations env groupId source globals s with
    | .ok s => appliedInChain env groupId source maxServiceHandoffs s
    | .error _ => []

end Lists

/-- What `run_event_orchestration` applies. -/
def appliedToEvent {L : Language} (env : Env L) (alertData : Dict) : List (Applied L) :=
  match groupIdFromAlert env.db alertData with
  | none => []
  | some groupId =>
    match initialEntities env.db alertData groupId with
    | .error _ => []
    | .ok (route, team, service) =>
      if (listRuntimeOrchestrations env groupId .global none).isEmpty && service.isNone then []
      else appliedInRun env groupId (textIn alertData "source")
        (startLoop env alertData groupId route team service)

/-- The loop at the head of `run_service_orchestration`. -/
def serviceLoop {L : Language} (env : Env L) (alertData : Dict) (runtime : RuntimeResult)
    (route : Option Route) (team : Option TeamRow) (service : Option Service) : Loop :=
  { context := refreshEntityContext (runtime.context.getD
      (buildRuntimeContext env.now alertData route team service)) route team service
    route, team, service
    runtime := { runtime with route, team, service } }

/-- What `run_service_orchestration` applies. -/
def appliedToService {L : Language} (env : Env L) (alertData : Dict) (runtime : RuntimeResult)
    (route : Option Route) (team : Option TeamRow) (service : Option Service) :
    List (Applied L) :=
  match runtime.groupId with
  | none => []
  | some groupId =>
    if runtime.blocked || service.isNone then []
    else appliedInChain env groupId (textIn alertData "source") maxServiceHandoffs
      (serviceLoop env alertData runtime route team service)

/-! ## Rounds -/

section Rounds

variable {L : Language} {env : Env L} {groupId : Id} {source : Option String}

/-- The loop with the result's own copy of its context. -/
def Loop.settle (s : Loop) : Loop :=
  { s with runtime := { s.runtime with context := some s.context } }

/-- The chain at its limit. -/
def Loop.exhaust (s : Loop) : Loop :=
  { s with runtime := { s.runtime with
    blocked := s.runtime.compatibilityMode = .orchestration
    reason := some "Service orchestration handoff limit exceeded" } }

/-- What an applied orchestration makes of the loop it was run on. -/
structure Commits (env : Env L) (groupId : Id) (source : Option String) (s : Loop)
    (a : Applied L) (t : Loop) : Prop where
  applies : a.orchestration.applies = true
  context : a.context = s.context
  evaluated : ∃ rules, executeRuleTreeTraced L env.defaultHistory rules s.context = .ok a.result
  resolved : resolveSelectedEntities env.db a.result.state.result groupId source s.selection =
    .ok a.selected
  committed : ∃ step, step.applied = true ∧ step.versionId = some a.versionId ∧
    t = commit a.orchestration step a.result.state.context a.result.state.result a.selected s

/-- A round of the loops, with what it applies. -/
inductive Round (env : Env L) (groupId : Id) (source : Option String) :
    Loop → Option (Applied L) → Loop → Prop where
  | recorded {s : Loop} {step : RuntimeStep} : step.applied = false →
      Round env groupId source s none (s.addStep step)
  | blocked {s : Loop} (reason : String) : Round env groupId source s none (s.block reason)
  | settled (s : Loop) : Round env groupId source s none s.settle
  | entered {s : Loop} (service : Service) :
      Round env groupId source s none (enterService s service)
  | exhausted (s : Loop) : Round env groupId source s none s.exhaust
  | applied {s t : Loop} {a : Applied L} : Commits env groupId source s a t →
      Round env groupId source s (some a) t

/-- A sequence of rounds that applies the list. -/
def Rounds (env : Env L) (groupId : Id) (source : Option String) (s : Loop)
    (applied : List (Applied L)) (t : Loop) : Prop :=
  ∃ ls, Run (Round env groupId source) s ls t ∧ ls.reduceOption = applied

namespace Rounds

variable {s t u : Loop} {as bs : List (Applied L)}

theorem refl (s : Loop) : Rounds env groupId source s [] s := ⟨[], .nil s, rfl⟩

theorem single {l : Option (Applied L)} (h : Round env groupId source s l t) :
    Rounds env groupId source s l.toList t :=
  ⟨[l], .single h, by cases l <;> rfl⟩

theorem trans (h : Rounds env groupId source s as t) (h' : Rounds env groupId source t bs u) :
    Rounds env groupId source s (as ++ bs) u := by
  obtain ⟨ls, hrun, rfl⟩ := h
  obtain ⟨ms, hrun', rfl⟩ := h'
  exact ⟨ls ++ ms, hrun.append hrun', List.reduceOption_append ls ms⟩

/-- A round that applies nothing may go in front. -/
theorem quiet (h : Round env groupId source s none t)
    (h' : Rounds env groupId source t bs u) : Rounds env groupId source s bs u :=
  (single h).trans h'

end Rounds

/-! ## The loops are made of rounds -/

/-- `_run_one` is the traced evaluation, or a failed step. -/
theorem runOne_cases (env : Env L) (o : Orchestration L) (context : Context) :
    (∃ step, runOne env o context = (none, step) ∧ step.applied = false ∧
      ∀ version, o.published = some version →
        ∃ e, executeRuleTreeTraced L env.defaultHistory version.rules context = .error e) ∨
    ∃ version result candidate step, o.published = some version ∧
      executeRuleTreeTraced L env.defaultHistory version.rules context = .ok result ∧
      runOne env o context = (some candidate, step) ∧ candidate.state = result.state ∧
      step.applied = o.applies ∧ step.versionId = some version.id := by
  -- what is not published or fails is not applied
  cases hpublished : o.published with
  | none =>
    refine .inl ⟨_, by unfold runOne evaluateRules; rw [hpublished], rfl, ?_⟩
    intro version h
    cases h
  | some version =>
    have hstate := executeRuleTree_eq L env.defaultHistory version.rules context
    cases hrun : executeRuleTree L env.defaultHistory version.rules context with
    | error e =>
      rw [hrun] at hstate
      have hevaluate : evaluateRules env o context = .error e := by
        unfold evaluateRules
        rw [hpublished]
        show (executeRuleTree L _ version.rules context >>= _) = _
        rw [hrun]
        rfl
      refine .inl ⟨_, by unfold runOne; rw [hevaluate], rfl, ?_⟩
      intro version' h
      cases h
      exact ⟨e, map_error_eq hstate.symm⟩
    | ok candidate =>
      rw [hrun] at hstate
      -- what is evaluated has a result and a trace
      obtain ⟨result, hresult, heq⟩ := map_ok_eq hstate.symm
      have hevaluate : evaluateRules env o context = .ok (version, candidate) := by
        unfold evaluateRules
        rw [hpublished]
        show (executeRuleTree L _ version.rules context >>= _) = _
        rw [hrun]
        rfl
      refine .inr ⟨version, result, candidate, _, rfl, hresult,
        by unfold runOne; rw [hevaluate], heq.symm, rfl, ?_⟩
      rw [hpublished]
      rfl

/-- One orchestration is a round that records its step, with the block it may bring,
or a round that applies it. -/
theorem evaluateOne_rounds {o : Orchestration L} {s t : Loop} {next : Next}
    (h : evaluateOne env groupId source o s = .ok (t, next)) :
    Rounds env groupId source s (appliedOne env groupId source o s).toList t := by
  unfold evaluateOne at h
  -- the orchestration was evaluated, or it left a trace only
  rcases runOne_cases env o s.context with
    ⟨step, hrun, hstep, hfailed⟩ | ⟨version, result, candidate, step, hpublished, hresult, hrun,
      hstate, happlied, hversion⟩
  · rw [hrun] at h
    have hnone : appliedOne env groupId source o s = none := by
      unfold appliedOne
      cases hpublished : o.published with
      | none => rfl
      | some version =>
        obtain ⟨e, he⟩ := hfailed version hpublished
        show (match executeRuleTreeTraced L env.defaultHistory version.rules s.context with
          | .error _ => none | .ok _ => _) = none
        rw [he]
    rw [hnone]
    dsimp only at h
    split at h
    · cases h
      exact .quiet (.recorded hstep) (.single (.blocked _))
    · cases h
      exact .single (.recorded hstep)
  · rw [hrun] at h
    dsimp only at h
    have hone : appliedOne env groupId source o s =
        match resolveSelectedEntities env.db result.state.result groupId source s.selection with
        | .error _ => none
        | .ok selected => if o.applies then
            some { orchestration := o, versionId := version.id, context := s.context, result,
                   selected }
          else none := by
      unfold appliedOne
      rw [hpublished]
      show (match executeRuleTreeTraced L env.defaultHistory version.rules s.context with
        | .error _ => none | .ok _ => _) = _
      rw [hresult]
    -- a result is applied by the mode of the orchestration
    cases happlies : o.applies with
    | false =>
      have hnone : appliedOne env groupId source o s = none := by
        rw [hone, happlies]
        split
        · rfl
        · rfl
      rw [happlied, happlies] at h
      cases h
      rw [hnone]
      exact .single (.recorded (happlied.trans happlies))
    | true =>
      rw [happlied, happlies] at h
      obtain ⟨context, hcontext, h⟩ := bind_eq_ok.mp h
      rw [(toDict_eq_ok hcontext).1, hstate] at h
      -- its entities are loaded, or it counts as failed
      cases hselected : resolveSelectedEntities env.db result.state.result groupId source
          s.selection with
      | error message =>
        rw [hselected] at h hone
        rw [hone]
        dsimp only at h
        split at h
        · cases h
          exact .quiet (.recorded rfl) (.single (.blocked _))
        · cases h
          exact .single (.recorded rfl)
      | ok selected =>
        rw [hselected] at h hone
        rw [hone]
        cases h
        dsimp only
        rw [if_pos happlies]
        exact .single (.applied ⟨happlies, rfl, ⟨version.rules, hresult⟩, hselected,
          ⟨step, happlied.trans happlies, hversion, rfl⟩⟩)

/-- A list of orchestrations is evaluated in rounds. -/
theorem evaluateOrchestrations_rounds {os : List (Orchestration L)} {s t : Loop}
    (h : evaluateOrchestrations env groupId source os s = .ok t) :
    Rounds env groupId source s (appliedIn env groupId source os s) t := by
  -- by induction on the orchestrations; one of them may stop the others
  induction os generalizing s with
  | nil =>
    cases h
    exact .single (.settled s)
  | cons o os ih =>
    rw [evaluateOrchestrations] at h
    rw [appliedIn]
    split_ifs at h ⊢
    · exact ih h
    · obtain ⟨⟨u, next⟩, hone, h⟩ := bind_eq_ok.mp h
      refine (evaluateOne_rounds hone).trans ?_
      rw [hone]
      cases next with
      | proceed => exact ih h
      | stop =>
        cases h
        exact .single (.settled u)

/-- The next service is the one that is entered. -/
theorem nextService_eq_some {s : Loop} {service : Service} (h : s.nextService = some service) :
    Enters s service := by
  obtain ⟨hservice, hopen⟩ := Option.filter_eq_some_iff.mp h
  rw [Bool.and_eq_true, Bool.not_eq_true', Bool.not_eq_true', decide_eq_false_iff_not] at hopen
  exact ⟨hservice, hopen.1, hopen.2⟩

/-- The chain without a service to turn to is at its end. -/
theorem evaluateServiceChain_done {s : Loop} (h : s.nextService = none) (left : Nat) :
    evaluateServiceChain env groupId source left s = .ok s := by
  rw [evaluateServiceChain]
  unfold Loop.nextService at h
  cases hservice : s.service with
  | none => rfl
  | some service =>
    have hclosed := Option.filter_eq_none_iff.mp h service hservice
    dsimp only
    by_cases hblocked : s.runtime.blocked = true
    · rw [if_pos hblocked]
    · rw [if_neg hblocked]
      have hvisited : service.id ∈ s.runtime.evaluatedServiceIds := by
        simpa [hblocked] using hclosed
      rw [if_pos hvisited]

/-- So is a chain of services. By induction on what is left of it. -/
theorem evaluateServiceChain_rounds {left : Nat} {s t : Loop}
    (h : evaluateServiceChain env groupId source left s = .ok t) :
    Rounds env groupId source s (appliedInChain env groupId source left s) t := by
  -- by induction on the hand-offs that are left
  induction left generalizing s with
  | zero =>
    rw [evaluateServiceChain] at h
    split at h
    · cases h
      exact .refl _
    · split_ifs at h
      · cases h
        exact .refl _
      · cases h
        exact .refl _
      · cases h
        exact .single (.exhausted _)
  | succ left ih =>
    rw [appliedInChain]
    cases hnext : s.nextService with
    -- no service is handed over to, so the chain ends
    | none =>
      rw [evaluateServiceChain_done hnext] at h
      cases h
      exact .refl _
    -- the next service is entered, and its orchestrations are walked
    | some service =>
      rw [evaluateServiceChain_enter (nextService_eq_some hnext)] at h
      obtain ⟨u, hround, h⟩ := bind_eq_ok.mp h
      refine .quiet (.entered service) ((evaluateOrchestrations_rounds hround).trans ?_)
      rw [hround]
      exact ih h

theorem runLoop_rounds {s t : Loop} (h : runLoop env groupId source s = .ok t) :
    Rounds env groupId source s (appliedInRun env groupId source s) t := by
  unfold runLoop at h
  obtain ⟨u, hglobals, h⟩ := bind_eq_ok.mp h
  unfold appliedInRun
  dsimp only
  rw [hglobals]
  refine (evaluateOrchestrations_rounds hglobals).trans ?_
  split at h
  · -- nothing is left to the chain of a blocked run
    rename_i hblocked
    cases h
    have hnone : t.nextService = none := by
      unfold Loop.nextService
      rw [hblocked]
      cases t.service <;> rfl
    have hempty : appliedInChain env groupId source maxServiceHandoffs t = [] := by
      unfold maxServiceHandoffs
      rw [appliedInChain, hnone]
    show Rounds env groupId source t (appliedInChain env groupId source maxServiceHandoffs t) t
    rw [hempty]
    exact .refl t
  · exact evaluateServiceChain_rounds h

end Rounds

/-! ## The two runs -/

section Runs

variable {L : Language} {env : Env L} {alertData data : Dict} {runtime result : RuntimeResult}

/-- Nothing but the group, the entities and the block of a result. -/
def RuntimeResult.untouched (r : RuntimeResult) : RuntimeResult :=
  { groupId := r.groupId, route := r.route, team := r.team, service := r.service,
    blocked := r.blocked, reason := r.reason }

/-- **A run for an event**: nothing was to be run, or the rounds of its loop were. -/
theorem runEventOrchestration_cases (h : runEventOrchestration env alertData = .ok (result, data)) :
    (appliedToEvent env alertData = [] ∧ data = alertData ∧ result = result.untouched ∧
        result.groupId = groupIdFromAlert env.db alertData ∧
        ((result.route = none ∧ result.team = none ∧ result.service = none) ∨
          ∃ groupId, groupIdFromAlert env.db alertData = some groupId ∧
            initialEntities env.db alertData groupId =
              .ok (result.route, result.team, result.service))) ∨
      ∃ groupId route team service s, groupIdFromAlert env.db alertData = some groupId ∧
        initialEntities env.db alertData groupId = .ok (route, team, service) ∧
        Rounds env groupId (textIn alertData "source")
          (startLoop env alertData groupId route team service) (appliedToEvent env alertData) s ∧
        result = s.finish ∧ data = applyRuntimeToAlertData result alertData := by
  unfold runEventOrchestration at h
  unfold appliedToEvent
  cases hgroup : groupIdFromAlert env.db alertData with
  -- without a group there is nothing to run
  | none =>
    rw [hgroup] at h
    cases h
    exact .inl ⟨rfl, rfl, rfl, rfl, .inl ⟨rfl, rfl, rfl⟩⟩
  | some groupId =>
    rw [hgroup] at h
    dsimp only at h ⊢
    -- the entities of the event are loaded first
    cases hinitial : initialEntities env.db alertData groupId with
    | error message =>
      rw [hinitial] at h
      dsimp only at h
      split_ifs at h
      · cases h
        exact .inl ⟨rfl, rfl, rfl, rfl, .inl ⟨rfl, rfl, rfl⟩⟩
      · cases h
        exact .inl ⟨rfl, rfl, rfl, rfl, .inl ⟨rfl, rfl, rfl⟩⟩
    | ok entities =>
      obtain ⟨route, team, service⟩ := entities
      rw [hinitial] at h
      dsimp only at h ⊢
      -- without orchestrations nothing is run
      by_cases hidle : ((listRuntimeOrchestrations env groupId .global none).isEmpty &&
          service.isNone) = true
      · rw [if_pos hidle] at h ⊢
        cases h
        exact .inl ⟨rfl, rfl, rfl, rfl, .inr ⟨groupId, rfl, hinitial⟩⟩
      · rw [if_neg hidle] at h ⊢
        obtain ⟨s, hrun, h⟩ := bind_eq_ok.mp h
        cases h
        exact .inr ⟨groupId, route, team, service, s, rfl, hinitial, runLoop_rounds hrun, rfl, rfl⟩

theorem runServiceOrchestration_cases {route : Option Route} {team : Option TeamRow}
    {service : Option Service}
    (h : runServiceOrchestration env alertData runtime route team service = .ok (result, data)) :
    (appliedToService env alertData runtime route team service = [] ∧ result = runtime ∧
        data = alertData ∧
        (runtime.groupId = none ∨ runtime.blocked = true ∨ service = none)) ∨
      ∃ groupId s, runtime.groupId = some groupId ∧ runtime.blocked = false ∧
        Rounds env groupId (textIn alertData "source")
          (serviceLoop env alertData runtime route team service)
          (appliedToService env alertData runtime route team service) s ∧
        result = s.finish ∧ data = applyRuntimeToAlertData result alertData := by
  unfold runServiceOrchestration at h
  split at h
  · rename_i hgroup
    have hnone : appliedToService env alertData runtime route team service = [] := by
      unfold appliedToService
      rw [hgroup]
    cases h
    exact .inl ⟨hnone, rfl, rfl, .inl hgroup⟩
  · rename_i groupId hgroup
    have happlied : appliedToService env alertData runtime route team service =
        if runtime.blocked || service.isNone then []
        else appliedInChain env groupId (textIn alertData "source") maxServiceHandoffs
          (serviceLoop env alertData runtime route team service) := by
      unfold appliedToService
      rw [hgroup]
    rw [happlied]
    -- a blocked event, or one without a service, is not run
    by_cases hidle : (runtime.blocked || service.isNone) = true
    · rw [if_pos hidle] at h ⊢
      cases h
      refine .inl ⟨rfl, rfl, rfl, .inr ?_⟩
      rcases Bool.or_eq_true_iff.mp hidle with hblocked | hnone
      · exact .inl hblocked
      · exact .inr (Option.isNone_iff_eq_none.mp hnone)
    · rw [if_neg hidle] at h ⊢
      obtain ⟨s, hrun, h⟩ := bind_eq_ok.mp h
      cases h
      refine .inr ⟨groupId, s, hgroup, ?_, evaluateServiceChain_rounds hrun, rfl, rfl⟩
      exact (Bool.or_eq_false_iff.mp (Bool.eq_false_iff.mpr hidle)).1

end Runs

end IncidentRelay.Orchestration
