import IncidentRelay.Orchestration.Applied

/-!
# Where a disposition comes from

A context carries the disposition of the orchestrations before it, and an applied
orchestration reports what it carries as its own. So the disposition of a result is
the last one that an action has set, and the orchestration that it names is the last
one that was applied (`RuntimeResult.Reports`).
-/

namespace IncidentRelay.Orchestration

section Dispositions

variable {L : Language}

/-- No action decides to process. -/
theorem disposition_ne_process {ran : ActionStep L} (h : ran.disposition = some .process) :
    False := by
  unfold ActionStep.disposition at h
  split at h
  · cases h
  · unfold ActionBody.disposition at h
    split at h <;> cases h

theorem process_not_mem_dispositions (log : List (Entry L)) : .process ∉ dispositions log := by
  intro h
  obtain ⟨path, ran, -, -, hran⟩ := mem_dispositions.mp h
  exact disposition_ne_process hran

/-- `context["result"]["disposition"]`, or `process`. -/
def Context.disposition (c : Context) : Disposition :=
  (c.result.map (·.disposition)).getD .process

/-- An orchestration starts with the disposition of its context. -/
theorem fromContext_disposition {defaultHistory : HistoryLevel} {c : Context}
    {s : EventActionState} (h : EventActionState.fromContext defaultHistory c = .ok s) :
    s.result.disposition = c.disposition := by
  unfold EventActionState.fromContext at h
  iterate 10
    obtain ⟨_, -, h⟩ := bind_eq_ok.mp h
  cases h
  unfold Context.disposition
  cases c.result <;> rfl

/-- An evaluation ends with the last disposition that it has set, or with the one it
found. -/
theorem evaluated_disposition {defaultHistory : HistoryLevel} {rules : List (Rule L)}
    {context : Context} {r : OrchestrationExecutionResult L}
    (h : executeRuleTreeTraced L defaultHistory rules context = .ok r) :
    r.state.result.disposition = (dispositions (logs r.rules)).getLastD context.disposition := by
  obtain ⟨s, hstart, hwalk, -⟩ := executeRuleTreeTraced_walk h
  have hdecided := congrArg Prod.fst (replay_decided hwalk.sees.1)
  rw [hwalk.sees.2] at hdecided
  rw [← fromContext_disposition hstart]
  exact hdecided

/-- The dispositions that the orchestrations' own actions have set, in order. -/
def decidedBy (as : List (Applied L)) : List Disposition := as.flatMap Applied.dispositions

theorem decidedBy_append (as bs : List (Applied L)) :
    decidedBy (as ++ bs) = decidedBy as ++ decidedBy bs := List.flatMap_append

theorem process_not_mem_decidedBy (as : List (Applied L)) : .process ∉ decidedBy as := by
  intro h
  obtain ⟨a, -, ha⟩ := List.mem_flatMap.mp h
  exact process_not_mem_dispositions _ ha

/-- A disposition that was set is not `process`. -/
theorem getLastD_eq_process {ds : List Disposition} {d : Disposition} (hds : .process ∉ ds)
    (h : ds.getLastD d = .process) : ds = [] ∧ d = .process := by
  cases hlast : ds.getLast? with
  | none =>
    rw [List.getLastD_eq_getLast?, hlast] at h
    exact ⟨List.getLast?_eq_none_iff.mp hlast, h⟩
  | some last =>
    rw [List.getLastD_eq_getLast?, hlast] at h
    obtain rfl : last = .process := h
    exact absurd (List.mem_of_getLast? hlast) hds

theorem getLastD_append (ds es : List Disposition) (d : Disposition) :
    (ds ++ es).getLastD d = es.getLastD (ds.getLastD d) := by
  simp only [List.getLastD_eq_getLast?, List.getLast?_append]
  cases es.getLast? <;> rfl

end Dispositions

/-! ## Rounds -/

/-- The orchestration and the version that a result names. -/
def RuntimeResult.reporter (r : RuntimeResult) : Option Id × Option Id :=
  (r.dispositionOrchestrationId, r.dispositionVersionId)

section Rounds

variable {L : Language} {env : Env L} {groupId : Id} {source : Option String}

/-- How an orchestration is named. -/
def Applied.reporter (a : Applied L) : Option Id × Option Id :=
  (some a.orchestration.id, some a.versionId)

/-- The orchestration that was applied last, when there is a disposition. -/
def reporterOf (disposition : Disposition) (as : List (Applied L)) (before : Option Id × Option Id) :
    Option Id × Option Id :=
  if disposition = .process then before else (as.getLast?.map Applied.reporter).getD before

/-- The result has the disposition of the context. -/
def Loop.Carries (s : Loop) : Prop := s.runtime.disposition = s.context.disposition

/-- A disposition is taken over with who reports it, unless it is to process. -/
theorem applyDisposition_eq (o : Orchestration L) (step : RuntimeStep) (result : ActionResult)
    (r : RuntimeResult) :
    (applyDisposition o step result r).disposition =
        (if result.disposition = .process then r.disposition else result.disposition) ∧
      (applyDisposition o step result r).reporter =
        (if result.disposition = .process then r.reporter else (some o.id, step.versionId)) := by
  unfold applyDisposition
  cases result.disposition <;> exact ⟨rfl, rfl⟩

/-- What one orchestration does to the disposition. -/
theorem Commits.disposition {s t : Loop} {a : Applied L} (h : Commits env groupId source s a t)
    (hs : s.Carries) :
    t.Carries ∧ t.runtime.disposition = a.dispositions.getLastD s.runtime.disposition ∧
      t.runtime.reporter = reporterOf t.runtime.disposition [a] s.runtime.reporter := by
  -- the rules were evaluated, and the result was committed
  obtain ⟨rules, hrun⟩ := h.evaluated
  obtain ⟨step, -, hversion, rfl⟩ := h.committed
  have hresult := evaluated_disposition hrun
  rw [← show s.runtime.disposition = s.context.disposition from hs] at hresult
  unfold commit
  dsimp only
  obtain ⟨hdisposition, hreporter⟩ := applyDisposition_eq a.orchestration step
    a.result.state.result _
  rw [hdisposition, hreporter]
  have hcontext : ∀ route team service, (refreshEntityContext a.result.state.context route team
      service).disposition = a.result.state.result.disposition := fun _ _ _ => rfl
  unfold Loop.Carries
  dsimp only
  rw [hdisposition, hcontext]
  -- the result shows whether a disposition was set
  by_cases hprocess : a.result.state.result.disposition = .process
  · -- nothing was set, and nothing was there
    obtain ⟨hnone, hbefore⟩ := getLastD_eq_process (process_not_mem_dispositions _)
      (hresult.symm.trans hprocess)
    rw [if_pos hprocess, if_pos hprocess]
    refine ⟨hbefore.trans hprocess.symm, ?_, ?_⟩
    · unfold Applied.dispositions
      rw [hnone]
      rfl
    · unfold reporterOf
      rw [if_pos hbefore]
      rfl
  · rw [if_neg hprocess, if_neg hprocess]
    refine ⟨rfl, hresult, ?_⟩
    unfold reporterOf
    rw [if_neg hprocess, hversion]
    rfl

/-- By induction on the rounds. -/
theorem Rounds.disposition {s t : Loop} {as : List (Applied L)}
    (h : Rounds env groupId source s as t) (hs : s.Carries) :
    t.Carries ∧ t.runtime.disposition = (decidedBy as).getLastD s.runtime.disposition ∧
      t.runtime.reporter = reporterOf t.runtime.disposition as s.runtime.reporter := by
  obtain ⟨ls, hrun, rfl⟩ := h
  induction hrun with
  | nil s => exact ⟨hs, rfl, (ite_self _).symm⟩
  | @cons s u t l ls hround _ ih =>
    -- a round that applies nothing leaves the disposition alone
    have hquiet : l = none → u.Carries ∧ u.runtime.disposition = s.runtime.disposition ∧
        u.runtime.reporter = s.runtime.reporter := by
      rintro rfl
      cases hround <;> exact ⟨hs, rfl, rfl⟩
    cases l with
    | none =>
      obtain ⟨hu, hdisposition, hreporter⟩ := hquiet rfl
      obtain ⟨ht, hlast, hnames⟩ := ih hu
      rw [hdisposition] at hlast
      rw [hreporter] at hnames
      exact ⟨ht, hlast, hnames⟩
    | some a =>
      cases hround with
      | applied hcommits =>
        obtain ⟨hu, hdisposition, hreporter⟩ := hcommits.disposition hs
        obtain ⟨ht, hlast, hnames⟩ := ih hu
        rw [List.reduceOption_cons_of_some]
        refine ⟨ht, ?_, ?_⟩
        · rw [hlast, hdisposition]
          unfold decidedBy
          rw [List.flatMap_cons, getLastD_append]
        · rw [hnames, hreporter]
          unfold reporterOf
          by_cases hprocess : t.runtime.disposition = .process
          · have hbefore := (getLastD_eq_process (process_not_mem_decidedBy _)
              (hlast.symm.trans hprocess)).2
            rw [if_pos hprocess, if_pos hprocess, if_pos hbefore]
          · rw [if_neg hprocess, if_neg hprocess]
            cases hrest : ls.reduceOption with
            | nil =>
              have hsame : t.runtime.disposition = u.runtime.disposition := by
                rw [hlast, hrest]
                rfl
              rw [← hsame, if_neg hprocess]
              rfl
            | cons b bs =>
              rw [List.getLast?_cons_cons]
              simp only [List.getLast?_cons, Option.map_some, Option.getD_some]

end Rounds

/-! ## Runs -/

section Runs

variable {L : Language} {env : Env L} {alertData data : Dict} {runtime result : RuntimeResult}

/-- The result reports the last disposition that was set, under the name of the
orchestration that was applied last. -/
structure RuntimeResult.Reports (r : RuntimeResult) (as : List (Applied L)) : Prop where
  carries : r.disposition = (r.context.map (·.disposition)).getD .process
  disposition : r.disposition = (decidedBy as).getLastD .process
  reporter : r.reporter = reporterOf r.disposition as (none, none)

/-- A run that carries what its rounds decided reports it. -/
theorem finish_reports {s : Loop} {as : List (Applied L)} (hcarries : s.Carries)
    (hdisposition : s.runtime.disposition = (decidedBy as).getLastD .process)
    (hreporter : s.runtime.reporter = reporterOf s.runtime.disposition as (none, none)) :
    s.finish.Reports as := by
  unfold Loop.finish requireRoute
  split
  · exact ⟨hcarries, hdisposition, hreporter⟩
  · exact ⟨hcarries, hdisposition, hreporter⟩

theorem runEventOrchestration_reports
    (h : runEventOrchestration env alertData = .ok (result, data)) :
    result.Reports (appliedToEvent env alertData) := by
  rcases runEventOrchestration_cases h with
    ⟨hnone, -, huntouched, -⟩ | ⟨groupId, route, team, service, s, -, -, hrounds, rfl, -⟩
  · rw [hnone, huntouched]
    exact ⟨rfl, rfl, rfl⟩
  · obtain ⟨hcarries, hdisposition, hreporter⟩ := hrounds.disposition rfl
    exact finish_reports hcarries hdisposition hreporter

/-- The orchestrations of a service go on with what the event has come to. -/
theorem runServiceOrchestration_reports {route : Option Route} {team : Option TeamRow}
    {service : Option Service} {as : List (Applied L)} (hruntime : runtime.Reports as)
    (h : runServiceOrchestration env alertData runtime route team service = .ok (result, data)) :
    result.Reports (as ++ appliedToService env alertData runtime route team service) := by
  rcases runServiceOrchestration_cases h with
    ⟨hnone, rfl, -, -⟩ | ⟨groupId, s, -, -, hrounds, rfl, -⟩
  -- no orchestration was run for the service
  · rw [hnone, List.append_nil]
    exact hruntime
  -- the second loop starts from the runtime of the first
  · have hstart : (serviceLoop env alertData runtime route team service).Carries := by
      unfold Loop.Carries
      show runtime.disposition = (refreshEntityContext _ _ _ _).disposition
      rw [hruntime.carries]
      cases runtime.context <;> rfl
    obtain ⟨hcarries, hdisposition, hreporter⟩ := hrounds.disposition hstart
    have hbefore : (serviceLoop env alertData runtime route team service).runtime.disposition =
        (decidedBy as).getLastD .process := hruntime.disposition
    have hnamed : (serviceLoop env alertData runtime route team service).runtime.reporter =
        reporterOf runtime.disposition as (none, none) := hruntime.reporter
    rw [hbefore] at hdisposition
    rw [hnamed] at hreporter
    refine finish_reports hcarries ?_ ?_
    · rw [hdisposition, decidedBy_append, getLastD_append]
    · rw [hreporter]
      unfold reporterOf
      -- the reporter changes exactly where a disposition was set
      by_cases hprocess : s.runtime.disposition = .process
      · have hstarted := (getLastD_eq_process (process_not_mem_decidedBy _)
          (hdisposition.symm.trans hprocess)).2
        rw [if_pos hprocess, if_pos hprocess, if_pos (hruntime.disposition.trans hstarted)]
      · rw [if_neg hprocess, if_neg hprocess]
        cases hlist : appliedToService env alertData runtime route team service with
        | nil =>
          have hsame : s.runtime.disposition = runtime.disposition := by
            rw [hdisposition, hlist, hruntime.disposition]
            rfl
          rw [List.append_nil, ← hsame, if_neg hprocess]
          rfl
        | cons b bs =>
          rw [List.getLast?_append_of_ne_nil _ (List.cons_ne_nil b bs)]
          simp only [List.getLast?_cons, Option.map_some, Option.getD_some]

end Runs

end IncidentRelay.Orchestration
