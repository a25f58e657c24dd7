import IncidentRelay.Alerts.Accepted
import IncidentRelay.Orchestration.Provenance
import IncidentRelay.Orchestration.Shadow

/-!
# The orchestrations of a call

`upsert_alert` runs the orchestrations of the event, and behind its routing those of
its service. The two runs together, with everything that they apply: the event that a
call routes is the one that they leave.
-/

namespace IncidentRelay.Alerts

open Json Orchestration RouteSelection

/-- What the orchestrations have made of an event. -/
structure EventRun (L : Language) where
  runtime : RuntimeResult
  alertData : Dict
  applied : List (Applied L)

section Run

variable {L : Language} (orc : Env L) (env : Services)

/-- `run_event_orchestration(alert_data)`. -/
def eventPhase (alertData : Dict) : Except PyError (EventRun L) :=
  (runEventOrchestration orc alertData).map fun r =>
    { runtime := r.1, alertData := r.2, applied := appliedToEvent orc alertData }

/-- `upsert_alert` goes no further. -/
def EventRun.stops (e : EventRun L) : Bool :=
  e.runtime.blocked ||
    (e.runtime.disposition = .drop && textIn e.alertData "status" ≠ some "resolved")

/-- `run_service_orchestration(…)` behind it. -/
def servicePhase (e : EventRun L) (route : Route) (service : Service) :
    Except PyError (EventRun L) :=
  (runServiceOrchestration orc e.alertData e.runtime (some route) (some route.team)
    (some service)).map fun r =>
      { runtime := r.1, alertData := r.2,
        applied := e.applied ++
          appliedToService orc e.alertData e.runtime (some route) (some route.team) (some service) }

/-- Every orchestration that a call of `upsert_alert` runs. -/
def orchestrate (alertData : Dict) : Except PyError (EventRun L) := do
  let e ← eventPhase orc alertData
  if e.stops then .ok e
  else do
    let found ← routeForRuntime orc.db env.accepts e.alertData (some e.runtime) none
    match found with
    | none => .ok e
    | some route =>
      match e.runtime.service <|> env.resolveAlertService route e.alertData with
      | none => .ok e
      | some service => servicePhase orc e route service

end Run

section Phases

variable {L : Language} {orc : Env L} {env : Services} {alertData : Dict} {e : EventRun L}

/-- The first phase is the run over the orchestrations of the event. -/
theorem eventPhase_eq_ok (h : eventPhase orc alertData = .ok e) :
    runEventOrchestration orc alertData = .ok (e.runtime, e.alertData) ∧
      e.applied = appliedToEvent orc alertData := by
  unfold eventPhase at h
  cases hrun : runEventOrchestration orc alertData with
  | error error =>
    rw [hrun] at h
    cases h
  | ok r =>
    rw [hrun] at h
    cases h
    exact ⟨rfl, rfl⟩

/-- The second phase goes on from it, with the orchestrations of the service. -/
theorem servicePhase_eq_ok {first : EventRun L} {route : Route} {service : Service}
    (h : servicePhase orc first route service = .ok e) :
    runServiceOrchestration orc first.alertData first.runtime (some route) (some route.team)
        (some service) = .ok (e.runtime, e.alertData) ∧
      e.applied = first.applied ++ appliedToService orc first.alertData first.runtime (some route)
        (some route.team) (some service) := by
  unfold servicePhase at h
  cases hrun : runServiceOrchestration orc first.alertData first.runtime (some route)
      (some route.team) (some service) with
  | error error =>
    rw [hrun] at h
    cases h
  | ok r =>
    rw [hrun] at h
    cases h
    exact ⟨rfl, rfl⟩

/-- The run of a call is the one of the event, or goes on with the one of the service. -/
theorem orchestrate_cases (h : orchestrate orc env alertData = .ok e) :
    eventPhase orc alertData = .ok e ∨
      ∃ first route service, eventPhase orc alertData = .ok first ∧ first.stops = false ∧
        routeForRuntime orc.db env.accepts first.alertData (some first.runtime) none =
          .ok (some route) ∧
        (first.runtime.service <|> env.resolveAlertService route first.alertData) =
          some service ∧
        servicePhase orc first route service = .ok e := by
  unfold orchestrate at h
  obtain ⟨first, hfirst, h⟩ := bind_eq_ok.mp h
  -- the event orchestration ends the intake, or a route is looked for
  split at h
  · cases h
    exact .inl hfirst
  · rename_i hstops
    obtain ⟨found, hfound, h⟩ := bind_eq_ok.mp h
    cases found with
    | none =>
      cases h
      exact .inl hfirst
    | some route =>
      dsimp only at h
      -- a service that the first phase named comes before the one of the route
      cases hservice : first.runtime.service <|> env.resolveAlertService route first.alertData with
      | none =>
        rw [hservice] at h
        cases h
        exact .inl hfirst
      | some service =>
        rw [hservice] at h
        exact .inr ⟨first, route, service, hfirst, Bool.eq_false_iff.mpr hstops, hfound, hservice,
          h⟩

/-- What the run reports of all that it has applied. -/
theorem orchestrate_reports (h : orchestrate orc env alertData = .ok e) :
    e.runtime.Reports e.applied := by
  rcases orchestrate_cases h with hfirst | ⟨first, route, service, hfirst, -, -, -, hsecond⟩
  · obtain ⟨hrun, happlied⟩ := eventPhase_eq_ok hfirst
    rw [happlied]
    exact runEventOrchestration_reports hrun
  · obtain ⟨hrun, happlied⟩ := eventPhase_eq_ok hfirst
    obtain ⟨hrun', happlied'⟩ := servicePhase_eq_ok hsecond
    rw [happlied']
    refine runServiceOrchestration_reports ?_ hrun'
    rw [happlied]
    exact runEventOrchestration_reports hrun

/-- The event that a call routes is one that its orchestrations leave. -/
theorem orchestrate_of_incoming {site : Site L} {a : Arrival}
    (ha : incoming site alertData = some a) :
    ∃ e, orchestrate site.orc site.toServices alertData = .ok e ∧ e.runtime = a.runtime ∧
      e.alertData = a.alertData ∧ a.runtime.blocked = false := by
  obtain ⟨runtime, data, hrun, hopen, hdrop, hrouted⟩ := routeIncoming_cases (arrivalOf_eq_some ha)
  obtain ⟨first, hfirst, rfl, rfl⟩ : ∃ first : EventRun L, eventPhase site.orc alertData = .ok first ∧
      first.runtime = runtime ∧ first.alertData = data := by
    unfold eventPhase
    rw [hrun]
    exact ⟨_, rfl, rfl, rfl⟩
  -- the event goes on, since it was neither dropped nor left without a route
  have hstops : ¬first.stops = true := by
    unfold EventRun.stops
    rw [hopen, Bool.false_or, Bool.and_eq_true, decide_eq_true_iff, decide_eq_true_iff]
    exact hdrop
  unfold orchestrate
  rw [hfirst]
  show ∃ e, (if first.stops = true then _ else _) = _ ∧ _
  rw [if_neg hstops]
  -- with no service there is no second phase
  obtain ⟨route, hfound, ⟨hservice, rfl⟩ | ⟨service, hservice, hservicerun, hblocked, -, -⟩⟩ :=
    routeEvent_cases hrouted
  · rw [hfound]
    dsimp only [bind, Except.bind]
    rw [hservice]
    exact ⟨first, rfl, rfl, rfl, hopen⟩
  · rw [hfound]
    dsimp only [bind, Except.bind]
    rw [hservice]
    show ∃ e, servicePhase site.orc first route service = _ ∧ _
    unfold servicePhase
    rw [hservicerun]
    exact ⟨_, rfl, rfl, rfl, hblocked⟩

/-- An event that arrives carries the runtime of its run, which blocked nothing. -/
theorem incoming_runtime {site : Site L} {a : Arrival}
    (h : orchestrate site.orc site.toServices alertData = .ok e)
    (ha : incoming site alertData = some a) :
    a.runtime = e.runtime ∧ a.alertData = e.alertData ∧ e.runtime.blocked = false := by
  obtain ⟨e', h', hruntime, hdata, hblocked⟩ := orchestrate_of_incoming ha
  obtain rfl : e = e' := Except.ok.inj (h.symm.trans h')
  exact ⟨hruntime.symm, hdata.symm, hruntime ▸ hblocked⟩

/-! ## The two runs of the lifecycle -/

/-- The route and the service that the lifecycle goes on with, by a decision. -/
def chooseService (orc : Env L) (env : Services) (runtime : RuntimeResult) (alertData : Dict) :
    Except PyError (Option (Option Route × Option TeamRow × Option Service)) :=
  if runtime.blocked ||
      (runtime.disposition = .drop && textIn alertData "status" ≠ some "resolved") then .ok none
  else do
    let found ← routeForRuntime orc.db env.accepts alertData (some runtime) none
    .ok (found.bind fun route =>
      (runtime.service <|> env.resolveAlertService route alertData).map fun service =>
        (some route, some route.team, some service))

/-- The lifecycle runs the orchestrations of the event and those of the service it chooses. -/
theorem orchestrate_eq_runBoth (orc : Env L) (env : Services) (alertData : Dict) :
    (orchestrate orc env alertData).map (fun e => (e.runtime, e.alertData)) =
      runBoth orc (chooseService orc env) alertData := by
  unfold orchestrate runBoth eventPhase
  cases hrun : runEventOrchestration orc alertData with
  | error error => rfl
  | ok result =>
    obtain ⟨runtime, data⟩ := result
    simp only [Except.map, bind, Except.bind]
    -- the choice sees nothing of the record
    have hchoice : chooseService orc env runtime.unrecorded data =
        chooseService orc env runtime data := rfl
    rw [hchoice]
    unfold chooseService EventRun.stops
    dsimp only
    generalize (runtime.blocked || decide (runtime.disposition = .drop) &&
      decide (textIn data "status" ≠ some "resolved")) = stops
    cases stops with
    | true => rfl
    | false =>
      simp only [bind, Except.bind, Bool.false_eq_true, if_false]
      cases routeForRuntime orc.db env.accepts data (some runtime) none with
      | error error => rfl
      | ok found =>
        cases found with
        | none => rfl
        | some route =>
          dsimp only [Option.bind_some]
          cases runtime.service <|> env.resolveAlertService route data with
          | none => rfl
          | some service =>
            dsimp only [Option.map_some]
            unfold servicePhase
            dsimp only
            cases runServiceOrchestration orc data runtime (some route) (some route.team)
              (some service) <;> rfl

end Phases

end IncidentRelay.Alerts
