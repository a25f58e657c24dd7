import IncidentRelay.Alerts.Intake
import IncidentRelay.Lib.Result

/-!
# The route that accepts an event

What a call of `upsert_alert` has behind its routing: the routed event went through
the orchestrations of its service, if it has one, and its route is a row of the table.
-/

namespace IncidentRelay.Alerts

open Json Orchestration RouteSelection Pending

variable {L : Language} {orc : Env L} {env : Services} {alertData : Dict}

theorem listRoutes_mem {db : Entities} {teamId : Option Id} {source : Option String} {r : Route}
    (h : r ∈ listRoutes db teamId source) : r ∈ db.routes := by
  unfold listRoutes at h
  rw [List.mem_insertionSort] at h
  exact (List.mem_filter.mp h).1

/-- The matching looks for a route among the rows. -/
theorem findRouteForAlert_mem {db : Entities} {accepts : Matching} {r : Route}
    (h : findRouteForAlert db accepts alertData = .ok (some r)) : r ∈ db.routes := by
  have hfirst : ∀ {teamId : Option Id} {r : Route},
      (listRoutes db teamId (textIn alertData "source")).find?
        (alertRuleMatches accepts alertData) = some r → r ∈ db.routes :=
    fun hfound => listRoutes_mem (List.mem_of_find?_eq_some hfound)
  unfold findRouteForAlert at h
  dsimp only at h
  -- the route is forced, that of a team, or the first that matches
  split at h
  · -- the forced route
    split at h
    · cases h
    · rename_i found hfound
      obtain ⟨id, -, hid⟩ := Option.bind_eq_some_iff.mp hfound
      have hroute := (byId_mem hid).1
      split_ifs at h <;> cases h
      exact hroute
  · split at h
    · obtain ⟨teamId, -, hfound⟩ := Option.bind_eq_some_iff.mp (Except.ok.inj h)
      exact hfirst hfound
    · split at h
      · exact hfirst (Except.ok.inj h)
      · split_ifs at h
        · exact hfirst (Except.ok.inj h)
        · obtain ⟨team, -, hfound⟩ := Option.bind_eq_some_iff.mp (Except.ok.inj h)
          exact hfirst hfound

/-- The route that the runtime leaves is a row too, be it selected, found or the one before. -/
theorem routeForRuntime_mem {db : Entities} {accepts : Matching} {runtime : RuntimeResult}
    {current : Option Route} {r : Route} (hruntime : runtime.Linked db)
    (hcurrent : ∀ x ∈ current, x ∈ db.routes)
    (h : routeForRuntime db accepts alertData (some runtime) current = .ok (some r)) :
    r ∈ db.routes := by
  unfold routeForRuntime at h
  dsimp only at h
  split_ifs at h
  · exact hruntime.selection.route r (Except.ok.inj h)
  · exact findRouteForAlert_mem h
  · cases current with
    | none => exact findRouteForAlert_mem h
    | some route =>
      cases h
      exact hcurrent r rfl

/-- What a routed event came through: without a service as it was, with one through
the orchestrations of the service. -/
theorem routeEvent_cases {a : Arrival} {runtime : RuntimeResult}
    (h : routeEvent orc env alertData runtime = .ok (.inr a)) :
    ∃ route, routeForRuntime orc.db env.accepts alertData (some runtime) none = .ok (some route) ∧
      ((runtime.service <|> env.resolveAlertService route alertData) = none ∧
          a = { alertData, route, service := none, runtime } ∨
        ∃ service, (runtime.service <|> env.resolveAlertService route alertData) = some service ∧
          runServiceOrchestration orc alertData runtime (some route) (some route.team)
            (some service) = .ok (a.runtime, a.alertData) ∧
          a.runtime.blocked = false ∧
          routeForRuntime orc.db env.accepts a.alertData (some a.runtime) (some route) =
            .ok (some a.route) ∧
          a.service = (a.runtime.service <|> env.resolveAlertService a.route a.alertData)) := by
  unfold routeEvent at h
  obtain ⟨found, hfound, h⟩ := bind_eq_ok.mp h
  -- without a route the event is not taken
  cases found with
  | none => cases h
  | some route =>
    refine ⟨route, hfound, ?_⟩
    dsimp only at h
    -- without a service the first run is the last one
    cases hservice : runtime.service <|> env.resolveAlertService route alertData with
    | none =>
      rw [hservice] at h
      cases h
      exact .inl ⟨rfl, rfl⟩
    | some service =>
      rw [hservice] at h
      obtain ⟨⟨result, data⟩, hrun, h⟩ := bind_eq_ok.mp h
      refine .inr ⟨service, rfl, ?_⟩
      dsimp only at h
      split at h
      · cases h
      · rename_i hblocked
        obtain ⟨found, hfound, h⟩ := bind_eq_ok.mp h
        cases found with
        | none => cases h
        | some route' =>
          cases h
          exact ⟨hrun, Bool.eq_false_iff.mpr hblocked, hfound, rfl⟩

/-- What is routed is neither blocked nor dropped. -/
theorem routeIncoming_cases {a : Arrival} (h : routeIncoming orc env alertData = .ok (.inr a)) :
    ∃ runtime data, runEventOrchestration orc alertData = .ok (runtime, data) ∧
      runtime.blocked = false ∧
      ¬(runtime.disposition = .drop ∧ textIn data "status" ≠ some "resolved") ∧
      routeEvent orc env data runtime = .ok (.inr a) := by
  unfold routeIncoming at h
  obtain ⟨⟨runtime, data⟩, hrun, h⟩ := bind_eq_ok.mp h
  dsimp only at h
  split at h
  · cases h
  · rename_i hblocked
    split at h
    · cases h
    · rename_i hdrop
      exact ⟨runtime, data, hrun, Bool.eq_false_iff.mpr hblocked, hdrop, h⟩

/-- The route of an event is a row of the table. -/
theorem routeEvent_route_mem {a : Arrival} {runtime : RuntimeResult}
    (hservices : ∀ route alertData, ∀ service ∈ env.resolveAlertService route alertData,
      service ∈ orc.db.services)
    (hruntime : runtime.Linked orc.db)
    (h : routeEvent orc env alertData runtime = .ok (.inr a)) : a.route ∈ orc.db.routes := by
  obtain ⟨route, hfound, ⟨-, rfl⟩ | ⟨service, hservice, hrun, -, hagain, -⟩⟩ := routeEvent_cases h
  · exact routeForRuntime_mem hruntime (by simp) hfound
  · have hroute := routeForRuntime_mem hruntime (by simp) hfound
    have hmem : service ∈ orc.db.services := by
      rw [Option.orElse_eq_orElse, Option.orElse_eq_or, Option.or_eq_some_iff] at hservice
      rcases hservice with hselected | ⟨-, hfound⟩
      · exact hruntime.selection.service service hselected
      · exact hservices route alertData service hfound
    have hresult := runServiceOrchestration_linked hruntime
      (by rintro x ⟨⟩; exact hroute) (by rintro x ⟨⟩; exact orc.db.route_team route hroute)
      (by rintro x ⟨⟩; exact hmem) (fun _ => rfl) hrun
    exact routeForRuntime_mem hresult (by rintro x ⟨⟩; exact hroute) hagain

/-- What an activation restores is looked up again, so its selection consists of rows. -/
theorem activationRuntime_linked (db : Entities) (context : Dict) :
    (activationRuntime db context).Linked db := by
  -- what the context names is looked up among the rows
  have hfind : ∀ {α : Type} {key : α → Id} {rows : List α} {id : Option Id} {x : α},
      id.bind (byId key rows) = some x → x ∈ rows := by
    intro α key rows id x h
    obtain ⟨n, -, hn⟩ := Option.bind_eq_some_iff.mp h
    exact (byId_mem hn).1
  unfold activationRuntime restoreRuntimeResult
  constructor
  · constructor
    · exact fun x hx => hfind hx
    · intro x hx
      have hx : (_ <|> _) = some x := hx
      rw [Option.orElse_eq_orElse, Option.orElse_eq_or, Option.or_eq_some_iff] at hx
      rcases hx with hteam | ⟨-, hteam⟩
      · exact hfind hteam
      · obtain ⟨r, hr, rfl⟩ := Option.map_eq_some_iff.mp hteam
        exact db.route_team r (hfind hr)
    · exact fun x hx => hfind hx
    · exact fun x hx => hfind hx
    · exact fun x hx => hfind hx
    · exact fun x hx => hfind hx
    · intro hroute
      dsimp only [RuntimeResult.selection] at hroute ⊢
      rw [Option.orElse_eq_orElse, Option.orElse_eq_or, Option.isSome_or, Option.isSome_map,
        hroute, Bool.or_true]
  -- a key that is set is not null
  · intro key hkey hnull
    subst hnull
    have hvalue : valueOf _ = some Json.null := hkey
    unfold valueOf at hvalue
    split at hvalue
    · cases hvalue
    · rename_i hvalue_ne
      exact hvalue_ne (Option.some.inj hvalue)

/-- An arrival is what the routing comes to when nothing ends it. -/
theorem arrivalOf_eq_some {routed : Except PyError (Outcome ⊕ Arrival)} {a : Arrival}
    (h : arrivalOf routed = some a) : routed = .ok (.inr a) := by
  unfold arrivalOf at h
  split at h
  · cases h
    rfl
  · cases h

variable (site : Site L)

theorem incoming_route_mem {a : Arrival} (h : incoming site alertData = some a) :
    a.route ∈ site.orc.db.routes := by
  obtain ⟨runtime, data, hrun, -, -, hrouted⟩ := routeIncoming_cases (arrivalOf_eq_some h)
  exact routeEvent_route_mem site.service_mem (runEventOrchestration_linked hrun) hrouted

theorem resumedArrival_route_mem {row : PendingOrchestratedEvent} {a : Arrival}
    (h : resumedArrival site row = some a) : a.route ∈ site.orc.db.routes :=
  routeEvent_route_mem site.service_mem (activationRuntime_linked _ _) (arrivalOf_eq_some h)

end IncidentRelay.Alerts
