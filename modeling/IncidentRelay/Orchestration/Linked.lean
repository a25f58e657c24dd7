import IncidentRelay.Lib.Result
import IncidentRelay.Orchestration.Runtime

/-!
# The entities of a runtime result

Whatever the orchestrations select, the entities of a result are rows of the
tables, a route does not stand without a team, and a group key is a value. This
holds at the start of a loop, and every round keeps it.
-/

namespace IncidentRelay.Orchestration

/-- The entities are rows of the tables. -/
structure Selection.Linked (db : Entities) (s : Selection) : Prop where
  route : ∀ x ∈ s.route, x ∈ db.routes
  team : ∀ x ∈ s.team, x ∈ db.teams
  service : ∀ x ∈ s.service, x ∈ db.services
  escalation : ∀ x ∈ s.escalation, x ∈ db.escalationPolicies
  priority : ∀ x ∈ s.priority, x ∈ db.priorityPolicies
  notification : ∀ x ∈ s.notification, x ∈ db.notificationPolicies
  /-- a route does not stand without a team -/
  route_team : s.route.isSome = true → s.team.isSome = true

/-- The entities of a result. -/
def RuntimeResult.selection (r : RuntimeResult) : Selection :=
  { route := r.route, team := r.team, service := r.service, escalation := r.escalationPolicy,
    priority := r.priorityPolicy, notification := r.notificationPolicy }

/-- A result with entities of the tables and, where it has a group key, a value. -/
structure RuntimeResult.Linked (db : Entities) (r : RuntimeResult) : Prop where
  selection : r.selection.Linked db
  groupKey : ∀ key ∈ r.groupKey, key ≠ .null

/-- The same of a state of the loop. -/
structure Loop.Linked (db : Entities) (s : Loop) : Prop where
  selection : s.selection.Linked db
  groupKey : ∀ key ∈ s.runtime.groupKey, key ≠ .null

/-! ## The selection -/

section Selection

variable {db : Entities} {groupId : Id} {source : Option String} {routing : Routing}

/-- An id that is given loads a team, or raises. -/
theorem loadTeam_isSome {id : Option Id} {team : Option TeamRow} (hid : id.isSome = true)
    (h : db.loadTeam id groupId = .ok team) : team.isSome = true := by
  obtain ⟨id, rfl⟩ := Option.isSome_iff_exists.mp hid
  unfold Entities.loadTeam at h
  dsimp only at h
  split at h
  · cases h
  · split_ifs at h
    cases h
    rfl

theorem loadService_isSome {id : Option Id} {service : Option Service} (hid : id.isSome = true)
    (h : db.loadService id groupId = .ok service) : service.isSome = true := by
  obtain ⟨id, rfl⟩ := Option.isSome_iff_exists.mp hid
  unfold Entities.loadService at h
  dsimp only at h
  split at h
  · cases h
  · split_ifs at h
    cases h
    rfl

/-- A route that is selected is a row. -/
theorem selectRoute_mem {fallback route : Option Route}
    (hfallback : ∀ x ∈ fallback, x ∈ db.routes)
    (h : selectRoute db routing groupId source fallback = .ok route) :
    ∀ x ∈ route, x ∈ db.routes := by
  unfold selectRoute at h
  split_ifs at h
  · exact fun x hx => (loadRoute_spec h x hx).1
  · cases h
    simp
  · cases h
    exact hfallback

theorem selectTeam_mem {route : Option Route} {fallback team : Option TeamRow}
    (hroute : ∀ x ∈ route, x ∈ db.routes) (hfallback : ∀ x ∈ fallback, x ∈ db.teams)
    (h : selectTeam db routing groupId route fallback = .ok team) :
    (∀ x ∈ team, x ∈ db.teams) ∧ (route.isSome = true → team.isSome = true) := by
  unfold selectTeam at h
  split_ifs at h with hid
  · exact ⟨fun x hx => (loadTeam_spec h x hx).1, fun _ => loadTeam_isSome hid h⟩
  · cases route with
    | none =>
      cases h
      exact ⟨hfallback, fun hroute => by cases hroute⟩
    | some r =>
      cases h
      refine ⟨?_, fun _ => rfl⟩
      intro x hx
      cases hx
      exact db.route_team r (hroute r rfl)

/-- And a service, with the route and the team that come with it. -/
theorem selectService_mem {route route' : Option Route} {team team' : Option TeamRow}
    {fallback service : Option Service} (hroute : ∀ x ∈ route, x ∈ db.routes)
    (hteam : ∀ x ∈ team, x ∈ db.teams) (hboth : route.isSome = true → team.isSome = true)
    (hfallback : ∀ x ∈ fallback, x ∈ db.services)
    (h : selectService db routing groupId route team fallback = .ok (route', team', service)) :
    (∀ x ∈ route', x ∈ db.routes) ∧ (∀ x ∈ team', x ∈ db.teams) ∧
      (∀ x ∈ service, x ∈ db.services) ∧ (route'.isSome = true → team'.isSome = true) := by
  unfold selectService at h
  -- by whether the result names a service
  split at h
  · rename_i hid
    obtain ⟨loaded, hload, h⟩ := bind_eq_ok.mp h
    have hloaded : ∀ x ∈ loaded, x ∈ db.services := fun x hx => (loadService_spec hload x hx).1
    split at h
    · -- the team of the service, and the route if it is one of that team
      cases h
      obtain ⟨s, hs⟩ := Option.isSome_iff_exists.mp (loadService_isSome hid hload)
      subst hs
      refine ⟨?_, ?_, hloaded, fun _ => rfl⟩
      · intro x hx
        exact hroute x (Option.mem_filter_iff.mp hx).1
      · intro x hx
        cases hx
        exact db.service_team s (hloaded s rfl)
    · cases h
      exact ⟨hroute, hteam, hloaded, hboth⟩
  -- without one the service stays, or is that of the route
  · cases fallback with
    | some s =>
      cases h
      exact ⟨hroute, hteam, hfallback, hboth⟩
    | none =>
      cases h
      refine ⟨hroute, hteam, ?_, hboth⟩
      intro x hx
      obtain ⟨r, hr, hservice⟩ := Option.mem_bind_iff.mp hx
      exact db.route_service r (hroute r hr) x hservice

theorem selectPolicy_mem {policies : List Policy} {id teamId : Option Id}
    {fallback policy : Option Policy} (hfallback : ∀ x ∈ fallback, x ∈ policies)
    (h : selectPolicy policies id groupId teamId fallback = .ok policy) :
    ∀ x ∈ policy, x ∈ policies := by
  unfold selectPolicy at h
  split_ifs at h
  · exact fun x hx => (loadPolicy_spec h x hx).1
  · cases h
    exact hfallback

/-- What is selected is linked when what it falls back to is. -/
theorem resolveSelectedEntities_linked {result : ActionResult} {fallback selected : Selection}
    (hfallback : fallback.Linked db)
    (h : resolveSelectedEntities db result groupId source fallback = .ok selected) :
    selected.Linked db := by
  unfold resolveSelectedEntities at h
  -- the route comes first, then the team, then the service, which may replace both
  obtain ⟨route, hroute, h⟩ := bind_eq_ok.mp h
  obtain ⟨team, hteam, h⟩ := bind_eq_ok.mp h
  obtain ⟨⟨route', team', service⟩, hservice, h⟩ := bind_eq_ok.mp h
  have hroute := selectRoute_mem hfallback.route hroute
  obtain ⟨hteam, hboth⟩ := selectTeam_mem hroute hfallback.team hteam
  obtain ⟨hroute', hteam', hservice, hboth'⟩ :=
    selectService_mem hroute hteam hboth hfallback.service hservice
  dsimp only at h
  split_ifs at h
  obtain ⟨escalation, hescalation, h⟩ := bind_eq_ok.mp h
  obtain ⟨priority, hpriority, h⟩ := bind_eq_ok.mp h
  obtain ⟨notification, hnotification, h⟩ := bind_eq_ok.mp h
  cases h
  exact {
    route := hroute'
    team := hteam'
    service := hservice
    escalation := selectPolicy_mem hfallback.escalation hescalation
    priority := selectPolicy_mem hfallback.priority hpriority
    notification := selectPolicy_mem hfallback.notification hnotification
    route_team := hboth' }

end Selection

/-! ## The loop -/

section Rounds

variable {L : Language} {env : Env L} {groupId : Id} {source : Option String}

/-- What is given is not null. -/
theorem given_ne_null {value v : Json} (h : given value = some v) : v ≠ .null := by
  unfold given at h
  split_ifs at h with hempty
  cases h
  exact fun hnull => hempty (.inl hnull)

/-- A disposition selects nothing. -/
theorem applyDisposition_kept (o : Orchestration L) (step : RuntimeStep) (result : ActionResult)
    (r : RuntimeResult) :
    (applyDisposition o step result r).escalationPolicy = r.escalationPolicy ∧
    (applyDisposition o step result r).priorityPolicy = r.priorityPolicy ∧
    (applyDisposition o step result r).notificationPolicy = r.notificationPolicy ∧
    (applyDisposition o step result r).groupKey = r.groupKey := by
  unfold applyDisposition
  cases result.disposition <;> exact ⟨rfl, rfl, rfl, rfl⟩

/-- Applying an orchestration leaves rows selected. -/
theorem commit_linked {o : Orchestration L} {step : RuntimeStep} {context : Context}
    {result : ActionResult} {selected : Selection} {s : Loop} (hselected : selected.Linked env.db)
    (h : s.Linked env.db) : (commit o step context result selected s).Linked env.db := by
  constructor
  · unfold Loop.selection commit
    dsimp only
    rw [(applyDisposition_kept o step result _).1, (applyDisposition_kept o step result _).2.1,
      (applyDisposition_kept o step result _).2.2.1]
    exact hselected
  · intro key hkey
    unfold commit at hkey
    dsimp only at hkey
    rw [(applyDisposition_kept o step result _).2.2.2] at hkey
    -- the group key is the one that is set, that of the event, or the one of before
    have hkey : ((result.grouping.groupKey.bind fun key => given (.str key)) <|>
        given (context.event.getD "group_key") <|> s.runtime.groupKey) = some key := hkey
    simp only [Option.orElse_eq_orElse, Option.orElse_eq_or, Option.or_eq_some_iff] at hkey
    rcases hkey with hset | ⟨-, hevent | ⟨-, hkept⟩⟩
    · obtain ⟨text, -, hgiven⟩ := Option.mem_bind_iff.mp hset
      exact given_ne_null hgiven
    · exact given_ne_null hevent
    · exact h.groupKey key hkept

theorem evaluateOne_linked {o : Orchestration L} {s t : Loop} {next : Next}
    (h : s.Linked env.db) (hone : evaluateOne env groupId source o s = .ok (t, next)) :
    t.Linked env.db := by
  unfold evaluateOne at hone
  split at hone
  · split_ifs at hone <;> cases hone <;> exact ⟨h.selection, h.groupKey⟩
  · split at hone
    · cases hone
      exact ⟨h.selection, h.groupKey⟩
    · obtain ⟨context, -, hone⟩ := bind_eq_ok.mp hone
      dsimp only at hone
      split at hone
      · split_ifs at hone <;> cases hone <;> exact ⟨h.selection, h.groupKey⟩
      · rename_i selected hselected
        cases hone
        exact commit_linked (resolveSelectedEntities_linked h.selection hselected) h

/-- By induction on the list. -/
theorem evaluateOrchestrations_linked {os : List (Orchestration L)} {s t : Loop}
    (h : s.Linked env.db) (hrun : evaluateOrchestrations env groupId source os s = .ok t) :
    t.Linked env.db := by
  induction os generalizing s with
  | nil =>
    cases hrun
    exact ⟨h.selection, h.groupKey⟩
  | cons o os ih =>
    rw [evaluateOrchestrations] at hrun
    split_ifs at hrun
    · exact ih h hrun
    · obtain ⟨⟨s', next⟩, hone, hrun⟩ := bind_eq_ok.mp hrun
      have hs' := evaluateOne_linked h hone
      cases next with
      | stop =>
        cases hrun
        exact ⟨hs'.selection, hs'.groupKey⟩
      | proceed => exact ih hs' hrun

/-- By induction on what is left of the chain. -/
theorem evaluateServiceChain_linked {left : Nat} {s t : Loop} (h : s.Linked env.db)
    (hrun : evaluateServiceChain env groupId source left s = .ok t) : t.Linked env.db := by
  induction left generalizing s with
  -- no hand-offs are left
  | zero =>
    rw [evaluateServiceChain] at hrun
    split at hrun
    · cases hrun
      exact h
    · split_ifs at hrun <;> cases hrun
      · exact h
      · exact h
      · exact ⟨h.selection, h.groupKey⟩
  -- the next service is entered with its orchestrations
  | succ left ih =>
    rw [evaluateServiceChain] at hrun
    split at hrun
    · cases hrun
      exact h
    · split_ifs at hrun
      · cases hrun
        exact h
      · cases hrun
        exact h
      · obtain ⟨s', hround, hrun⟩ := bind_eq_ok.mp hrun
        refine ih (evaluateOrchestrations_linked ?_ hround) hrun
        exact ⟨h.selection, h.groupKey⟩

/-- The end of a run selects nothing. -/
theorem finish_linked {s : Loop} (h : s.Linked env.db) : s.finish.Linked env.db := by
  have hmerged : ({ s.runtime with
      context := some s.context, route := s.route, team := s.team, service := s.service } :
      RuntimeResult).Linked env.db := ⟨h.selection, h.groupKey⟩
  unfold Loop.finish requireRoute
  split_ifs
  · exact ⟨hmerged.selection, hmerged.groupKey⟩
  · exact hmerged

end Rounds

/-! ## The runs -/

section Runs

variable {L : Language} {env : Env L} {alertData data : Dict} {runtime result : RuntimeResult}

/-- The entities of an event are loaded: the team is the one of the route, if there is a
route, and the service is the one of the event or the one of the route. -/
theorem initialEntities_loads {db : Entities} {groupId : Id} {route : Option Route}
    {team : Option TeamRow} {service : Option Service}
    (h : initialEntities db alertData groupId = .ok (route, team, service)) :
    db.loadRoute (idOf (alertData.getD "forced_route_id")) groupId
        (textIn alertData "source") = .ok route ∧
      ((∃ r, route = some r ∧ team = some r.team) ∨
        route = none ∧
          db.loadTeam (idOf (alertData.getD "forced_team_id")) groupId = .ok team) ∧
      ((∃ id, idOf (alertData.getD "service_id") = some id ∧
          db.loadService (some id) groupId = .ok service) ∨
        service = route.bind (·.service)) := by
  unfold initialEntities at h
  obtain ⟨r, hroute, h⟩ := bind_eq_ok.mp h
  -- by whether the event names a service, and whether it has a route
  cases hid : idOf (alertData.getD "service_id") with
  | none =>
    rw [hid] at h
    cases r with
    | none =>
      obtain ⟨t, hteam, h⟩ := bind_eq_ok.mp h
      cases h
      exact ⟨hroute, .inr ⟨rfl, hteam⟩, .inr rfl⟩
    | some r =>
      cases h
      exact ⟨hroute, .inl ⟨r, rfl, rfl⟩, .inr rfl⟩
  | some id =>
    rw [hid] at h
    cases r with
    | none =>
      obtain ⟨t, hteam, h⟩ := bind_eq_ok.mp h
      obtain ⟨s, hservice, h⟩ := bind_eq_ok.mp h
      cases h
      exact ⟨hroute, .inr ⟨rfl, hteam⟩, .inl ⟨id, rfl, hservice⟩⟩
    | some r =>
      obtain ⟨_, ⟨⟩, h⟩ := bind_eq_ok.mp h
      obtain ⟨s, hservice, h⟩ := bind_eq_ok.mp h
      cases h
      exact ⟨hroute, .inl ⟨r, rfl, rfl⟩, .inl ⟨id, rfl, hservice⟩⟩

theorem initialEntities_linked {groupId : Id} {route : Option Route} {team : Option TeamRow}
    {service : Option Service}
    (h : initialEntities env.db alertData groupId = .ok (route, team, service)) :
    (Selection.mk route team service none none none).Linked env.db := by
  obtain ⟨hroute, hteam, hservice⟩ := initialEntities_loads h
  have hr : ∀ x ∈ route, x ∈ env.db.routes := fun x hx => (loadRoute_spec hroute x hx).1
  have hs : ∀ x ∈ service, x ∈ env.db.services := by
    rcases hservice with ⟨id, -, hservice⟩ | rfl
    · exact fun x hx => (loadService_spec hservice x hx).1
    · intro x hx
      obtain ⟨found, hfound, hx⟩ := Option.mem_bind_iff.mp hx
      exact env.db.route_service found (hr found hfound) x hx
  rcases hteam with ⟨found, rfl, rfl⟩ | ⟨rfl, hteam⟩
  · refine ⟨hr, ?_, hs, by simp, by simp, by simp, fun _ => rfl⟩
    intro x hx
    cases hx
    exact env.db.route_team found (hr found rfl)
  · exact ⟨hr, fun x hx => (loadTeam_spec hteam x hx).1, hs, by simp, by simp, by simp,
      fun hsome => by cases hsome⟩

/-- The result of an event is linked. -/
theorem runEventOrchestration_linked
    (h : runEventOrchestration env alertData = .ok (result, data)) : result.Linked env.db := by
  -- without entities there is nothing to be linked
  have hempty : ∀ r : RuntimeResult, r.selection = ⟨none, none, none, none, none, none⟩ →
      r.groupKey = none → r.Linked env.db := by
    intro r hr hkey
    refine ⟨?_, by rw [hkey]; simp⟩
    rw [hr]
    constructor <;> simp
  unfold runEventOrchestration at h
  split at h
  · cases h
    exact hempty _ rfl rfl
  · dsimp only at h
    -- the entities of the event are loaded, or the run ends without them
    split at h
    · split_ifs at h <;> cases h <;> exact hempty _ rfl rfl
    · rename_i route team service hinitial
      have hlinked := initialEntities_linked hinitial
      split_ifs at h
      · cases h
        exact ⟨hlinked, by simp⟩
      · obtain ⟨s, hrun, h⟩ := bind_eq_ok.mp h
        cases h
        obtain ⟨s', hglobal, hrun⟩ := bind_eq_ok.mp hrun
        have hs' := evaluateOrchestrations_linked ⟨hlinked, by simp [startLoop]⟩ hglobal
        refine finish_linked ?_
        split_ifs at hrun
        · cases hrun
          exact hs'
        · exact evaluateServiceChain_linked hs' hrun

/-- The result of a service is linked when it starts from rows of the tables. -/
theorem runServiceOrchestration_linked {route : Option Route} {team : Option TeamRow}
    {service : Option Service} (hruntime : runtime.Linked env.db)
    (hroute : ∀ x ∈ route, x ∈ env.db.routes) (hteam : ∀ x ∈ team, x ∈ env.db.teams)
    (hservice : ∀ x ∈ service, x ∈ env.db.services)
    (hboth : route.isSome = true → team.isSome = true)
    (h : runServiceOrchestration env alertData runtime route team service = .ok (result, data)) :
    result.Linked env.db := by
  unfold runServiceOrchestration at h
  split at h
  · cases h
    exact hruntime
  · split_ifs at h
    · cases h
      exact hruntime
    · obtain ⟨s, hrun, h⟩ := bind_eq_ok.mp h
      cases h
      refine finish_linked (evaluateServiceChain_linked ⟨?_, hruntime.groupKey⟩ hrun)
      exact ⟨hroute, hteam, hservice, hruntime.selection.escalation, hruntime.selection.priority,
        hruntime.selection.notification, hboth⟩

end Runs

end IncidentRelay.Orchestration
