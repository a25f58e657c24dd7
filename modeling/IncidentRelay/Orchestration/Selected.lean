import IncidentRelay.Orchestration.Linked
import IncidentRelay.Orchestration.Provenance

/-!
# What the orchestrations select

An id that an action has set stays set, in the context of every later orchestration,
so each of them loads again what was selected before it. What is in force behind an
applied orchestration is therefore what it has loaded itself, or what the run started
with (`Chosen`).
-/

namespace IncidentRelay.Orchestration

/-! ## Ids that stay set -/

def Routing.get (r : Routing) : RoutingTarget → Option Id
  | .route => r.routeId
  | .team => r.teamId
  | .service => r.serviceId

/-- What is set in the first is set in the second. -/
def Routing.Within (r q : Routing) : Prop :=
  ∀ target, (r.get target).isSome = true → (q.get target).isSome = true

theorem Routing.Within.refl (r : Routing) : r.Within r := fun _ h => h

theorem Routing.Within.trans {r q p : Routing} (h : r.Within q) (h' : q.Within p) : r.Within p :=
  fun target hset => h' target (h target hset)

def Policies.get (p : Policies) : PolicyKind → Option Id
  | .escalation => p.escalationPolicyId
  | .notification => p.notificationPolicyId
  | .priority => p.priorityPolicyId

/-- The same of a result. -/
structure ActionResult.Extends (r q : ActionResult) : Prop where
  routing : r.routing.Within q.routing
  policies : ∀ kind, (r.policies.get kind).isSome = true → (q.policies.get kind).isSome = true

/-- The ids of a result. -/
def ActionResult.ids (r : ActionResult) : Routing × Policies := (r.routing, r.policies)

namespace ActionResult.Extends

theorem refl (r : ActionResult) : r.Extends r := ⟨fun _ h => h, fun _ h => h⟩

theorem trans {r q p : ActionResult} (h : r.Extends q) (h' : q.Extends p) : r.Extends p :=
  ⟨h.routing.trans h'.routing,
    fun kind hset => h'.policies kind (h.policies kind hset)⟩

theorem of_ids {r q : ActionResult} (h : q.ids = r.ids) : r.Extends q := by
  have hrouting : q.routing = r.routing := congrArg Prod.fst h
  have hpolicies : q.policies = r.policies := congrArg Prod.snd h
  exact ⟨fun target hset => hrouting ▸ hset, fun kind hset => hpolicies ▸ hset⟩

end ActionResult.Extends

section Actions

variable {L : Language}

/-- No action takes a selection back, whether it succeeds or not. -/
theorem executeAction_extends (s : EventActionState) (path : String) (body : ActionBody) :
    s.result.Extends (executeAction L s path body).1.result := by
  -- an action that writes no id
  have hkept : ∀ {value : Except PyError String} {write : String → EventActionState}
      {outcome : Outcome}, (∀ v, (write v).result.ids = s.result.ids) →
      s.result.Extends (withValue s value write outcome).1.result := fun hwrite =>
    .of_ids (withValue_kept ActionResult.ids s _ _ _ hwrite)
  cases body with
  | setText field source => exact hkept fun _ => rfl
  | setEventAction source => exact hkept fun _ => rfl
  | setTraceLevel level => exact .of_ids rfl
  | setAlertEventHistory level => exact .of_ids rfl
  | setLabel name source =>
    rw [executeAction]
    split
    · exact .refl _
    · exact hkept fun _ => rfl
  | removeLabel name => exact .of_ids rfl
  | setCustomField name source =>
    refine .of_ids (withCustomDetails_kept ActionResult.ids s _ fun t details ht => ?_)
    refine Eq.trans ?_ (congrArg ActionResult.ids ht)
    exact withValue_kept ActionResult.ids t _ _ _ fun _ => rfl
  | removeCustomField name =>
    exact .of_ids (withCustomDetails_kept ActionResult.ids s _
      fun t _ ht => congrArg ActionResult.ids ht)
  | setRouting target id =>
    refine ⟨fun other hset => ?_, fun kind hset => ?_⟩
    · cases target <;> cases other <;> first | rfl | exact hset
    · cases target <;> exact hset
  | setPolicy kind id =>
    refine ⟨fun target hset => hset, fun other hset => ?_⟩
    cases kind <;> cases other <;> first | rfl | exact hset
  | setGrouping grouping =>
    exact .of_ids (executeGrouping_kept ActionResult.ids (fun _ _ => rfl) s path grouping)
  | addNote source => exact hkept fun _ => rfl
  | enqueueWebhook actionId => exact .of_ids rfl
  | suppress reason => exact .of_ids (withValue_kept ActionResult.ids s _ _ _ fun _ => rfl)
  | pause seconds retrigger reason =>
    exact .of_ids (withValue_kept ActionResult.ids s _ _ _ fun _ => rfl)
  | drop reason => exact .of_ids (withValue_kept ActionResult.ids s _ _ _ fun _ => rfl)

/-- **An action never takes an id back** that was routed to. -/
theorem entry_extends (s : EventActionState) (e : Entry L) :
    s.result.Extends (e.effect s).result := by
  cases e with
  | visit path rule matched => exact .refl _
  | finish path rule => exact .refl _
  | step path ran =>
    obtain ⟨index, action, success, outcome⟩ := ran
    cases action with
    | extract extractor =>
      show s.result.Extends (ActionStep.effect _ s).result
      unfold ActionStep.effect
      dsimp only
      split
      · exact .refl _
      · exact .refl _
    | run body onFailure => exact executeAction_extends s _ body

/-- By induction on the log. -/
theorem replay_extends (s : EventActionState) (log : List (Entry L)) :
    s.result.Extends (replay s log).result := by
  induction log generalizing s with
  | nil => exact .refl _
  | cons e log ih => exact (entry_extends s e).trans (ih _)

/-- The ids that a context carries. -/
def Context.routing (c : Context) : Routing := (c.result.map (·.routing)).getD {}

def Context.policies (c : Context) : Policies := (c.result.map (·.policies)).getD {}

/-- An orchestration starts with the result of its context. -/
theorem fromContext_result {defaultHistory : HistoryLevel} {c : Context} {s : EventActionState}
    (h : EventActionState.fromContext defaultHistory c = .ok s) :
    s.result = c.result.getD { alertEventHistory := defaultHistory } := by
  unfold EventActionState.fromContext at h
  iterate 10
    obtain ⟨_, -, h⟩ := bind_eq_ok.mp h
  cases h
  rfl

/-- What the context has set, the result of an evaluation has set. -/
theorem evaluated_extends {defaultHistory : HistoryLevel} {rules : List (Rule L)}
    {context : Context} {r : OrchestrationExecutionResult L}
    (h : executeRuleTreeTraced L defaultHistory rules context = .ok r) :
    (∀ target, (context.routing.get target).isSome = true →
        (r.state.result.routing.get target).isSome = true) ∧
      ∀ kind, (context.policies.get kind).isSome = true →
        (r.state.result.policies.get kind).isSome = true := by
  obtain ⟨s, hstart, hwalk, -⟩ := executeRuleTreeTraced_walk h
  have hextends := replay_extends s (logs r.rules)
  rw [hwalk.sees.2, fromContext_result hstart] at hextends
  unfold Context.routing Context.policies
  -- the rules start from the result of the context
  cases hresult : context.result with
  | none =>
    constructor
    · intro target hset
      cases target <;> cases hset
    · intro kind hset
      cases kind <;> cases hset
  | some result =>
    rw [hresult] at hextends
    exact ⟨hextends.routing, hextends.policies⟩

end Actions

/-! ## One selection -/

def Selection.policy (s : Selection) : PolicyKind → Option Policy
  | .escalation => s.escalation
  | .notification => s.notification
  | .priority => s.priority

section Resolve

variable {db : Entities} {groupId : Id} {source : Option String}

/-- An id that is given loads a route, or raises. -/
theorem loadRoute_isSome {id : Option Id} {route : Option Route} (hid : id.isSome = true)
    (h : db.loadRoute id groupId source = .ok route) : route.isSome = true := by
  obtain ⟨id, rfl⟩ := Option.isSome_iff_exists.mp hid
  unfold Entities.loadRoute at h
  dsimp only at h
  split at h
  · cases h
  · split_ifs at h
    cases h
    rfl

/-- A policy is loaded for the team that is asked for. -/
theorem loadPolicy_team {policies : List Policy} {id teamId : Option Id} {policy : Option Policy}
    (h : loadPolicy policies id groupId teamId = .ok policy) :
    ∀ p ∈ policy, ∀ t ∈ teamId, p.team.id = t := by
  unfold loadPolicy at h
  split at h
  · cases h
    simp
  · split at h
    · cases h
    · rename_i found hfound
      split_ifs at h with _ _ hteam
      cases h
      intro p hp t ht
      cases hp
      cases ht
      simpa using hteam

theorem loadPolicy_live {policies : List Policy} {id teamId : Option Id} {policy : Option Policy}
    (h : loadPolicy policies id groupId teamId = .ok policy) :
    ∀ p ∈ policy, p.enabled = true ∧ p.deleted = false := by
  unfold loadPolicy at h
  split at h
  · cases h
    simp
  · split at h
    · cases h
    · rename_i found hfound
      split_ifs at h with hgone
      cases h
      intro p hp
      cases hp
      simpa using hgone

/-- What the check of an orchestration has loaded, or has taken over. -/
structure Chosen (groupId : Id) (result : ActionResult) (fallback selected : Selection) :
    Prop where
  /-- a route is one of the team that is in force -/
  matched : ∀ r ∈ selected.route, ∀ t ∈ selected.team, r.team.id = t.id
  /-- so is a service -/
  serviceMatched : ∀ s ∈ selected.service, ∀ t ∈ selected.team, s.team.id = t.id
  /-- a service that was selected is one of the group and of the team in force -/
  service : result.routing.serviceId.isSome = true → ∃ s t, selected.service = some s ∧
    selected.team = some t ∧ s.group = some groupId ∧ s.team.id = t.id
  /-- without one, a team that was selected, or that has the selected route, is one of
  the group -/
  team : result.routing.serviceId = none →
    (result.routing.routeId.isSome = true ∨ result.routing.teamId.isSome = true) →
    ∃ t, selected.team = some t ∧ t.group = some groupId
  /-- a selected policy is one of the group, and of the team in force -/
  policies : ∀ kind, (result.policies.get kind).isSome = true → ∀ p ∈ selected.policy kind,
    p.team.group = some groupId ∧ ∀ t ∈ selected.team, p.team.id = t.id
  live : ∀ kind, (result.policies.get kind).isSome = true → ∀ p ∈ selected.policy kind,
    p.enabled = true ∧ p.deleted = false
  /-- other policies stay in force -/
  otherPolicies : ∀ kind, result.policies.get kind = none →
    selected.policy kind = fallback.policy kind
  /-- without a selected route, the route stays or falls away -/
  route : result.routing.routeId = none →
    selected.route = fallback.route ∨ selected.route = none
  /-- without any selection, the route and its team stay -/
  unselected : result.routing = {} → (∀ r ∈ fallback.route, fallback.team = some r.team) →
    selected.route = fallback.route ∧ selected.team = fallback.team
  /-- and the service, where there is no route to have one -/
  unserved : result.routing = {} → fallback.route = none → selected.service = fallback.service

/-- What `selectService` does to the team. -/
theorem selectService_team {routing : Routing} {route route' : Option Route}
    {team team' : Option TeamRow} {fallback service : Option Service}
    (h : selectService db routing groupId route team fallback = .ok (route', team', service)) :
    (route' = route ∨ route' = none) ∧
      (routing.serviceId = none → route' = route ∧ team' = team) ∧
      (routing.serviceId.isSome = true → ∃ s, service = some s ∧ s.group = some groupId ∧
        ((routing.teamId = none ∧ routing.routeId = none ∧ team' = some s.team) ∨
          ((routing.teamId.isSome = true ∨ routing.routeId.isSome = true) ∧ team' = team))) := by
  unfold selectService at h
  split at h
  · rename_i hid
    obtain ⟨loaded, hload, h⟩ := bind_eq_ok.mp h
    obtain ⟨s, rfl⟩ := Option.isSome_iff_exists.mp (loadService_isSome hid hload)
    have hgroup := (loadService_spec hload s rfl).2
    -- the service brings its team, and its route where none is set
    split at h
    · rename_i hfree
      rw [Bool.and_eq_true, Option.isNone_iff_eq_none, Option.isNone_iff_eq_none] at hfree
      cases h
      refine ⟨?_, ?_, fun _ => ⟨s, rfl, hgroup, .inl ⟨hfree.1, hfree.2, rfl⟩⟩⟩
      · cases route with
        | none => exact .inl rfl
        | some r =>
          dsimp only [Option.map_some, Option.filter]
          split
          · exact .inl rfl
          · exact .inr rfl
      · intro hnone
        rw [hnone] at hid
        cases hid
    -- a route or a team that is set stays
    · rename_i hset
      cases h
      refine ⟨.inl rfl, fun _ => ⟨rfl, rfl⟩, fun _ => ⟨s, rfl, hgroup, .inr ⟨?_, rfl⟩⟩⟩
      cases hteam : routing.teamId with
      | some t => exact .inl rfl
      | none =>
        rw [hteam] at hset
        cases hroute : routing.routeId with
        | some r => exact .inr rfl
        | none =>
          rw [hroute] at hset
          exact absurd rfl hset
  · rename_i hid
    have hnone : ¬routing.serviceId.isSome = true := hid
    -- no service is named
    cases fallback with
    | some s =>
      cases h
      exact ⟨.inl rfl, fun _ => ⟨rfl, rfl⟩, fun hset => absurd hset hnone⟩
    | none =>
      cases h
      exact ⟨.inl rfl, fun _ => ⟨rfl, rfl⟩, fun hset => absurd hset hnone⟩

/-- Without a selected service and without a route, the service stays. -/
theorem selectService_kept {routing : Routing} {route' : Option Route}
    {team team' : Option TeamRow} {fallback service : Option Service}
    (h : selectService db routing groupId none team fallback = .ok (route', team', service))
    (hfree : routing.serviceId = none) : service = fallback := by
  unfold selectService at h
  rw [hfree, if_neg (by simp)] at h
  cases fallback <;> cases h <;> rfl

/-- Where a policy comes from. -/
theorem selectPolicy_chosen {policies : List Policy} {id teamId : Option Id}
    {fallback policy : Option Policy}
    (h : selectPolicy policies id groupId teamId fallback = .ok policy) :
    (id.isSome = true → ∀ p ∈ policy, p.team.group = some groupId ∧ ∀ t ∈ teamId, p.team.id = t) ∧
      (id.isSome = true → ∀ p ∈ policy, p.enabled = true ∧ p.deleted = false) ∧
      (id = none → policy = fallback) := by
  unfold selectPolicy at h
  split at h
  · rename_i hid
    refine ⟨fun _ p hp => ⟨(loadPolicy_spec h p hp).2, loadPolicy_team h p hp⟩,
      fun _ => loadPolicy_live h, fun hnone => ?_⟩
    rw [hnone] at hid
    cases hid
  · rename_i hid
    cases h
    exact ⟨fun hset => absurd hset hid, fun hset => absurd hset hid, fun _ => rfl⟩

/-- Where a route comes from. -/
theorem selectRoute_chosen {routing : Routing} {fallback route : Option Route}
    (h : selectRoute db routing groupId source fallback = .ok route) :
    (routing.routeId.isSome = true → ∃ r, route = some r ∧ r.team.group = some groupId) ∧
      (routing.routeId = none → route = fallback ∨ route = none) ∧
      (routing = {} → route = fallback) := by
  unfold selectRoute at h
  split_ifs at h with hid hteam
  · obtain ⟨r, rfl⟩ := Option.isSome_iff_exists.mp (loadRoute_isSome hid h)
    refine ⟨fun _ => ⟨r, rfl, (loadRoute_spec h r rfl).2⟩, fun hnone => ?_, fun hnone => ?_⟩
    · rw [hnone] at hid
      cases hid
    · rw [hnone] at hid
      cases hid
  · cases h
    refine ⟨fun hset => absurd hset hid, fun _ => .inr rfl, fun hnone => ?_⟩
    rw [hnone] at hteam
    cases hteam
  · cases h
    exact ⟨fun hset => absurd hset hid, fun _ => .inl rfl, fun _ => rfl⟩

theorem selectTeam_chosen {routing : Routing} {route : Option Route}
    {fallback team : Option TeamRow} (h : selectTeam db routing groupId route fallback = .ok team) :
    (routing.teamId.isSome = true → ∃ t, team = some t ∧ t.group = some groupId) ∧
      (routing.teamId = none → team = (route.map (·.team)).or fallback) := by
  unfold selectTeam at h
  split_ifs at h with hid
  · obtain ⟨t, rfl⟩ := Option.isSome_iff_exists.mp (loadTeam_isSome hid h)
    refine ⟨fun _ => ⟨t, rfl, (loadTeam_spec h t rfl).2⟩, fun hnone => ?_⟩
    rw [hnone] at hid
    cases hid
  · cases route with
    | none =>
      cases h
      exact ⟨fun hset => absurd hset hid, fun _ => rfl⟩
    | some r =>
      cases h
      exact ⟨fun hset => absurd hset hid, fun _ => rfl⟩

/-- What passes the checks is chosen. -/
theorem resolveSelectedEntities_chosen {result : ActionResult} {fallback selected : Selection}
    (h : resolveSelectedEntities db result groupId source fallback = .ok selected) :
    Chosen groupId result fallback selected := by
  unfold resolveSelectedEntities at h
  obtain ⟨route, hroute, h⟩ := bind_eq_ok.mp h
  obtain ⟨team, hteam, h⟩ := bind_eq_ok.mp h
  obtain ⟨⟨route', team', service⟩, hservice, h⟩ := bind_eq_ok.mp h
  obtain ⟨hrouteSet, hrouteKept, hrouteFree⟩ := selectRoute_chosen hroute
  obtain ⟨hteamSet, hteamKept⟩ := selectTeam_chosen hteam
  obtain ⟨hfiltered, hserviceFree, hserviceSet⟩ := selectService_team hservice
  dsimp only at h
  split_ifs at h with hrouteTeam hserviceTeam
  obtain ⟨escalation, hescalation, h⟩ := bind_eq_ok.mp h
  obtain ⟨priority, hpriority, h⟩ := bind_eq_ok.mp h
  obtain ⟨notification, hnotification, h⟩ := bind_eq_ok.mp h
  cases h
  -- an explicit team or route leaves a team
  have hteamSome : (result.routing.teamId.isSome = true ∨ result.routing.routeId.isSome = true) →
      ∃ t, team = some t ∧ t.group = some groupId := by
    intro hset
    cases hid : result.routing.teamId with
    | some id => exact hteamSet (by rw [hid]; rfl)
    | none =>
      rw [hid] at hset
      obtain ⟨r, rfl, hgroup⟩ := hrouteSet (hset.resolve_left Bool.false_ne_true)
      exact ⟨r.team, hteamKept hid, hgroup⟩
  have hpolicy : ∀ {policy : Option Policy} {id : Option Id},
      (id.isSome = true → ∀ p ∈ policy, p.team.group = some groupId ∧
        ∀ t ∈ team'.map (·.id), p.team.id = t) →
      id.isSome = true → ∀ p ∈ policy, p.team.group = some groupId ∧
        ∀ t ∈ team', p.team.id = t.id := by
    intro policy id hchosen hid p hp
    exact ⟨(hchosen hid p hp).1, fun t ht =>
      (hchosen hid p hp).2 t.id (Option.mem_map_of_mem (·.id) ht)⟩
  constructor
  · -- the route and the team
    intro r hr t ht
    by_contra hne
    refine hrouteTeam ?_
    rw [show route' = some r from hr, show team' = some t from ht]
    exact decide_eq_true hne
  · intro s hs t ht
    by_contra hne
    refine hserviceTeam ?_
    rw [show service = some s from hs, show team' = some t from ht]
    exact decide_eq_true hne
  · intro hset
    obtain ⟨s, rfl, hgroup, ⟨-, -, rfl⟩ | ⟨hother, rfl⟩⟩ := hserviceSet hset
    · exact ⟨s, s.team, rfl, rfl, hgroup, rfl⟩
    · obtain ⟨t, rfl, -⟩ := hteamSome hother
      refine ⟨s, t, rfl, rfl, hgroup, ?_⟩
      by_contra hne
      exact hserviceTeam (decide_eq_true hne)
  · intro hfree hset
    obtain ⟨t, rfl, hgroup⟩ := hteamSome hset.symm
    exact ⟨t, (hserviceFree hfree).2, hgroup⟩
  · intro kind hset
    cases kind with
    | escalation => exact hpolicy (selectPolicy_chosen hescalation).1 hset
    | notification => exact hpolicy (selectPolicy_chosen hnotification).1 hset
    | priority => exact hpolicy (selectPolicy_chosen hpriority).1 hset
  · intro kind hset
    cases kind with
    | escalation => exact (selectPolicy_chosen hescalation).2.1 hset
    | notification => exact (selectPolicy_chosen hnotification).2.1 hset
    | priority => exact (selectPolicy_chosen hpriority).2.1 hset
  · intro kind hnone
    cases kind with
    | escalation => exact (selectPolicy_chosen hescalation).2.2 hnone
    | notification => exact (selectPolicy_chosen hnotification).2.2 hnone
    | priority => exact (selectPolicy_chosen hpriority).2.2 hnone
  · intro hnone
    rcases hfiltered with rfl | rfl
    · exact hrouteKept hnone
    · exact .inr rfl
  · intro hnone hstart
    obtain ⟨rfl, rfl⟩ := hserviceFree (congrArg Routing.serviceId hnone)
    obtain rfl := hrouteFree hnone
    refine ⟨rfl, (hteamKept (congrArg Routing.teamId hnone)).trans ?_⟩
    cases hfallback : fallback.route with
    | none => rfl
    | some r => exact (hstart r hfallback).symm
  · intro hnone hroutes
    obtain rfl := hrouteFree hnone
    rw [hroutes] at hservice
    exact selectService_kept hservice (congrArg Routing.serviceId hnone)

end Resolve

/-! ## Rounds -/

section Rounds

variable {L : Language} {env : Env L} {groupId : Id} {source : Option String}

/-- An orchestration was applied in the steps of a result. -/
def RuntimeResult.hasApplied (r : RuntimeResult) : Bool := r.steps.any (·.applied)

/-- What a state of the loop has kept of the start of its run. -/
structure KeptFrom (start s : Loop) : Prop where
  /-- a policy that is in force was selected -/
  carried : ∀ kind, (s.selection.policy kind).isSome = true →
    (s.context.policies.get kind).isSome = true
  flagged : s.context.routing.routeId.isSome = true →
    s.runtime.routeSelectedByOrchestration = true
  route : s.context.routing.routeId = none → s.route = start.route ∨ s.route = none
  unselected : s.context.routing = {} → s.route = start.route ∧ s.team = start.team
  unserved : s.context.routing = {} → start.route = none → s.service = start.service

/-- What is in force behind an applied orchestration. -/
structure Settled (groupId : Id) (start : Loop) (a : Applied L) : Prop where
  matched : ∀ r ∈ a.selected.route, ∀ t ∈ a.selected.team, r.team.id = t.id
  serviceMatched : ∀ s ∈ a.selected.service, ∀ t ∈ a.selected.team, s.team.id = t.id
  /-- a selected service is one of the group and of the team -/
  service : a.result.state.result.routing.serviceId.isSome = true → ∃ s t,
    a.selected.service = some s ∧ a.selected.team = some t ∧ s.group = some groupId ∧
      s.team.id = t.id
  /-- without one, the team is one of the group when that of the start is -/
  team : a.result.state.result.routing.serviceId = none →
    (∀ t ∈ start.team, t.group = some groupId) → ∀ t ∈ a.selected.team, t.group = some groupId
  /-- a team does not fall away -/
  teamStays : start.team.isSome = true → a.selected.team.isSome = true
  /-- while no team is known, the service is the one of the start -/
  serviceKept : a.selected.team = none → a.selected.service = start.service
  policies : ∀ kind, ∀ p ∈ a.selected.policy kind,
    p.team.group = some groupId ∧ ∀ t ∈ a.selected.team, p.team.id = t.id
  live : ∀ kind, ∀ p ∈ a.selected.policy kind, p.enabled = true ∧ p.deleted = false

/-- A round that applies nothing. -/
theorem Round.quiet {s t : Loop} (h : Round env groupId source s none t) :
    t.selection = s.selection ∧ t.context = s.context ∧
      t.runtime.routeSelectedByOrchestration = s.runtime.routeSelectedByOrchestration ∧
      t.runtime.hasApplied = s.runtime.hasApplied := by
  cases h with
  | @recorded step hstep =>
    refine ⟨rfl, rfl, rfl, ?_⟩
    show (s.runtime.steps ++ [step]).any (·.applied) = s.runtime.steps.any (·.applied)
    rw [List.any_append, List.any_cons, List.any_nil, hstep, Bool.or_false, Bool.or_false]
  | blocked reason => exact ⟨rfl, rfl, rfl, rfl⟩
  | settled => exact ⟨rfl, rfl, rfl, rfl⟩
  | entered service => exact ⟨rfl, rfl, rfl, rfl⟩
  | exhausted => exact ⟨rfl, rfl, rfl, rfl⟩

/-- A routing without any id is empty. -/
theorem Routing.eq_empty {r : Routing} (h : ∀ target, r.get target = none) : r = {} := by
  obtain ⟨routeId, teamId, serviceId⟩ := r
  have hroute : routeId = none := h .route
  have hteam : teamId = none := h .team
  have hservice : serviceId = none := h .service
  rw [hroute, hteam, hservice]

/-- Applying an orchestration takes over what was selected. -/
theorem commit_selection (o : Orchestration L) (step : RuntimeStep) (context : Context)
    (result : ActionResult) (selected : Selection) (s : Loop) :
    (commit o step context result selected s).selection = selected := by
  unfold Loop.selection commit
  dsimp only
  rw [(applyDisposition_kept o step result _).1, (applyDisposition_kept o step result _).2.1,
    (applyDisposition_kept o step result _).2.2.1]

/-- A disposition leaves the steps. -/
theorem applyDisposition_steps (o : Orchestration L) (step : RuntimeStep) (result : ActionResult)
    (r : RuntimeResult) :
    (applyDisposition o step result r).steps = r.steps ∧
      (applyDisposition o step result r).routeSelectedByOrchestration =
        r.routeSelectedByOrchestration := by
  unfold applyDisposition
  cases result.disposition <;> exact ⟨rfl, rfl⟩

/-- What one orchestration does to the selection. -/
theorem Commits.settled {start s t : Loop} {a : Applied L} (h : Commits env groupId source s a t)
    (hstart : ∀ r ∈ start.route, start.team = some r.team) (hs : KeptFrom start s) :
    KeptFrom start t ∧ Settled groupId start a ∧ t.selection = a.selected ∧
      t.runtime.hasApplied = true := by
  obtain ⟨rules, hrun⟩ := h.evaluated
  obtain ⟨hrouting, hpolicies⟩ := evaluated_extends hrun
  have hchosen := resolveSelectedEntities_chosen h.resolved
  obtain ⟨step, happlied, -, rfl⟩ := h.committed
  -- what the result has not set, the context had not set
  have hunset : ∀ target, a.result.state.result.routing.get target = none →
      s.context.routing.get target = none := by
    intro target hnone
    cases hget : s.context.routing.get target with
    | none => rfl
    | some id =>
      have hset := hrouting target (by rw [hget]; rfl)
      rw [hnone] at hset
      cases hset
  have hempty : a.result.state.result.routing = {} → s.context.routing = {} := by
    intro hnone
    refine Routing.eq_empty fun target => hunset target ?_
    rw [hnone]
    cases target <;> rfl
  have hselection := commit_selection a.orchestration step a.result.state.context
    a.result.state.result a.selected s
  have hcarried : ∀ kind, (a.selected.policy kind).isSome = true →
      (a.result.state.result.policies.get kind).isSome = true := by
    intro kind hset
    cases hget : a.result.state.result.policies.get kind with
    | some id => rfl
    | none =>
      rw [hchosen.otherPolicies kind hget] at hset
      have hbefore := hpolicies kind (hs.carried kind hset)
      rw [hget] at hbefore
      cases hbefore
  -- where nothing is selected, the entities are those of the start
  have hkept : a.result.state.result.routing = {} →
      a.selected.route = start.route ∧ a.selected.team = start.team := by
    intro hnone
    obtain ⟨hroute, hteam⟩ := hs.unselected (hempty hnone)
    obtain ⟨hroute', hteam'⟩ := hchosen.unselected hnone (by
      intro r hr
      show s.team = _
      rw [hteam]
      exact hstart r (hroute ▸ hr))
    exact ⟨hroute'.trans hroute, hteam'.trans hteam⟩
  have hselected : a.result.state.result.routing.serviceId = none →
      (∃ t, a.selected.team = some t ∧ t.group = some groupId) ∨
        a.selected.team = start.team := by
    intro hservice
    by_cases hset : a.result.state.result.routing.routeId.isSome = true ∨
        a.result.state.result.routing.teamId.isSome = true
    · exact .inl (hchosen.team hservice hset)
    · refine .inr (hkept (Routing.eq_empty fun target => ?_)).2
      cases target with
      | route => exact Option.not_isSome_iff_eq_none.mp fun h => hset (.inl h)
      | team => exact Option.not_isSome_iff_eq_none.mp fun h => hset (.inr h)
      | service => exact hservice
  have hservice : a.result.state.result.routing = {} → start.route = none →
      a.selected.service = start.service := by
    intro hnone hroutes
    have hroute := (hs.unselected (hempty hnone)).1
    exact (hchosen.unserved hnone (hroute.trans hroutes)).trans (hs.unserved (hempty hnone) hroutes)
  refine ⟨⟨?_, ?_, ?_, ?_, ?_⟩, ⟨hchosen.matched, hchosen.serviceMatched, hchosen.service, ?_, ?_,
    ?_, ?_, ?_⟩, hselection, ?_⟩
  · intro kind hset
    rw [hselection] at hset
    exact hcarried kind hset
  · intro hset
    show (applyDisposition _ _ _ _).routeSelectedByOrchestration = true
    rw [(applyDisposition_steps _ _ _ _).2]
    show (_ || a.result.state.result.routing.routeId.isSome) = true
    rw [show a.result.state.result.routing.routeId.isSome = true from hset, Bool.or_true]
  · intro hnone
    show a.selected.route = _ ∨ a.selected.route = _
    rcases hchosen.route hnone with hsame | hgone
    · rw [hsame]
      exact hs.route (hunset .route hnone)
    · exact .inr hgone
  · exact hkept
  · exact hservice
  · intro hnone hgroup t ht
    rcases hselected hnone with ⟨t', ht', hchosenGroup⟩ | hteam
    · obtain rfl : t = t' := Option.some.inj (ht.symm.trans ht')
      exact hchosenGroup
    · exact hgroup t (hteam ▸ ht)
  · intro hsome
    by_cases hservice : a.result.state.result.routing.serviceId = none
    · rcases hselected hservice with ⟨t, ht, -⟩ | hteam
      · rw [ht]
        rfl
      · rw [hteam]
        exact hsome
    · obtain ⟨_, t, -, ht, -⟩ := hchosen.service (Option.isSome_iff_ne_none.mpr hservice)
      rw [ht]
      rfl
  · intro hteam
    -- nothing was selected, or else there were a team
    have hfree : a.result.state.result.routing.serviceId = none := by
      refine Option.not_isSome_iff_eq_none.mp fun hset => ?_
      obtain ⟨_, t, -, ht, -⟩ := hchosen.service hset
      rw [hteam] at ht
      cases ht
    have hunset : ∀ target, a.result.state.result.routing.get target = none := by
      intro target
      refine Option.not_isSome_iff_eq_none.mp fun hset => ?_
      cases target with
      | route =>
        obtain ⟨t, ht, -⟩ := hchosen.team hfree (.inl hset)
        rw [hteam] at ht
        cases ht
      | team =>
        obtain ⟨t, ht, -⟩ := hchosen.team hfree (.inr hset)
        rw [hteam] at ht
        cases ht
      | service =>
        rw [show a.result.state.result.routing.get .service = none from hfree] at hset
        cases hset
    have hnone := Routing.eq_empty hunset
    refine hservice hnone (Option.eq_none_iff_forall_not_mem.mpr fun r hr => ?_)
    have hknown := (hkept hnone).2.trans (hstart r hr)
    rw [hteam] at hknown
    cases hknown
  · intro kind p hp
    exact hchosen.policies kind (hcarried kind (Option.isSome_of_mem hp)) p hp
  · intro kind p hp
    exact hchosen.live kind (hcarried kind (Option.isSome_of_mem hp)) p hp
  · show (applyDisposition _ _ _ _).steps.any _ = true
    rw [(applyDisposition_steps _ _ _ _).1, List.any_append, List.any_cons, happlied,
      Bool.true_or, Bool.or_true]

/-- By induction on the rounds. -/
theorem Rounds.settled {start s t : Loop} {as : List (Applied L)}
    (h : Rounds env groupId source s as t) (hstart : ∀ r ∈ start.route, start.team = some r.team)
    (hs : KeptFrom start s) :
    KeptFrom start t ∧ (∀ a ∈ as, Settled groupId start a) ∧
      t.selection = (as.getLast?.map (·.selected)).getD s.selection ∧
      (t.runtime.hasApplied = true ↔ as ≠ [] ∨ s.runtime.hasApplied = true) := by
  obtain ⟨ls, hrun, rfl⟩ := h
  induction hrun with
  | nil s => exact ⟨hs, by simp, rfl, by simp⟩
  -- by induction on the rounds
  | @cons s u t l ls hround _ ih =>
    cases l with
    -- a quiet round keeps what was selected
    | none =>
      obtain ⟨hselection, hcontext, hflag, hany⟩ := hround.quiet
      have hu : KeptFrom start u := by
        have hroute : u.route = s.route := congrArg Selection.route hselection
        have hteam : u.team = s.team := congrArg Selection.team hselection
        constructor
        · rw [hselection, hcontext]
          exact hs.carried
        · rw [hcontext, hflag]
          exact hs.flagged
        · rw [hcontext, hroute]
          exact hs.route
        · rw [hcontext, hroute, hteam]
          exact hs.unselected
        · rw [hcontext, show u.service = s.service from congrArg Selection.service hselection]
          exact hs.unserved
      obtain ⟨ht, hsettled, hlast, happlied⟩ := ih hu
      rw [hselection] at hlast
      rw [hany] at happlied
      exact ⟨ht, hsettled, hlast, happlied⟩
    -- an applied one selects
    | some a =>
      cases hround with
      | applied hcommits =>
        obtain ⟨hu, ha, hselection, hany⟩ := hcommits.settled hstart hs
        obtain ⟨ht, hsettled, hlast, happlied⟩ := ih hu
        rw [List.reduceOption_cons_of_some]
        refine ⟨ht, ?_, ?_, iff_of_true (happlied.mpr (.inr hany)) (.inl (List.cons_ne_nil _ _))⟩
        · intro b hb
          rcases List.mem_cons.mp hb with rfl | hb
          · exact ha
          · exact hsettled b hb
        · rw [hlast, hselection]
          cases ls.reduceOption with
          | nil => rfl
          | cons b bs =>
            rw [List.getLast?_cons_cons]
            simp only [List.getLast?_cons, Option.map_some, Option.getD_some]

/-- An id that is set before the rounds is set by each orchestration that they apply, and
what such an orchestration sets is set behind them. -/
theorem Rounds.within {s t : Loop} {as : List (Applied L)}
    (h : Rounds env groupId source s as t) :
    s.context.routing.Within t.context.routing ∧ ∀ a ∈ as,
      s.context.routing.Within a.result.state.result.routing ∧
        a.result.state.result.routing.Within t.context.routing := by
  obtain ⟨ls, hrun, rfl⟩ := h
  induction hrun with
  | nil s => exact ⟨.refl _, by simp⟩
  | @cons s u t l ls hround _ ih =>
    obtain ⟨hwithin, hall⟩ := ih
    cases l with
    | none =>
      obtain ⟨-, hcontext, -, -⟩ := hround.quiet
      rw [hcontext] at hwithin hall
      exact ⟨hwithin, hall⟩
    | some a =>
      cases hround with
      | applied hcommits =>
        obtain ⟨rules, hevaluated⟩ := hcommits.evaluated
        have hset : s.context.routing.Within a.result.state.result.routing :=
          (evaluated_extends hevaluated).1
        -- the context behind the round is the one of the result
        have hleft : u.context.routing = a.result.state.result.routing := by
          obtain ⟨step, -, -, rfl⟩ := hcommits.committed
          rfl
        rw [hleft] at hwithin hall
        refine ⟨hset.trans hwithin, ?_⟩
        intro b hb
        rw [List.reduceOption_cons_of_some] at hb
        rcases List.mem_cons.mp hb with rfl | hb
        · exact ⟨hset, hwithin⟩
        · exact ⟨hset.trans (hall b hb).1, (hall b hb).2⟩

/-- The tenant stays through all rounds. -/
theorem Rounds.sameGroup {s t : Loop} {as : List (Applied L)}
    (h : Rounds env groupId source s as t) : t.runtime.groupId = s.runtime.groupId := by
  obtain ⟨ls, hrun, -⟩ := h
  induction hrun with
  | nil s => rfl
  | cons hround _ ih =>
    refine ih.trans ?_
    cases hround with
    | applied hcommits =>
      obtain ⟨step, -, -, rfl⟩ := hcommits.committed
      unfold commit applyDisposition
      dsimp only
      split <;> rfl
    | recorded _ => rfl
    | blocked _ => rfl
    | settled => rfl
    | entered _ => rfl
    | exhausted => rfl

end Rounds

/-! ## Runs -/

section Runs

variable {L : Language} {env : Env L} {alertData data : Dict} {runtime result : RuntimeResult}

/-- What a result carries into the orchestrations of a service. -/
structure RuntimeResult.CarriesIds (r : RuntimeResult) : Prop where
  policies : ∀ kind, (r.selection.policy kind).isSome = true →
    (((r.context.map Context.policies).getD {}).get kind).isSome = true
  route : ((r.context.map Context.routing).getD {}).routeId.isSome = true →
    r.routeSelectedByOrchestration = true

/-- What a run from a start leaves. -/
structure RunFacts (groupId : Id) (start : Loop) (as : List (Applied L)) (r : RuntimeResult) :
    Prop where
  ofGroup : r.groupId = some groupId
  started : ∀ x ∈ start.route, start.team = some x.team
  settled : ∀ b ∈ as, Settled groupId start b
  selection : r.selection = (as.getLast?.map (·.selected)).getD start.selection
  routeKept : r.routeSelectedByOrchestration = false → r.route = start.route ∨ r.route = none
  hasApplied : r.hasApplied = true ↔ as ≠ [] ∨ start.runtime.hasApplied = true
  idsFound : ∀ b ∈ as, start.context.routing.Within b.result.state.result.routing
  idsLeft : ∀ b ∈ as,
    b.result.state.result.routing.Within ((r.context.map Context.routing).getD {})
  carries : r.CarriesIds

/-- What the end of a run copies. -/
theorem finish_fields (s : Loop) : s.finish.selection = s.selection ∧
    s.finish.context = some s.context ∧ s.finish.hasApplied = s.runtime.hasApplied ∧
    s.finish.routeSelectedByOrchestration = s.runtime.routeSelectedByOrchestration ∧
    s.finish.groupId = s.runtime.groupId := by
  unfold Loop.finish requireRoute
  split <;> exact ⟨rfl, rfl, rfl, rfl, rfl⟩

/-- **What is known of a run**, from its rounds. -/
theorem finish_facts {groupId : Id} {source : Option String} {start s : Loop}
    {as : List (Applied L)} (h : Rounds env groupId source start as s)
    (hgroup : start.runtime.groupId = some groupId)
    (hstart : ∀ r ∈ start.route, start.team = some r.team) (hkept : KeptFrom start start) :
    RunFacts groupId start as s.finish := by
  obtain ⟨hs, hsettled, hlast, happlied⟩ := h.settled hstart hkept
  obtain ⟨hselection, hcontext, hany, hflag, hgroupId⟩ := finish_fields s
  have hroute : s.finish.route = s.route := congrArg Selection.route hselection
  -- each fact is read off the loop that the rounds leave
  constructor
  · rw [hgroupId, h.sameGroup, hgroup]
  · exact hstart
  · exact hsettled
  · rw [hselection, hlast]
  · intro hunset
    rw [hflag] at hunset
    rw [hroute]
    refine hs.route (Option.not_isSome_iff_eq_none.mp fun hset => ?_)
    rw [hs.flagged hset] at hunset
    cases hunset
  · rw [hany]
    exact happlied
  · exact fun b hb => (h.within.2 b hb).1
  · intro b hb
    rw [hcontext]
    exact (h.within.2 b hb).2
  · constructor
    · rw [hselection, hcontext]
      exact hs.carried
    · rw [hcontext, hflag]
      exact hs.flagged

/-- A start without policies, and with a fresh context. -/
theorem startLoop_facts {groupId : Id} {route : Option Route} {team : Option TeamRow}
    {service : Option Service} :
    KeptFrom (startLoop env alertData groupId route team service)
      (startLoop env alertData groupId route team service) := by
  constructor
  · intro kind hset
    cases kind <;> cases hset
  · intro hset
    cases hset
  · exact fun _ => .inl rfl
  · exact fun _ => ⟨rfl, rfl⟩
  · exact fun _ _ => rfl

/-- The second run starts with what the first one left. -/
theorem serviceLoop_facts {route : Option Route} {team : Option TeamRow} {service : Option Service}
    (h : runtime.CarriesIds) :
    KeptFrom (serviceLoop env alertData runtime route team service)
      (serviceLoop env alertData runtime route team service) := by
  constructor
  -- a policy that is set was set by the run for the event
  · intro kind hset
    have hbefore := h.policies kind (by cases kind <;> exact hset)
    show ((refreshEntityContext _ _ _ _).policies.get kind).isSome = true
    cases hcontext : runtime.context with
    | none =>
      rw [hcontext] at hbefore
      cases kind <;> cases hbefore
    | some c =>
      rw [hcontext] at hbefore
      exact hbefore
  · intro hset
    refine h.route ?_
    cases hcontext : runtime.context with
    | none =>
      unfold serviceLoop at hset
      rw [hcontext] at hset
      cases hset
    | some c =>
      unfold serviceLoop at hset
      rw [hcontext] at hset
      exact hset
  · exact fun _ => .inl rfl
  · exact fun _ => ⟨rfl, rfl⟩
  · exact fun _ _ => rfl

end Runs

end IncidentRelay.Orchestration
