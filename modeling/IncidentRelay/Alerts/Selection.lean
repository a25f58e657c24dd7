import IncidentRelay.Alerts.Disposition
import IncidentRelay.Orchestration.Selected

/-!
# The entities of an event

The route, the service and the policies that a call of `upsert_alert` ends with are of
one tenant and one team (`Consistent`), up to what the checks of the orchestrations do
not see: a policy that is selected while no team is known, a service whose team has moved
to another group, and what legacy routing adds of its own.

## Results

 * `consistent_of_checks`: whatever the orchestrations are, the entities are consistent if
   the event and the rows leave nothing to see (`ChecksSuffice`).
 * `foreign_policy_taken`: of an event that names its team by the slug alone, a policy of
   another team of the tenant is taken.
-/

namespace IncidentRelay.Alerts

open Json Orchestration RouteSelection

/-! ## The keys that force a route -/

section Keys

/-- The keys by which an event names its route and its team. -/
def forcingKeys : List String := ["forced_route_id", "forced_team_id", "team_slug"]

/-- The entities of a result under the keys. -/
def forceEntities (r : RuntimeResult) (data : Dict) : Dict :=
  match r.route, r.team with
  | some route, _ =>
    (data.set "forced_route_id" (.int route.id)).set "forced_team_id" (.int route.team.id)
  | none, some team => (data.pop "forced_route_id").set "forced_team_id" (.int team.id)
  | none, none => data

theorem get_set_forcing {key other : String} (hkey : key ∈ forcingKeys)
    (hother : other ∉ forcingKeys) (data : Dict) (value : Json) :
    (data.set other value).get key = data.get key :=
  Dict.get_set_of_ne _ _ fun heq => hother (heq ▸ hkey)

/-- The same for the field of an id. -/
theorem get_setId_forcing {key other : String} (hkey : key ∈ forcingKeys)
    (hother : other ∉ forcingKeys) (data : Dict) (id : Option Id) :
    (setId data other id).get key = data.get key := by
  cases id with
  | none => rfl
  | some n => exact get_set_forcing hkey hother data _

theorem get_copyField_forcing {key : String} (hkey : key ∈ forcingKeys) (event data : Dict)
    (fields : List String) (hfields : ∀ field ∈ fields, field ∉ forcingKeys) :
    (fields.foldl (copyField event) data).get key = data.get key := by
  induction fields generalizing data with
  | nil => rfl
  | cons field fields ih =>
    rw [List.foldl_cons, ih _ fun f hf => hfields f (List.mem_cons_of_mem _ hf)]
    unfold copyField
    split
    · exact get_set_forcing hkey (hfields field List.mem_cons_self) data _
    · rfl

/-- What the runtime forces depends on the event through these fields only. -/
theorem get_forceEntities {key : String} (r : RuntimeResult) {data data' : Dict}
    (h : ∀ k ∈ forcingKeys, data.get k = data'.get k) (hkey : key ∈ forcingKeys) :
    (forceEntities r data).get key = (forceEntities r data').get key := by
  -- writing or popping another key does not touch the forcing keys, and of the key itself both say
  -- the same
  have hset : ∀ {d d' : Dict} (other : String) (value : Json), d.get key = d'.get key →
      (d.set other value).get key = (d'.set other value).get key := by
    intro d d' other value hsame
    by_cases heq : key = other
    · subst heq
      rw [Dict.get_set_self, Dict.get_set_self]
    · rw [Dict.get_set_of_ne _ _ heq, Dict.get_set_of_ne _ _ heq, hsame]
  have hpop : ∀ {d d' : Dict} (other : String), d.get key = d'.get key →
      (d.pop other).get key = (d'.pop other).get key := by
    intro d d' other hsame
    by_cases heq : key = other
    · subst heq
      rw [Dict.get_pop_self, Dict.get_pop_self]
    · rw [Dict.get_pop_of_ne _ heq, Dict.get_pop_of_ne _ heq, hsame]
  unfold forceEntities
  split
  · exact hset _ _ (hset _ _ (h key hkey))
  · exact hset _ _ (hpop _ (h key hkey))
  · exact h key hkey

/-- The status that the action of the event asks for. -/
def withStatus (event data : Dict) : Dict :=
  match Dict.getD event "event_action" with
  | .str "resolve" => data.set "status" (.str "resolved")
  | .str "trigger" => data.set "status" (.str "firing")
  | _ => data

def withGroupKey (groupKey : Option Json) (data : Dict) : Dict :=
  match groupKey with
  | some key => if key.truthy then data.set "orchestration_group_key" key else data
  | none => data

def withPriority (event data : Dict) : Dict :=
  match given (Dict.getD event "priority") with
  | some priority =>
    (data.set "priority" priority).set "priority_set_by_orchestration" (.bool true)
  | none => data

/-- The status is none of them. -/
theorem get_withStatus {key : String} (hkey : key ∈ forcingKeys) (event data : Dict) :
    (withStatus event data).get key = data.get key := by
  unfold withStatus
  split
  · exact get_set_forcing hkey (by decide) data _
  · exact get_set_forcing hkey (by decide) data _
  · rfl

/-- Neither is the group key. -/
theorem get_withGroupKey {key : String} (hkey : key ∈ forcingKeys) (groupKey : Option Json)
    (data : Dict) : (withGroupKey groupKey data).get key = data.get key := by
  unfold withGroupKey
  split
  · split
    · exact get_set_forcing hkey (by decide) data _
    · rfl
  · rfl

theorem get_withPriority {key : String} (hkey : key ∈ forcingKeys) (event data : Dict) :
    (withPriority event data).get key = data.get key := by
  unfold withPriority
  split
  · rw [get_set_forcing hkey (by decide), get_set_forcing hkey (by decide)]
  · rfl

/-- A run that has applied an orchestration writes its entities under the keys, and
nothing else. -/
theorem get_applyRuntimeToAlertData {key : String} (hkey : key ∈ forcingKeys)
    {r : RuntimeResult} (hopen : r.blocked = false) (happlied : r.hasApplied = true)
    (alertData : Dict) :
    (applyRuntimeToAlertData r alertData).get key = (forceEntities r alertData).get key := by
  unfold applyRuntimeToAlertData
  rw [if_neg (by
    rw [hopen, show r.steps.any (·.applied) = true from happlied]
    exact Bool.false_ne_true)]
  dsimp only
  generalize (r.context.map (·.event)).getD [] = event
  -- the fields of the event and its status
  have hfields : ∀ k ∈ forcingKeys,
      (withStatus event (mutableEventFields.foldl (copyField event) alertData)).get k =
        alertData.get k := by
    intro k hk
    rw [get_withStatus hk]
    exact get_copyField_forcing hk event alertData _ (by decide)
  -- what is written behind the entities
  refine (get_withPriority hkey event _).trans ?_
  refine (get_setId_forcing hkey (by decide) _ _).trans ?_
  refine (get_setId_forcing hkey (by decide) _ _).trans ?_
  refine (get_setId_forcing hkey (by decide) _ _).trans ?_
  refine (get_withGroupKey hkey r.groupKey _).trans ?_
  refine (get_setId_forcing hkey (by decide) _ _).trans ?_
  exact get_forceEntities r hfields hkey

/-- A run that has applied nothing leaves the event. -/
theorem applyRuntimeToAlertData_idle {r : RuntimeResult} (hidle : r.hasApplied = false)
    (alertData : Dict) : applyRuntimeToAlertData r alertData = alertData := by
  unfold applyRuntimeToAlertData
  rw [if_pos]
  rw [show r.steps.any (·.applied) = false from hidle, Bool.not_false, Bool.or_true]

end Keys

/-! ## The route of the keys -/

section Routes

variable {db : Entities} {accepts : RouteSelection.Matching} {data alertData : Dict} {r : Route}

theorem truthy_id (n : Id) : (Json.int ((n : Nat) : Int)).truthy = true :=
  bne_iff_ne.mpr fun h => absurd (Int.natCast_eq_zero.mp h) n.ne_zero

/-- The route that is forced is the one that is found. -/
theorem findRoute_forced {x : Route} (hx : x ∈ db.routes)
    (hkey : data.get "forced_route_id" = some (.int x.id))
    (h : findRouteForAlert db accepts data = .ok (some r)) : r = x := by
  have hvalue : data.getD "forced_route_id" = .int x.id := by
    unfold Dict.getD
    rw [hkey]
    rfl
  unfold findRouteForAlert at h
  rw [hvalue, if_pos (truthy_id _), idOf_int] at h
  dsimp only [Option.bind_some] at h
  rw [byId_self db.routes_key hx] at h
  dsimp only at h
  split_ifs at h <;> cases h
  rfl

/-- The first route that is listed for a team is one of the team. -/
theorem first_team {teamId : Id} {source : Option String} {p : Route → Bool}
    (h : (listRoutes db (some teamId) source).find? p = some r) : r.team.id = teamId := by
  have hmem := List.mem_of_find?_eq_some h
  unfold listRoutes at hmem
  rw [List.mem_insertionSort] at hmem
  obtain ⟨-, hconditions⟩ := List.mem_filter.mp hmem
  obtain ⟨-, -, -, -, hteam, -, -⟩ := of_decide_eq_true hconditions
  exact of_decide_eq_true hteam

/-- A forced team has the route that is found. -/
theorem findRoute_team {teamId : Id} (hroute : data.get "forced_route_id" = none)
    (hkey : data.get "forced_team_id" = some (.int teamId))
    (h : findRouteForAlert db accepts data = .ok (some r)) : r.team.id = teamId := by
  have hfree : data.getD "forced_route_id" = .null := by
    unfold Dict.getD
    rw [hroute]
    rfl
  have hvalue : data.getD "forced_team_id" = .int teamId := by
    unfold Dict.getD
    rw [hkey]
    rfl
  unfold findRouteForAlert at h
  rw [hfree, if_neg (by decide)] at h
  dsimp only at h
  rw [hvalue, if_pos (truthy_id _), idOf_int] at h
  exact first_team (Except.ok.inj h)

/-- The team that an event names: by a route, by its id or by its slug. -/
def eventTeam (db : Entities) (alertData : Dict) : Option TeamRow :=
  if (alertData.getD "forced_route_id").truthy then
    ((idOf (alertData.getD "forced_route_id")).bind (byId (·.id) db.routes)).map (·.team)
  else if (alertData.getD "forced_team_id").truthy then
    (idOf (alertData.getD "forced_team_id")).bind (byId (fun t : TeamRow => t.id) db.teams)
  else ((textIn alertData "team_slug").filter (· ≠ "")).bind fun slug =>
    db.teams.find? fun t => t.slug = slug

/-- The keys of an event find a route of the team that it names. -/
theorem findRoute_eventTeam {team : TeamRow} (hslugs : (db.teams.map (·.slug)).Nodup)
    (hnamed : eventTeam db alertData = some team)
    (hkeys : ∀ key ∈ forcingKeys, data.get key = alertData.get key)
    (h : findRouteForAlert db accepts data = .ok (some r)) (hr : r ∈ db.routes) :
    r.team = team := by
  have hvalue : ∀ key ∈ forcingKeys, data.getD key = alertData.getD key := by
    intro key hkey
    unfold Dict.getD
    rw [hkeys key hkey]
  unfold eventTeam at hnamed
  unfold findRouteForAlert at h
  rw [hvalue "forced_route_id" (by decide)] at h
  dsimp only at h
  split at h
  · -- the route is forced
    rename_i hforced
    rw [if_pos hforced] at hnamed
    split at h
    · cases h
    · rename_i route hroute
      rw [hroute] at hnamed
      split_ifs at h <;> cases h
      exact Option.some.inj hnamed
  · rename_i hforced
    rw [if_neg hforced, hvalue "forced_team_id" (by decide)] at *
    split at h
    · -- the team is forced
      rename_i hteam
      rw [if_pos hteam] at hnamed
      obtain ⟨teamId, hid, hfound⟩ := Option.bind_eq_some_iff.mp (Except.ok.inj h)
      rw [hid] at hnamed
      have hown := byId_self db.teams_key (db.route_team r hr)
      rw [first_team hfound] at hown
      exact Option.some.inj (hown.symm.trans hnamed)
    · -- the team is named by its slug
      rename_i hteam
      rw [if_neg hteam] at hnamed
      have hslug : textIn data "team_slug" = textIn alertData "team_slug" := by
        unfold textIn
        rw [hvalue "team_slug" (by decide)]
      rw [hslug] at h
      obtain ⟨slug, hname, hfirst⟩ := Option.bind_eq_some_iff.mp hnamed
      obtain ⟨hname, hne⟩ := Option.filter_eq_some_iff.mp hname
      have hslugne : slug ≠ "" := of_decide_eq_true hne
      rw [hname] at h
      dsimp only at h
      rw [if_neg hslugne] at h
      obtain ⟨active, hactive, hfound⟩ := Option.bind_eq_some_iff.mp (Except.ok.inj h)
      unfold getActiveTeamBySlug at hactive
      obtain ⟨hactive, -⟩ := Option.filter_eq_some_iff.mp hactive
      have hactiveSlug : active.slug = slug := by
        have hfound := List.find?_some hactive
        exact (of_decide_eq_true hfound).1
      have hfirstSlug : team.slug = slug := by
        have hfound := List.find?_some hfirst
        exact of_decide_eq_true hfound
      have hsame : team = active :=
        List.inj_on_of_nodup_map hslugs (List.mem_of_find?_eq_some hfirst)
          (List.mem_of_find?_eq_some hactive) (hfirstSlug.trans hactiveSlug.symm)
      rw [hsame]
      exact List.inj_on_of_nodup_map db.teams_key (db.route_team r hr)
        (List.mem_of_find?_eq_some hactive) (first_team hfound)

/-- The event names its route or its team by the id. -/
def ForcesTeam (alertData : Dict) : Prop :=
  (alertData.getD "forced_route_id").truthy = true ∨ (alertData.getD "forced_team_id").truthy = true

/-- What is read as an id counts as given. -/
theorem truthy_of_idOf {value : Json} {id : Id} (h : idOf value = some id) :
    value.truthy = true := by
  unfold idOf at h
  split at h
  · split_ifs at h with hpos
    exact bne_iff_ne.mpr fun hzero => by
      rw [hzero] at hpos
      exact absurd hpos (by decide)
  · cases h

/-- A loaded route is the row of the id. -/
theorem loadRoute_row {groupId : Id} {id : Option Id} {source : Option String}
    (h : db.loadRoute id groupId source = .ok (some r)) :
    ∃ n, id = some n ∧ byId (fun x : Route => x.id) db.routes n = some r := by
  unfold Entities.loadRoute at h
  split at h
  · cases h
  · rename_i n
    split at h
    · cases h
    · rename_i found hfound
      split_ifs at h
      cases h
      exact ⟨n, rfl, hfound⟩

/-- A service that is loaded has the id that was asked for. -/
theorem loadService_row {groupId : Id} {id : Option Id} {s : Service}
    (h : db.loadService id groupId = .ok (some s)) : id = some s.id := by
  unfold Entities.loadService at h
  split at h
  · cases h
  · split at h
    · cases h
    · rename_i found hfound
      split_ifs at h
      cases h
      rw [(byId_mem hfound).2]

/-- What a run starts with is what the event names: a route of its team, and the service of the
event or of that route. -/
theorem initialEntities_named {groupId : Id} {named : TeamRow} {route : Option Route}
    {team : Option TeamRow} {service : Option Service}
    (hnamed : eventTeam db alertData = some named)
    (h : initialEntities db alertData groupId = .ok (route, team, service)) :
    (∀ x ∈ route, x.team = named) ∧ (ForcesTeam alertData → team.isSome = true) ∧
      ∀ s ∈ service, (idOf (alertData.getD "service_id") = some s.id ∧ s ∈ db.services ∧
        s.group = some groupId) ∨
        ∃ x ∈ db.routes, idOf (alertData.getD "forced_route_id") = some x.id ∧ x.service = some s := by
  obtain ⟨hroute, hteam, hservice⟩ := initialEntities_loads h
  have hrow : ∀ x ∈ route, ∃ n, idOf (alertData.getD "forced_route_id") = some n ∧
      byId (fun x : Route => x.id) db.routes n = some x := by
    rintro x ⟨⟩
    exact loadRoute_row hroute
  -- each entity is the one that the event names, or none
  refine ⟨fun x hx => ?_, fun hforces => ?_, fun s hs => ?_⟩
  · obtain ⟨n, hid, hfound⟩ := hrow x hx
    unfold eventTeam at hnamed
    rw [if_pos (truthy_of_idOf hid), hid, Option.bind_some, hfound] at hnamed
    exact Option.some.inj hnamed
  · rcases hteam with ⟨x, rfl, rfl⟩ | ⟨rfl, hteam⟩
    · rfl
    · refine loadTeam_isSome ?_ hteam
      unfold eventTeam at hnamed
      split_ifs at hnamed with hforced hforcedTeam
      · -- a forced route is loaded, or the run fails
        obtain ⟨x, hx, -⟩ := Option.map_eq_some_iff.mp hnamed
        obtain ⟨id, hid, -⟩ := Option.bind_eq_some_iff.mp hx
        have hloaded := loadRoute_isSome (by rw [hid]; rfl) hroute
        cases hloaded
      · obtain ⟨id, hid, -⟩ := Option.bind_eq_some_iff.mp hnamed
        rw [hid]
        rfl
      -- a team that is forced is loaded, or the run fails before it gets here
      · rcases hforces with hset | hset
        · exact absurd hset hforced
        · exact absurd hset hforcedTeam
  · rcases hservice with ⟨id, hid, hservice⟩ | rfl
    · obtain ⟨hmem, hgroup⟩ := loadService_spec hservice s hs
      obtain rfl : service = some s := hs
      exact .inl ⟨hid.trans (loadService_row hservice), hmem, hgroup⟩
    · obtain ⟨x, hx, hxs⟩ := Option.mem_bind_iff.mp hs
      obtain ⟨n, hid, hfound⟩ := hrow x hx
      obtain ⟨hmem, hkey⟩ := byId_mem hfound
      exact .inr ⟨x, hmem, by rw [hid, ← hkey], hxs⟩

end Routes

/-! ## The two phases -/

section Phases

variable {L : Language} {orc : Env L} {env : Services} {alertData : Dict} {groupId : Id}

/-- The team that a run starts with is that of its route, and one of the tenant. -/
theorem initialEntities_team {db : Entities} {route : Option Route} {team : Option TeamRow}
    {service : Option Service}
    (h : initialEntities db alertData groupId = .ok (route, team, service)) :
    (∀ r ∈ route, team = some r.team) ∧ ∀ t ∈ team, t.group = some groupId := by
  obtain ⟨hroute, hteam, -⟩ := initialEntities_loads h
  rcases hteam with ⟨r, rfl, rfl⟩ | ⟨rfl, hteam⟩
  · refine ⟨by simp, ?_⟩
    rintro x ⟨⟩
    exact (loadRoute_spec hroute r rfl).2
  · exact ⟨by simp, fun x hx => (loadTeam_spec hteam x hx).2⟩

/-- A forced team is in force from the start. -/
theorem initial_forced {db : Entities} {named : TeamRow} {route : Option Route}
    {team : Option TeamRow} {service : Option Service} (hnamed : eventTeam db alertData = some named)
    (hforces : ForcesTeam alertData)
    (h : initialEntities db alertData groupId = .ok (route, team, service)) : team.isSome = true :=
  (initialEntities_named hnamed h).2.1 hforces

/-- The first phase as a run from the entities of the event. -/
theorem eventPhase_facts {e : EventRun L} (h : eventPhase orc alertData = .ok e)
    (hgroup : groupIdFromAlert orc.db alertData = some groupId) :
    ∃ start, RunFacts groupId start e.applied e.runtime ∧
      (initialEntities orc.db alertData groupId = .ok (start.route, start.team, start.service) ∨
        e.applied = [] ∧ start.route = none ∧ start.team = none ∧ start.service = none) ∧
      (∀ kind, start.selection.policy kind = none) ∧ start.runtime.hasApplied = false ∧
      e.alertData = applyRuntimeToAlertData e.runtime alertData := by
  obtain ⟨hrun, happlied⟩ := eventPhase_eq_ok h
  rw [happlied]
  rcases runEventOrchestration_cases hrun with ⟨hnone, hdata, huntouched, hown, hentities⟩ |
    ⟨groupId', route, team, service, s, hgroup', hinitial, hrounds, hfinish, hdata⟩
  · -- nothing is evaluated: the entities of the event are those of the result
    have hidle : e.runtime.hasApplied = false := by
      rw [huntouched]
      rfl
    have hpolicies : ∀ kind, e.runtime.selection.policy kind = none := by
      intro kind
      rw [huntouched]
      cases kind <;> rfl
    have hcontext : e.runtime.context = none := by
      rw [huntouched]
      rfl
    have hstart : initialEntities orc.db alertData groupId =
          .ok (e.runtime.route, e.runtime.team, e.runtime.service) ∨
        e.applied = [] ∧ e.runtime.route = none ∧ e.runtime.team = none ∧
          e.runtime.service = none := by
      rcases hentities with hentities | ⟨groupId', hgroup', hinitial⟩
      · exact .inr ⟨happlied.trans hnone, hentities⟩
      · obtain rfl : groupId = groupId' := Option.some.inj (hgroup.symm.trans hgroup')
        exact .inl hinitial
    have hteam : ∀ r ∈ e.runtime.route, e.runtime.team = some r.team := by
      rcases hstart with hinitial | ⟨-, hroute, -, -⟩
      · exact (initialEntities_team hinitial).1
      · rw [hroute]
        simp
    refine ⟨⟨buildRuntimeContext orc.now alertData none none none, e.runtime.route,
      e.runtime.team, e.runtime.service, e.runtime⟩, ?_, happlied ▸ hstart, hpolicies, hidle, ?_⟩
    · rw [hnone]
      refine ⟨hown.trans hgroup, hteam, by simp, rfl, fun _ => .inl rfl, ?_, by simp, by simp,
        ⟨fun kind hset => ?_, fun hset => ?_⟩⟩
      · simp
      · rw [hpolicies kind] at hset
        cases hset
      · rw [hcontext] at hset
        cases hset
    · rw [applyRuntimeToAlertData_idle hidle]
      exact hdata
  -- orchestrations were run: the facts are those of the loop, from its start
  · obtain rfl : groupId = groupId' := Option.some.inj (hgroup.symm.trans hgroup')
    obtain ⟨hstart, -⟩ := initialEntities_team hinitial
    refine ⟨startLoop orc alertData groupId route team service, ?_, .inl hinitial, ?_, rfl, hdata⟩
    · rw [hfinish]
      exact finish_facts hrounds rfl hstart startLoop_facts
    · intro kind
      cases kind <;> rfl

/-- The second phase as a run from the route that was found. -/
theorem servicePhase_facts {first e : EventRun L} {route : Route} {service : Service}
    (h : servicePhase orc first route service = .ok e)
    (hgroup : first.runtime.groupId = some groupId) (hopen : first.runtime.blocked = false)
    (hcarries : first.runtime.CarriesIds) :
    ∃ later, e.applied = first.applied ++ later ∧
      RunFacts groupId (serviceLoop orc first.alertData first.runtime (some route)
        (some route.team) (some service)) later e.runtime ∧
      e.alertData = applyRuntimeToAlertData e.runtime first.alertData := by
  obtain ⟨hrun, happlied⟩ := servicePhase_eq_ok h
  refine ⟨_, happlied, ?_⟩
  -- the service run is skipped without a service, or when the first run blocked the event
  rcases runServiceOrchestration_cases hrun with ⟨-, -, -, hnone | hblocked | hservice⟩ |
    ⟨groupId', s, hgroup', -, hrounds, hfinish, hdata⟩
  · rw [hgroup] at hnone
    cases hnone
  · rw [hopen] at hblocked
    cases hblocked
  · cases hservice
  · obtain rfl : groupId = groupId' := Option.some.inj (hgroup.symm.trans hgroup')
    refine ⟨?_, hdata⟩
    rw [hfinish]
    exact finish_facts hrounds hgroup (by rintro r ⟨⟩; rfl) (serviceLoop_facts hcarries)

/-- The routing of an event that a run has applied its entities to. -/
theorem findRoute_applied {db : Entities} {accepts : RouteSelection.Matching} {r : RuntimeResult}
    {team : TeamRow} {route : Route} (hlinked : r.Linked db) (hopen : r.blocked = false)
    (happlied : r.hasApplied = true) (hteam : r.team = some team)
    (hmatched : ∀ x ∈ r.route, x.team.id = team.id)
    (h : findRouteForAlert db accepts (applyRuntimeToAlertData r alertData) = .ok (some route)) :
    route.team.id = team.id := by
  have hkeys := fun key (hkey : key ∈ forcingKeys) =>
    get_applyRuntimeToAlertData hkey hopen happlied alertData
  -- a route in the result forces itself
  cases hroute : r.route with
  | some x =>
    have hforced : (applyRuntimeToAlertData r alertData).get "forced_route_id" =
        some (.int x.id) := by
      rw [hkeys _ (by decide)]
      unfold forceEntities
      rw [hroute, Dict.get_set_of_ne _ _ (by decide), Dict.get_set_self]
    obtain rfl := findRoute_forced (hlinked.selection.route x hroute) hforced h
    exact hmatched _ hroute
  -- without one the team of the result does
  | none =>
    have hforced : (applyRuntimeToAlertData r alertData).get "forced_route_id" = none := by
      rw [hkeys _ (by decide)]
      unfold forceEntities
      rw [hroute, hteam]
      dsimp only
      rw [Dict.get_set_of_ne _ _ (by decide), Dict.get_pop_self]
    refine findRoute_team hforced ?_ h
    rw [hkeys _ (by decide)]
    unfold forceEntities
    rw [hroute, hteam]
    dsimp only
    rw [Dict.get_set_self]

/-- What the routing behind the orchestrations finds. -/
structure EventRun.LeadsTo (e : EventRun L) (db : Entities) (groupId : Id) (alertData : Dict)
    (route : Route) : Prop where
  /-- the route is one of the team that is in force -/
  team : ∀ b ∈ e.applied.getLast?, ∀ t ∈ b.selected.team, route.team.id = t.id
  /-- while no team is in force, it is one of the team that the event names -/
  own : ∀ named, eventTeam db alertData = some named →
    (∀ b ∈ e.applied.getLast?, b.selected.team = none) → route.team = named
  /-- an event for which no service was selected stays in the group of that team -/
  group : ∀ named, eventTeam db alertData = some named → named.group = some groupId →
    (∀ b ∈ e.applied.getLast?, b.result.state.result.routing.serviceId = none) →
    route.team.group = some groupId

theorem team_eq_of_id {db : Entities} {t t' : TeamRow} (ht : t ∈ db.teams) (ht' : t' ∈ db.teams)
    (hid : t.id = t'.id) : t = t' :=
  List.inj_on_of_nodup_map db.teams_key ht ht' hid

/-- Without a route before, the route is what was selected or what the matching finds. -/
theorem routeForRuntime_open {db : Entities} {accepts : RouteSelection.Matching}
    {r : RuntimeResult} {route : Route}
    (h : routeForRuntime db accepts alertData (some r) none = .ok (some route)) :
    (r.routeSelectedByOrchestration = true ∧ r.route = some route) ∨
      findRouteForAlert db accepts alertData = .ok (some route) := by
  unfold routeForRuntime at h
  dsimp only at h
  split_ifs at h with hflag hroute
  · exact .inl ⟨hflag, Except.ok.inj h⟩
  · exact .inr h
  · exact .inr h

/-- A run that keeps the route it started with leads to it. -/
theorem routeForRuntime_kept {db : Entities} {accepts : RouteSelection.Matching}
    {r : RuntimeResult} {found route : Route} (hkept : r.route = some found)
    (h : routeForRuntime db accepts alertData (some r) (some found) = .ok (some route)) :
    route = found := by
  unfold routeForRuntime at h
  dsimp only at h
  rw [hkept] at h
  split_ifs at h with hflag hnone
  · exact (Option.some.inj (Except.ok.inj h)).symm
  · cases hnone
  · exact (Option.some.inj (Except.ok.inj h)).symm

/-- Behind the first phase. -/
theorem eventPhase_leadsTo {e : EventRun L} {route : Route}
    (hslugs : (orc.db.teams.map (·.slug)).Nodup) (h : eventPhase orc alertData = .ok e)
    (hgroup : groupIdFromAlert orc.db alertData = some groupId) (hopen : e.runtime.blocked = false)
    (hroute : routeForRuntime orc.db env.accepts e.alertData (some e.runtime) none =
      .ok (some route)) :
    e.LeadsTo orc.db groupId alertData route := by
  have hlinked : e.runtime.Linked orc.db := runEventOrchestration_linked (eventPhase_eq_ok h).1
  have hmem : route ∈ orc.db.routes := routeForRuntime_mem hlinked (by simp) hroute
  obtain ⟨start, hfacts, hstart, -, hfresh, hdata⟩ := eventPhase_facts h hgroup
  rw [hdata] at hroute
  have hany := hfacts.hasApplied
  rw [hfresh] at hany
  cases hlast : e.applied.getLast? with
  | none =>
    -- nothing was applied: the event is as it came
    have hnil : e.applied = [] := List.getLast?_eq_none_iff.mp hlast
    have hidle : e.runtime.hasApplied = false := by
      rw [Bool.eq_false_iff]
      intro happlied
      rcases hany.mp happlied with hne | hfalse
      · exact hne hnil
      · cases hfalse
    have hown : ∀ named, eventTeam orc.db alertData = some named → route.team = named := by
      intro named hnamed
      rw [applyRuntimeToAlertData_idle hidle] at hroute
      rcases routeForRuntime_open hroute with ⟨-, hselected⟩ | hfound
      · have hselection := hfacts.selection
        rw [hlast] at hselection
        have hroute : start.route = some route :=
          (congrArg Selection.route hselection).symm.trans hselected
        rcases hstart with hinitial | ⟨-, hnone, -, -⟩
        · exact (initialEntities_named hnamed hinitial).1 route hroute
        · rw [hnone] at hroute
          cases hroute
      · exact findRoute_eventTeam hslugs hnamed (fun _ _ => rfl) hfound hmem
    refine ⟨by rw [hlast]; simp, fun named hnamed _ => hown named hnamed, ?_⟩
    intro named hnamed hgroup _
    rw [hown named hnamed, hgroup]
  | some b =>
    have hb : b ∈ e.applied := List.mem_of_getLast? hlast
    have hsettled := hfacts.settled b hb
    have happlied : e.runtime.hasApplied = true := hany.mpr (.inl (List.ne_nil_of_mem hb))
    have hselection : e.runtime.selection = b.selected := by
      rw [hfacts.selection, hlast]
      rfl
    have hrouteEq : e.runtime.route = b.selected.route := congrArg Selection.route hselection
    have hteamEq : e.runtime.team = b.selected.team := congrArg Selection.team hselection
    have hsame : ∀ t ∈ b.selected.team, route.team.id = t.id := by
      intro t ht
      have hmatched : ∀ x ∈ e.runtime.route, x.team.id = t.id := by
        rw [hrouteEq]
        exact fun x hx => hsettled.matched x hx t ht
      rcases routeForRuntime_open hroute with ⟨-, hselected⟩ | hfound
      · exact hmatched route hselected
      · exact findRoute_applied hlinked hopen happlied (hteamEq.trans ht) hmatched hfound
    have hown : b.selected.team = none → ∀ named, eventTeam orc.db alertData = some named →
        route.team = named := by
      intro hunknown named hnamed
      -- without a team there is no route, and the keys are those of the event
      have hnone : e.runtime.route = none := by
        rw [← Option.not_isSome_iff_eq_none]
        intro hsome
        have hstands := hlinked.selection.route_team hsome
        rw [show e.runtime.selection.team = none from hteamEq.trans hunknown] at hstands
        cases hstands
      have hkeys : ∀ key ∈ forcingKeys,
          (applyRuntimeToAlertData e.runtime alertData).get key = alertData.get key := by
        intro key hkey
        rw [get_applyRuntimeToAlertData hkey hopen happlied]
        unfold forceEntities
        rw [hnone, hteamEq, hunknown]
      rcases routeForRuntime_open hroute with ⟨-, hselected⟩ | hfound
      · rw [hnone] at hselected
        cases hselected
      · exact findRoute_eventTeam hslugs hnamed hkeys hfound hmem
    refine ⟨by rw [hlast]; rintro _ ⟨⟩; exact hsame, fun named hnamed hunknown =>
      hown (hunknown b hlast) named hnamed, fun named hnamed hnamedGroup hfree => ?_⟩
    cases hknown : b.selected.team with
    | some t =>
      have hrow : route.team = t := team_eq_of_id (orc.db.route_team route hmem)
        (hlinked.selection.team t (hteamEq.trans hknown)) (hsame t hknown)
      have hteam : ∀ t ∈ start.team, t.group = some groupId := by
        rcases hstart with hinitial | ⟨-, -, hnone, -⟩
        · exact (initialEntities_team hinitial).2
        · rw [hnone]
          simp
      rw [hrow]
      exact hsettled.team (hfree b hlast) hteam t hknown
    | none => rw [hown hknown named hnamed, hnamedGroup]

/-- Behind the second phase. -/
theorem servicePhase_leadsTo {first e : EventRun L} {found route : Route} {service : Service}
    (hfirst : eventPhase orc alertData = .ok first) (hfirstOpen : first.runtime.blocked = false)
    (hgroup : groupIdFromAlert orc.db alertData = some groupId)
    (hfound : first.LeadsTo orc.db groupId alertData found) (hmemFound : found ∈ orc.db.routes)
    (h : servicePhase orc first found service = .ok e) (hlinked : e.runtime.Linked orc.db)
    (hopen : e.runtime.blocked = false)
    (hroute : routeForRuntime orc.db env.accepts e.alertData (some e.runtime) (some found) =
      .ok (some route)) :
    e.LeadsTo orc.db groupId alertData route := by
  obtain ⟨start, hbefore, -, -, -, -⟩ := eventPhase_facts hfirst hgroup
  obtain ⟨later, happlied, hfacts, hdata⟩ :=
    servicePhase_facts h hbefore.ofGroup hfirstOpen hbefore.carries
  have hmem : route ∈ orc.db.routes :=
    routeForRuntime_mem hlinked (by rintro x ⟨⟩; exact hmemFound) hroute
  rw [hdata] at hroute
  cases hlast : later.getLast? with
  | none =>
    -- the route stays the one that was found
    obtain rfl : later = [] := List.getLast?_eq_none_iff.mp hlast
    have hsame : route = found :=
      routeForRuntime_kept (congrArg Selection.route hfacts.selection) hroute
    rw [hsame]
    rw [List.append_nil] at happlied
    exact ⟨happlied ▸ hfound.team, happlied ▸ hfound.own, happlied ▸ hfound.group⟩
  | some b =>
    have hb : b ∈ later := List.mem_of_getLast? hlast
    have hlastEq : e.applied.getLast? = some b := by
      rw [happlied, List.getLast?_append, hlast]
      rfl
    have hsettled := hfacts.settled b hb
    have hselection : e.runtime.selection = b.selected := by
      rw [hfacts.selection, hlast]
      rfl
    have hrouteEq : e.runtime.route = b.selected.route := congrArg Selection.route hselection
    have hteamEq : e.runtime.team = b.selected.team := congrArg Selection.team hselection
    obtain ⟨t, ht⟩ := Option.isSome_iff_exists.mp (hsettled.teamStays rfl)
    have hmatched : ∀ x ∈ e.runtime.route, x.team.id = t.id := by
      rw [hrouteEq]
      exact fun x hx => hsettled.matched x hx t ht
    have hsame : route.team.id = t.id := by
      unfold routeForRuntime at hroute
      dsimp only at hroute
      split_ifs at hroute with hflag hnone
      · exact hmatched route (Except.ok.inj hroute)
      · exact findRoute_applied hlinked hopen
          (hfacts.hasApplied.mpr (.inl (List.ne_nil_of_mem hb))) (hteamEq.trans ht) hmatched hroute
      · -- the route of the run is the one it started with
        obtain rfl : found = route := Option.some.inj (Except.ok.inj hroute)
        rcases hfacts.routeKept (Bool.eq_false_iff.mpr hflag) with hkept | hgone
        · exact hmatched found hkept
        · rw [hgone] at hnone
          exact absurd rfl hnone
    refine ⟨by rw [hlastEq]; rintro _ ⟨⟩ _ ht'; rw [ht] at ht'; cases ht'; exact hsame,
      fun named _ hunknown => ?_, fun named hnamed hnamedGroup hfree => ?_⟩
    · rw [hunknown b hlastEq] at ht
      cases ht
    have hbfree := hfree b hlastEq
    -- nor did the first phase select a service
    have hbeforeFree : ∀ c ∈ first.applied.getLast?,
        c.result.state.result.routing.serviceId = none := by
      intro c hc
      rw [← Option.not_isSome_iff_eq_none]
      intro hset
      have hleft := hbefore.idsLeft c (List.mem_of_getLast? hc) .service hset
      have hstarted : ((serviceLoop orc first.alertData first.runtime (some found)
          (some found.team) (some service)).context.routing.get .service).isSome = true := by
        unfold serviceLoop
        cases hcontext : first.runtime.context with
        | none =>
          rw [hcontext] at hleft
          cases hleft
        | some context =>
          rw [hcontext] at hleft
          exact hleft
      have hfoundId := hfacts.idsFound b hb .service hstarted
      rw [show b.result.state.result.routing.get .service = none from hbfree] at hfoundId
      cases hfoundId
    have hfoundGroup := hfound.group named hnamed hnamedGroup hbeforeFree
    have hrow : route.team = t := team_eq_of_id (orc.db.route_team route hmem)
      (hlinked.selection.team t (hteamEq.trans ht)) hsame
    rw [hrow]
    exact hsettled.team hbfree (by rintro _ ⟨⟩; exact hfoundGroup) t ht

end Phases

/-! ## The entities that are used -/

section Claim

variable {L : Language}

/-- The policies that an event is handled with: `resolve_incident_priority` passes over a
priority policy of another team. -/
def Arrival.policiesInUse (a : Arrival) : List Policy :=
  a.runtime.escalationPolicy.toList ++ a.runtime.notificationPolicy.toList ++
    (a.runtime.priorityPolicy.filter fun p =>
      p.enabled && decide (p.team.id = a.route.team.id)).toList

/-- The entities of an event are of its tenant and of its team. -/
structure Consistent (groupId : Id) (a : Arrival) : Prop where
  team : a.route.team.group = some groupId
  service : ∀ s ∈ a.service, s.group = some groupId ∧ s.team.id = a.route.team.id
  policies : ∀ p ∈ a.policiesInUse, p.team.group = some groupId ∧ p.team.id = a.route.team.id

/-- A policy that an orchestration can select for an event of the group. -/
def Selectable (groupId : Id) (p : Policy) : Prop :=
  p.team.group = some groupId ∧ p.enabled = true ∧ p.deleted = false

/-- The event and the rows leave nothing that the checks of the orchestrations do not see.
Which orchestrations there are does not matter. -/
structure ChecksSuffice (site : Site L) (alertData : Dict) (groupId : Id) (team : TeamRow) :
    Prop where
  /-- the event names a team of its tenant -/
  named : eventTeam site.orc.db alertData = some team
  group : team.group = some groupId
  /-- a service is one of the tenant iff its team is: no team has left its services behind -/
  services : ∀ s ∈ site.orc.db.services, s.group = some groupId ↔ s.team.group = some groupId
  /-- the service rules of a route name services of its team -/
  resolved : ∀ r ∈ site.orc.db.routes, ∀ data, ∀ s ∈ site.resolveAlertService r data,
    s.team.id = r.team.id
  /-- the service that the event names is one of its team, and so is the one of the route that it
  names -/
  service : ∀ s ∈ site.orc.db.services, idOf (alertData.getD "service_id") = some s.id →
    s.group = some groupId → s.team.id = team.id
  routed : ∀ r ∈ site.orc.db.routes, idOf (alertData.getD "forced_route_id") = some r.id →
    ∀ s ∈ r.service, s.team.id = team.id
  /-- the event names its route or its team by the id, or no other team of the tenant has a
  policy -/
  policies : ForcesTeam alertData ∨
    ∀ p ∈ site.orc.db.escalationPolicies ++ site.orc.db.notificationPolicies,
      Selectable groupId p → p.team.id = team.id

section Arrivals

variable {site : Site L} {alertData : Dict} {groupId : Id} {e : EventRun L} {a : Arrival}
  {team : TeamRow}

/-- The phases of an event that is routed, and where its route comes from. -/
theorem incoming_phases (h : orchestrate site.orc site.toServices alertData = .ok e)
    (ha : incoming site alertData = some a) :
    a.service = (e.runtime.service <|> site.resolveAlertService a.route e.alertData) ∧
      ((eventPhase site.orc alertData = .ok e ∧
          routeForRuntime site.orc.db site.accepts e.alertData (some e.runtime) none =
            .ok (some a.route)) ∨
        ∃ first found service, eventPhase site.orc alertData = .ok first ∧
          first.runtime.blocked = false ∧
          routeForRuntime site.orc.db site.accepts first.alertData (some first.runtime) none =
            .ok (some found) ∧
          (first.runtime.service <|> site.resolveAlertService found first.alertData) =
            some service ∧
          servicePhase site.orc first found service = .ok e ∧
          routeForRuntime site.orc.db site.accepts e.alertData (some e.runtime) (some found) =
            .ok (some a.route)) := by
  obtain ⟨hruntime, hdata, -⟩ := incoming_runtime h ha
  obtain ⟨runtime, data, hrun, hopen, hdrop, hrouted⟩ := routeIncoming_cases (arrivalOf_eq_some ha)
  have hfirst : eventPhase site.orc alertData =
      .ok ⟨runtime, data, appliedToEvent site.orc alertData⟩ := by
    unfold eventPhase
    rw [hrun]
    rfl
  -- the first phase does not stop the event, else nothing would arrive
  have hstops : ¬(EventRun.mk runtime data (appliedToEvent site.orc alertData)).stops = true := by
    unfold EventRun.stops
    rw [hopen, Bool.false_or, Bool.and_eq_true, decide_eq_true_iff, decide_eq_true_iff]
    exact hdrop
  -- and then the service phase runs, or there is no service
  obtain ⟨found, hfound, ⟨hservice, rfl⟩ | ⟨service, hservice, hservicerun, -, hagain, hown⟩⟩ :=
    routeEvent_cases hrouted
  · have he : EventRun.mk runtime data (appliedToEvent site.orc alertData) = e := by
      unfold orchestrate at h
      rw [hfirst] at h
      simp only [bind, Except.bind] at h
      rw [if_neg hstops, hfound] at h
      dsimp only at h
      rw [hservice] at h
      exact Except.ok.inj h
    subst he
    exact ⟨hservice.symm, .inl ⟨hfirst, hfound⟩⟩
  · rw [hruntime, hdata] at hagain hown
    refine ⟨hown, .inr ⟨_, found, service, hfirst, hopen, hfound, hservice, ?_, hagain⟩⟩
    unfold orchestrate at h
    rw [hfirst] at h
    simp only [bind, Except.bind] at h
    rw [if_neg hstops, hfound] at h
    dsimp only at h
    rw [hservice] at h
    exact h

/-- The service of the first phase is of the team of the route that is found behind it. -/
theorem eventPhase_service {route : Route} (hchecks : ChecksSuffice site alertData groupId team)
    (h : eventPhase site.orc alertData = .ok e)
    (hgroup : groupIdFromAlert site.orc.db alertData = some groupId)
    (hleads : e.LeadsTo site.orc.db groupId alertData route) :
    ∀ s ∈ e.runtime.service, s.team.id = route.team.id := by
  obtain ⟨start, hfacts, hstart, -, -, -⟩ := eventPhase_facts h hgroup
  -- the service that the run starts with is of the team that the event names
  have hfirst : ∀ s ∈ start.service, s.team.id = team.id := by
    intro s hs
    rcases hstart with hinitial | ⟨-, -, -, hnone⟩
    · rcases (initialEntities_named hchecks.named hinitial).2.2 s hs with
        ⟨hid, hmem, hsgroup⟩ | ⟨x, hx, hid, hxs⟩
      · exact hchecks.service s hmem hid hsgroup
      · exact hchecks.routed x hx hid s hxs
    · rw [hnone] at hs
      cases hs
  intro s hs
  cases hlast : e.applied.getLast? with
  | none =>
    have hselection := hfacts.selection
    rw [hlast] at hselection
    have hown : start.service = some s := (congrArg Selection.service hselection).symm.trans hs
    rw [hleads.own team hchecks.named (by rw [hlast]; simp)]
    exact hfirst s hown
  | some b =>
    have hsettled := hfacts.settled b (List.mem_of_getLast? hlast)
    have hselection : e.runtime.selection = b.selected := by
      rw [hfacts.selection, hlast]
      rfl
    have hselected : b.selected.service = some s :=
      (congrArg Selection.service hselection).symm.trans hs
    cases hknown : b.selected.team with
    | some t =>
      exact (hsettled.serviceMatched s hselected t hknown).trans (hleads.team b hlast t hknown).symm
    | none =>
      -- no orchestration has selected it
      rw [hleads.own team hchecks.named (by rw [hlast]; rintro _ ⟨⟩; exact hknown)]
      exact hfirst s ((hsettled.serviceKept hknown).symm.trans hselected)

/-- What the two phases leave, with the route that is found behind them. -/
structure Handled (site : Site L) (alertData : Dict) (groupId : Id) (e : EventRun L)
    (a : Arrival) : Prop where
  leads : e.LeadsTo site.orc.db groupId alertData a.route
  linked : e.runtime.Linked site.orc.db
  /-- what is in force was left by the last orchestration that was applied -/
  last : ∀ b ∈ e.applied.getLast?,
    (∃ start, Settled groupId start b ∧ (∀ named, eventTeam site.orc.db alertData = some named →
      ForcesTeam alertData → start.team.isSome = true)) ∧
    (∀ kind, e.runtime.selection.policy kind = b.selected.policy kind) ∧
    ∀ s ∈ b.selected.service, e.runtime.service = some s
  unselected : e.applied = [] → ∀ kind, e.runtime.selection.policy kind = none
  service : ∀ team, ChecksSuffice site alertData groupId team →
    ∀ s ∈ e.runtime.service, s.team.id = a.route.team.id

/-- By the phases. -/
theorem incoming_handled (hslugs : (site.orc.db.teams.map (·.slug)).Nodup)
    (h : orchestrate site.orc site.toServices alertData = .ok e)
    (ha : incoming site alertData = some a)
    (hgroup : groupIdFromAlert site.orc.db alertData = some groupId) :
    Handled site alertData groupId e a := by
  have hopen := (incoming_runtime h ha).2.2
  obtain ⟨-, ⟨hfirst, hroute⟩ |
    ⟨first, found, service, hfirst, hfirstOpen, hfound, hservice, hsecond, hroute⟩⟩ :=
      incoming_phases h ha
  · obtain ⟨start, hfacts, hstart, hpolicies, -, -⟩ := eventPhase_facts hfirst hgroup
    have hleads := eventPhase_leadsTo hslugs hfirst hgroup hopen hroute
    refine ⟨hleads, runEventOrchestration_linked (eventPhase_eq_ok hfirst).1, ?_, ?_,
      fun team hchecks => eventPhase_service hchecks hfirst hgroup hleads⟩
    · intro b hb
      have hmem := List.mem_of_getLast? hb
      have hselection : e.runtime.selection = b.selected := by
        rw [hfacts.selection, hb]
        rfl
      refine ⟨⟨start, hfacts.settled b hmem, fun named hnamed hforces => ?_⟩,
        fun kind => by rw [hselection], fun s hs => (congrArg Selection.service hselection).trans hs⟩
      exact initial_forced hnamed hforces (hstart.resolve_right fun hnil => by
        rw [hnil.1] at hmem
        cases hmem)
    · intro hnil kind
      rw [hfacts.selection, hnil]
      exact hpolicies kind
  · have hlinked : first.runtime.Linked site.orc.db :=
      runEventOrchestration_linked (eventPhase_eq_ok hfirst).1
    have hmem : found ∈ site.orc.db.routes := routeForRuntime_mem hlinked (by simp) hfound
    have hserviceMem : service ∈ site.orc.db.services := by
      rw [Option.orElse_eq_orElse, Option.orElse_eq_or, Option.or_eq_some_iff] at hservice
      rcases hservice with hselected | ⟨-, hresolved⟩
      · exact hlinked.selection.service service hselected
      · exact site.service_mem found first.alertData service hresolved
    have hlinked' : e.runtime.Linked site.orc.db :=
      runServiceOrchestration_linked hlinked (by rintro x ⟨⟩; exact hmem)
        (by rintro x ⟨⟩; exact site.orc.db.route_team found hmem)
        (by rintro x ⟨⟩; exact hserviceMem) (fun _ => rfl) (servicePhase_eq_ok hsecond).1
    obtain ⟨start, hfacts, hstart, hpolicies, -, -⟩ := eventPhase_facts hfirst hgroup
    obtain ⟨later, happlied, hfacts', hdata⟩ :=
      servicePhase_facts hsecond hfacts.ofGroup hfirstOpen hfacts.carries
    have hleadsFirst := eventPhase_leadsTo hslugs hfirst hgroup hfirstOpen hfound
    have hleads := servicePhase_leadsTo hfirst hfirstOpen hgroup hleadsFirst hmem hsecond hlinked'
      hopen hroute
    -- where the services apply nothing, the policies are those of the first phase
    have hkept : later = [] → ∀ kind,
        e.runtime.selection.policy kind = first.runtime.selection.policy kind := by
      rintro rfl kind
      rw [hfacts'.selection]
      cases kind <;> rfl
    refine ⟨hleads, hlinked', ?_, ?_, ?_⟩
    · intro b hb
      rw [happlied, List.getLast?_append] at hb
      cases hlast : later.getLast? with
      | some c =>
        rw [hlast] at hb
        obtain rfl : c = b := Option.some.inj hb
        have hselection : e.runtime.selection = c.selected := by
          rw [hfacts'.selection, hlast]
          rfl
        exact ⟨⟨_, hfacts'.settled c (List.mem_of_getLast? hlast), fun _ _ _ => rfl⟩,
          fun kind => by rw [hselection],
          fun s hs => (congrArg Selection.service hselection).trans hs⟩
      | none =>
        rw [hlast] at hb
        have hb : first.applied.getLast? = some b := hb
        have hnil : later = [] := List.getLast?_eq_none_iff.mp hlast
        have hbmem := List.mem_of_getLast? hb
        have hselection : first.runtime.selection = b.selected := by
          rw [hfacts.selection, hb]
          rfl
        refine ⟨⟨start, hfacts.settled b hbmem, fun named hnamed hforces => ?_⟩,
          fun kind => by rw [hkept hnil, hselection], fun s hs => ?_⟩
        · exact initial_forced hnamed hforces (hstart.resolve_right fun hempty => by
            rw [hempty.1] at hbmem
            cases hbmem)
        -- the service of the first phase is the one that its services start with
        · have hown : first.runtime.service = some s :=
            (congrArg Selection.service hselection).trans hs
          rw [hown] at hservice
          have hstart : e.runtime.service = some service := by
            have hsame := hfacts'.selection
            rw [hnil] at hsame
            exact congrArg Selection.service hsame
          rw [hstart]
          exact hservice.symm
    · intro hnil kind
      rw [happlied, List.append_eq_nil_iff] at hnil
      rw [hkept hnil.2, hfacts.selection, hnil.1]
      exact hpolicies kind
    · intro team hchecks s hs
      have hfoundService : service.team.id = found.team.id := by
        rw [Option.orElse_eq_orElse, Option.orElse_eq_or, Option.or_eq_some_iff] at hservice
        rcases hservice with hselected | ⟨-, hresolved⟩
        · exact eventPhase_service hchecks hfirst hgroup hleadsFirst service hselected
        · exact hchecks.resolved found hmem first.alertData service hresolved
      have hselection := hfacts'.selection
      cases hlast : later.getLast? with
      | none =>
        -- route and service are those that the phase started with
        rw [hlast] at hselection
        have hown : e.runtime.service = some service := congrArg Selection.service hselection
        rw [hdata] at hroute
        rw [routeForRuntime_kept (congrArg Selection.route hselection) hroute,
          ← Option.some.inj (hown.symm.trans hs), hfoundService]
      | some b =>
        rw [hlast] at hselection
        have hsettled := hfacts'.settled b (List.mem_of_getLast? hlast)
        obtain ⟨t, ht⟩ := Option.isSome_iff_exists.mp (hsettled.teamStays rfl)
        have hselected : b.selected.service = some s :=
          (congrArg Selection.service hselection).symm.trans hs
        have hlastEq : e.applied.getLast? = some b := by
          rw [happlied, List.getLast?_append, hlast]
          rfl
        exact (hsettled.serviceMatched s hselected t ht).trans (hleads.team b hlastEq t ht).symm

/-- A priority policy in use is of the team of the route, whatever was selected. -/
theorem mem_policiesInUse {p : Policy} (hp : p ∈ a.policiesInUse) :
    p ∈ a.runtime.selection.escalation ∨ p ∈ a.runtime.selection.notification ∨
      p ∈ a.runtime.selection.priority ∧ p.team.id = a.route.team.id := by
  unfold Arrival.policiesInUse at hp
  simp only [List.mem_append, Option.mem_toList] at hp
  rcases hp with (hp | hp) | hp
  · exact .inl hp
  · exact .inr (.inl hp)
  · obtain ⟨hmem, hcheck⟩ := Option.filter_eq_some_iff.mp hp
    rw [Bool.and_eq_true, decide_eq_true_iff] at hcheck
    exact .inr (.inr ⟨hmem, hcheck.2⟩)

end Arrivals

end Claim

/-! ## A policy that is taken -/

section Taken

variable {L : Language}

/-- A global orchestration whose only rule selects the policy. -/
def selects (condition : L.Condition) (groupId : Id) (kind : PolicyKind) (policyId : Id) :
    Orchestration L where
  id := 1
  group := groupId
  scope := .global
  service := none
  mode := .active
  compatibilityMode := .hybrid
  enabled := true
  deleted := false
  activeVersionId := some 1
  published := some
    { id := 1
      rules := [.mk true .continue condition [.run (.setPolicy kind policyId) .continue] []] }

/-- The table of a kind. -/
def policiesOf (db : Entities) : PolicyKind → List Policy
  | .escalation => db.escalationPolicies
  | .notification => db.notificationPolicies
  | .priority => db.priorityPolicies

/-- In each table of policies the id determines the row. -/
theorem policiesOf_key (db : Entities) (kind : PolicyKind) :
    ((policiesOf db kind).map (·.id)).Nodup := by
  cases kind with
  | escalation => exact db.escalation_key
  | notification => exact db.notification_key
  | priority => exact db.priority_key

variable {condition : L.Condition} {kind : PolicyKind} {groupId policyId : Id} {env : Env L}
  {source : Option String} {db : Entities}

/-- Its rule selects the policy and nothing else. -/
theorem selects_evaluated {defaultHistory : HistoryLevel} {context : Context}
    {r : OrchestrationExecutionResult L}
    (hcondition : ∀ context, L.evaluateConditionTree condition context = .ok true)
    (h : executeRuleTreeTraced L defaultHistory
      [.mk true .continue condition [.run (.setPolicy kind policyId) .continue] []] context = .ok r) :
    r.state.result.policies.get kind = some policyId ∧
      r.state.result.routing = context.routing := by
  unfold executeRuleTreeTraced at h
  obtain ⟨s, hstart, h⟩ := bind_eq_ok.mp h
  have hresult := fromContext_result hstart
  simp only [traceLevel, traceRule, hcondition, traceActions, executeAction, withStep, bind,
    Except.bind, Except.map, Bool.not_true, Bool.false_eq_true, if_false, closeRule,
    ProcessingMode.opensChildren, Rule.mode, reduceCtorEq, or_self, decide_false] at h
  cases h
  refine ⟨by cases kind <;> rfl, ?_⟩
  unfold Context.routing
  show s.result.routing = _
  rw [hresult]
  cases context.result <;> rfl

/-- A policy whose id is set is loaded. -/
theorem resolveSelectedEntities_policy {result : ActionResult} {fallback selected : Selection}
    {p : Policy} (h : resolveSelectedEntities db result groupId source fallback = .ok selected)
    (hp : p ∈ policiesOf db kind) (hset : result.policies.get kind = some p.id) :
    selected.policy kind = some p := by
  -- a policy that is set is loaded by its id, or the resolution fails
  have hload : ∀ {policies : List Policy} {teamId : Option Id} {fallback policy : Option Policy},
      (policies.map (·.id)).Nodup → p ∈ policies →
      selectPolicy policies (some p.id) groupId teamId fallback = .ok policy → policy = some p := by
    intro policies teamId fallback policy hkey hmem hselect
    unfold selectPolicy loadPolicy at hselect
    rw [if_pos (by rfl)] at hselect
    dsimp only at hselect
    rw [byId_self hkey hmem] at hselect
    dsimp only at hselect
    split_ifs at hselect
    cases hselect
    rfl
  unfold resolveSelectedEntities at h
  obtain ⟨route, -, h⟩ := bind_eq_ok.mp h
  obtain ⟨team, -, h⟩ := bind_eq_ok.mp h
  obtain ⟨⟨route', team', service⟩, -, h⟩ := bind_eq_ok.mp h
  dsimp only at h
  split_ifs at h
  obtain ⟨escalation, hescalation, h⟩ := bind_eq_ok.mp h
  obtain ⟨priority, hpriority, h⟩ := bind_eq_ok.mp h
  obtain ⟨notification, hnotification, h⟩ := bind_eq_ok.mp h
  cases h
  have hkey := policiesOf_key db kind
  -- the three kinds differ in the table that is looked up
  cases kind with
  | escalation =>
    rw [show result.policies.escalationPolicyId = some p.id from hset] at hescalation
    exact hload hkey hp hescalation
  | notification =>
    rw [show result.policies.notificationPolicyId = some p.id from hset] at hnotification
    exact hload hkey hp hnotification
  | priority =>
    rw [show result.policies.priorityPolicyId = some p.id from hset] at hpriority
    exact hload hkey hp hpriority

section Alone

variable (hcondition : ∀ context, L.evaluateConditionTree condition context = .ok true)
  (horc : env.orchestrations = [selects condition groupId kind policyId])

include horc

/-- Here one orchestration is applied, which selects the policy. -/
theorem globals_selects :
    listRuntimeOrchestrations env groupId .global none = [selects condition groupId kind policyId] := by
  unfold listRuntimeOrchestrations
  rw [horc]
  simp [selects]

theorem services_selects (service : Service) : serviceOrchestrations env groupId service = [] := by
  unfold serviceOrchestrations listRuntimeOrchestrations
  rw [horc]
  simp [selects]

/-- The services have no orchestrations to apply. -/
theorem appliedInChain_selects (left : ℕ) (s : Orchestration.Loop) :
    appliedInChain env groupId source left s = [] := by
  induction left generalizing s with
  | zero => rfl
  | succ left ih =>
    unfold appliedInChain
    cases s.nextService with
    | none => rfl
    | some service =>
      dsimp only
      rw [services_selects horc service]
      exact ih _

include hcondition

/-- Where the orchestration is applied, the policy is in force, and no team unless one was
known from the start. -/
theorem appliedInRun_selects {s : Orchestration.Loop} {b : Applied L} {p : Policy} (hid : policyId = p.id)
    (hp : p ∈ policiesOf env.db kind) (hfresh : s.context.routing = {})
    (hroute : s.route = none) (hb : b ∈ appliedInRun env groupId source s) :
    b.selected.policy kind = some p ∧ b.selected.team = s.team := by
  subst hid
  unfold appliedInRun at hb
  dsimp only at hb
  -- the service orchestrations select no policy here, so it was selected by the one global
  have hown : b ∈ appliedIn env groupId source
      (listRuntimeOrchestrations env groupId .global none) s := by
    rcases List.mem_append.mp hb with hb | hb
    · exact hb
    · split at hb
      · rw [appliedInChain_selects horc] at hb
        cases hb
      · cases hb
  rw [globals_selects horc] at hown
  unfold appliedIn at hown
  rw [if_neg (by simp [Orchestration.skipped, selects])] at hown
  have hone : b ∈ (appliedOne env groupId source (selects condition groupId kind p.id) s).toList := by
    rcases List.mem_append.mp hown with hown | hown
    · exact hown
    · split at hown <;> cases hown
  obtain ⟨version, hversion, hb⟩ := Option.bind_eq_some_iff.mp (Option.mem_toList.mp hone)
  cases hversion
  dsimp only at hb
  split at hb
  · cases hb
  · rename_i result hresult
    split at hb
    · cases hb
    · rename_i selected hselected
      split_ifs at hb
      cases hb
      obtain ⟨hpolicy, hrouting⟩ := selects_evaluated hcondition hresult
      refine ⟨resolveSelectedEntities_policy hselected hp hpolicy, ?_⟩
      have hunselected := (resolveSelectedEntities_chosen hselected).unselected
        (hrouting.trans hfresh) (by
          rw [show s.selection.route = none from hroute]
          simp)
      exact hunselected.2

end Alone

/-- **Of an event that names its team by the slug alone, a policy of another team of the tenant
is taken**, wherever an orchestration that selects it is applied. -/
theorem foreign_policy_taken {site : Site L} {alertData : Dict} {e : EventRun L} {a : Arrival}
    {team : TeamRow} {p : Policy} (hslugs : (site.orc.db.teams.map (·.slug)).Nodup)
    (hcondition : ∀ context, L.evaluateConditionTree condition context = .ok true)
    (hnamed : eventTeam site.orc.db alertData = some team) (hslug : ¬ForcesTeam alertData)
    (hgroup : groupIdFromAlert site.orc.db alertData = some groupId)
    (hkind : kind ≠ .priority) (hp : p ∈ policiesOf site.orc.db kind)
    (hforeign : p.team.id ≠ team.id)
    (horc : site.orc.orchestrations = [selects condition groupId kind p.id])
    (h : orchestrate site.orc site.toServices alertData = .ok e)
    (ha : incoming site alertData = some a) (happlied : e.applied ≠ []) :
    ¬Consistent groupId a := by
  have hhandled := incoming_handled hslugs h ha hgroup
  have hruntime := (incoming_runtime h ha).1
  -- nothing is applied but to the event, and with no entities from the start
  have hfirst : e.applied = appliedToEvent site.orc alertData := by
    obtain ⟨-, ⟨hphase, -⟩ | ⟨first, found, service, hphase, hopen, -, -, hsecond, -⟩⟩ :=
      incoming_phases h ha
    · exact (eventPhase_eq_ok hphase).2
    · rw [(servicePhase_eq_ok hsecond).2, (eventPhase_eq_ok hphase).2]
      obtain ⟨start, hfacts, -, -, -, -⟩ := eventPhase_facts hphase hgroup
      have hnone : appliedToService site.orc first.alertData first.runtime (some found)
          (some found.team) (some service) = [] := by
        unfold appliedToService
        rw [hfacts.ofGroup]
        dsimp only
        split_ifs
        · rfl
        · exact appliedInChain_selects horc _ _
      rw [hnone, List.append_nil]
  have hunforced : idOf (alertData.getD "forced_route_id") = none ∧
      idOf (alertData.getD "forced_team_id") = none := by
    refine ⟨Option.eq_none_iff_forall_not_mem.mpr fun id hid => hslug (.inl (truthy_of_idOf hid)),
      Option.eq_none_iff_forall_not_mem.mpr fun id hid => hslug (.inr (truthy_of_idOf hid))⟩
  have hlast : ∀ b ∈ e.applied, b.selected.policy kind = some p ∧ b.selected.team = none := by
    intro b hb
    rw [hfirst] at hb
    unfold appliedToEvent at hb
    rw [hgroup] at hb
    dsimp only at hb
    split at hb
    · cases hb
    · rename_i route known service hinitial
      obtain ⟨hroute, hteam, -⟩ := initialEntities_loads hinitial
      rw [hunforced.1] at hroute
      cases hroute
      have hunknown : known = none := by
        rcases hteam with ⟨x, hx, -⟩ | ⟨-, hteam⟩
        · cases hx
        · rw [hunforced.2] at hteam
          cases hteam
          rfl
      split_ifs at hb
      · cases hb
      · obtain ⟨hpolicy, hknown⟩ := appliedInRun_selects hcondition horc rfl hp rfl rfl hb
        exact ⟨hpolicy, hknown.trans hunknown⟩
  have hb := List.getLast?_eq_some_getLast happlied
  generalize e.applied.getLast happlied = b at hb
  obtain ⟨hpolicy, hunknown⟩ := hlast b (List.mem_of_getLast? hb)
  have hroute : a.route.team = team :=
    hhandled.leads.own team hnamed (by rw [hb]; rintro _ ⟨⟩; exact hunknown)
  have htaken : a.runtime.selection.policy kind = some p := by
    rw [hruntime, (hhandled.last b hb).2.1 kind, hpolicy]
  have huse : p ∈ a.policiesInUse := by
    unfold Arrival.policiesInUse
    simp only [List.mem_append, Option.mem_toList]
    cases kind with
    | escalation => exact .inl (.inl htaken)
    | notification => exact .inl (.inr htaken)
    | priority => exact absurd rfl hkind
  intro hconsistent
  have hsame := (hconsistent.policies p huse).2
  rw [hroute] at hsame
  exact hforeign hsame

end Taken

/-! ## Two teams of one tenant -/

def dbaTeam : TeamRow :=
  { id := 2, group := some 1, active := true, deleted := false, slug := "dba", name := "DBA" }

def dbaRoute : Route :=
  { id := 2, team := dbaTeam, service := none, name := "dba", source := "webhook", enabled := true,
    deleted := false }

/-- A team with an escalation policy, and a team without one. -/
def twoTeams : Entities where
  groups := [{ id := 1, active := true, deleted := false }]
  teams := [opsTeam, dbaTeam]
  services := []
  routes := [opsRoute, dbaRoute]
  escalationPolicies := [{ id := 1, team := opsTeam, enabled := true, deleted := false }]
  priorityPolicies := []
  notificationPolicies := []
  teams_key := by decide
  services_key := List.nodup_nil
  routes_key := by decide
  escalation_key := by simp
  priority_key := List.nodup_nil
  notification_key := List.nodup_nil
  route_team := by simp [opsRoute, dbaRoute]
  route_service := by simp [opsRoute, dbaRoute]
  service_team := by simp

/-- A global orchestration selects the policy for every event. -/
def policyForAll : Site plainLanguage :=
  { plainServices with
    orc := { opsEnv with db := twoTeams, orchestrations := [selects () 1 .escalation 1] }
    chars := asciiClasses
    settings := {}
    activationError := fun _ => "RuntimeError"
    service_mem := by simp [plainServices] }

/-- An event that names its team by the slug. -/
def diskOf (slug : String) : Dict :=
  [("source", .str "webhook"), ("title", .str "Disk full"), ("status", .str "firing"),
    ("team_slug", .str slug), ("dedup_key", .str "disk")]

end IncidentRelay.Alerts
