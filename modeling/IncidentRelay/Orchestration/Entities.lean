import IncidentRelay.Lib.Json
import IncidentRelay.Tenant

/-!
# The rows an orchestration may select

Routes, teams, services and policies with the rows their foreign keys point at,
and the loaders of `runtime.py`. A loader returns nothing for a missing id, and
fails for a row that is gone, disabled or of another group; what it returns is a
row of the table that belongs to the group (`loadRoute_spec` and its siblings).
-/

namespace IncidentRelay.Orchestration

/-! ## Rows -/

structure TeamRow extends Team where
  slug : String
  name : String
  deriving DecidableEq

structure Service where
  id : Id
  group : Option Id
  team : TeamRow
  slug : String
  name : String
  enabled : Bool
  deleted : Bool
  deriving DecidableEq

structure Route where
  id : Id
  team : TeamRow
  service : Option Service
  name : String
  source : String
  enabled : Bool
  deleted : Bool
  deriving DecidableEq

/-- A row of one of the three policy tables. -/
structure Policy where
  id : Id
  team : TeamRow
  enabled : Bool
  deleted : Bool
  deriving DecidableEq

/-- The tables that are read. Ids are keys, and a row that a foreign key points
at is a row of its table. -/
structure Entities where
  groups : List Group
  teams : List TeamRow
  services : List Service
  routes : List Route
  escalationPolicies : List Policy
  priorityPolicies : List Policy
  notificationPolicies : List Policy
  teams_key : (teams.map (·.id)).Nodup
  services_key : (services.map (·.id)).Nodup
  routes_key : (routes.map (·.id)).Nodup
  escalation_key : (escalationPolicies.map (·.id)).Nodup
  priority_key : (priorityPolicies.map (·.id)).Nodup
  notification_key : (notificationPolicies.map (·.id)).Nodup
  route_team : ∀ r ∈ routes, r.team ∈ teams
  route_service : ∀ r ∈ routes, ∀ s ∈ r.service, s ∈ services
  service_team : ∀ s ∈ services, s.team ∈ teams

/-- `Model.get_or_none(Model.id == id)`. -/
def byId {α : Type} (key : α → Id) (rows : List α) (id : Id) : Option α :=
  rows.find? fun row => key row = id

theorem byId_mem {α : Type} {key : α → Id} {rows : List α} {id : Id} {row : α}
    (h : byId key rows id = some row) : row ∈ rows ∧ key row = id := by
  have hkey := List.find?_some h
  exact ⟨List.mem_of_find?_eq_some h, of_decide_eq_true hkey⟩

/-- A row is found under its own id. -/
theorem byId_self {α : Type} {key : α → Id} {rows : List α} (hkey : (rows.map key).Nodup)
    {row : α} (hm : row ∈ rows) : byId key rows (key row) = some row := by
  unfold byId
  induction rows with
  | nil => cases hm
  | cons first rest ih =>
    rw [List.map_cons, List.nodup_cons] at hkey
    rcases List.mem_cons.mp hm with rfl | hm
    · simp
    · have hne : key first ≠ key row := fun h =>
        hkey.1 (h ▸ List.mem_map_of_mem hm)
      rw [List.find?_cons_of_neg (by simpa using hne)]
      exact ih hkey.2 hm

namespace Entities

variable (db : Entities)

def groupActive (groupId : Id) : Bool :=
  db.groups.any fun g => g.id = groupId ∧ g.active = true

/-- `route.team`, `route.team.group` are there and active. -/
def teamActive (team : TeamRow) : Bool :=
  team.active && match team.group with
    | some groupId => db.groupActive groupId
    | none => false

/-! ## Loaders -/

/-- `_load_route(route_id, group_id=…, source=…)`; the error is the message of
`RuntimeOrchestrationError`. -/
def loadRoute (routeId : Option Id) (groupId : Id) (source : Option String) :
    Except String (Option Route) :=
  match routeId with
  | none => .ok none
  | some id =>
    match byId (·.id) db.routes id with
    | none => .error "selected route is missing or disabled"
    | some route =>
      if !route.enabled || route.deleted then .error "selected route is missing or disabled"
      else if route.team.group ≠ some groupId then
        .error "selected route belongs to another group"
      else if source.any (fun s => s ≠ "" && route.source ≠ s) then
        .error "selected route source does not match event source"
      else if !db.teamActive route.team then .error "selected route team or group is inactive"
      else .ok (some route)

/-- `_load_team(team_id, group_id=…)`. -/
def loadTeam (teamId : Option Id) (groupId : Id) : Except String (Option TeamRow) :=
  match teamId with
  | none => .ok none
  | some id =>
    match byId (fun t : TeamRow => t.id) db.teams id with
    | none => .error "selected team is missing or inactive"
    | some team =>
      if !team.active || team.deleted then .error "selected team is missing or inactive"
      else if team.group ≠ some groupId then .error "selected team belongs to another group"
      else .ok (some team)

/-- `_load_service(service_id, group_id=…)`. -/
def loadService (serviceId : Option Id) (groupId : Id) : Except String (Option Service) :=
  match serviceId with
  | none => .ok none
  | some id =>
    match byId (·.id) db.services id with
    | none => .error "selected service is missing or disabled"
    | some service =>
      if !service.enabled || service.deleted then
        .error "selected service is missing or disabled"
      else if service.group ≠ some groupId then
        .error "selected service belongs to another group"
      else .ok (some service)

end Entities

/-- `_load_policy(model, policy_id, group_id=…, team_id=…)` on the table of the
model. -/
def loadPolicy (policies : List Policy) (policyId : Option Id) (groupId : Id)
    (teamId : Option Id) : Except String (Option Policy) :=
  match policyId with
  | none => .ok none
  | some id =>
    match byId (·.id) policies id with
    | none => .error "selected policy is missing or disabled"
    | some policy =>
      if !policy.enabled || policy.deleted then .error "selected policy is missing or disabled"
      else if policy.team.group ≠ some groupId then
        .error "selected policy belongs to another group"
      else if teamId.any fun team => policy.team.id ≠ team then
        .error "selected policy belongs to another team"
      else .ok (some policy)

/-! ## What a loader returns -/

section Loaders

variable {db : Entities} {groupId : Id}

/-- A route that is loaded is a row of the tenant. -/
theorem loadRoute_spec {id : Option Id} {source : Option String} {route : Option Route}
    (h : db.loadRoute id groupId source = .ok route) :
    ∀ r ∈ route, r ∈ db.routes ∧ r.team.group = some groupId := by
  unfold Entities.loadRoute at h
  split at h
  · cases h
    simp
  · split at h
    · cases h
    · rename_i r hr
      split_ifs at h with _ hgroup
      cases h
      intro r' hr'
      cases hr'
      exact ⟨(byId_mem hr).1, not_not.mp hgroup⟩

theorem loadTeam_spec {id : Option Id} {team : Option TeamRow}
    (h : db.loadTeam id groupId = .ok team) :
    ∀ t ∈ team, t ∈ db.teams ∧ t.group = some groupId := by
  unfold Entities.loadTeam at h
  split at h
  · cases h
    simp
  · split at h
    · cases h
    · rename_i t ht
      split_ifs at h with _ hgroup
      cases h
      intro t' ht'
      cases ht'
      exact ⟨(byId_mem ht).1, not_not.mp hgroup⟩

/-- A service. -/
theorem loadService_spec {id : Option Id} {service : Option Service}
    (h : db.loadService id groupId = .ok service) :
    ∀ s ∈ service, s ∈ db.services ∧ s.group = some groupId := by
  unfold Entities.loadService at h
  split at h
  · cases h
    simp
  · split at h
    · cases h
    · rename_i s hs
      split_ifs at h with _ hgroup
      cases h
      intro s' hs'
      cases hs'
      exact ⟨(byId_mem hs).1, not_not.mp hgroup⟩

theorem loadPolicy_spec {policies : List Policy} {id teamId : Option Id} {policy : Option Policy}
    (h : loadPolicy policies id groupId teamId = .ok policy) :
    ∀ p ∈ policy, p ∈ policies ∧ p.team.group = some groupId := by
  unfold loadPolicy at h
  split at h
  · cases h
    simp
  · split at h
    · cases h
    · rename_i p hp
      split_ifs at h with _ hgroup
      cases h
      intro p' hp'
      cases hp'
      exact ⟨(byId_mem hp).1, not_not.mp hgroup⟩

end Loaders

/-! ## The entity in the context of a rule -/

/-- `_entity_context(entity)`. -/
def Route.context (r : Route) : Dict :=
  [("id", .int r.id), ("name", .str r.name), ("source", .str r.source), ("enabled", .bool r.enabled)]

def TeamRow.context (t : TeamRow) : Dict :=
  [("id", .int t.id), ("name", .str t.name), ("slug", .str t.slug), ("active", .bool t.active)]

def Service.context (s : Service) : Dict :=
  [("id", .int s.id), ("name", .str s.name), ("slug", .str s.slug), ("enabled", .bool s.enabled)]

end IncidentRelay.Orchestration
