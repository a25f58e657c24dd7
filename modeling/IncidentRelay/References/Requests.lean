import IncidentRelay.Lib.IdTable
import IncidentRelay.Lib.Result
import IncidentRelay.Lib.Run
import IncidentRelay.Tenant

/-!
# Requests on routes and services

`routes_view.py` and `services/core.py`: creating, updating, switching and deleting the routes
and the services of a team. Each request checks what the row that it writes refers to
(`validateOwned`). The other rows that are referred to are never moved between teams, so
whose they are is a parameter (`Owners`); whether they are there and enabled may change at
any time.

Rows have the columns that the checks read. What a caller may write is part of the request.
-/

namespace IncidentRelay.References

/-! ## Rows -/

/-- What routes and services refer to, beside services. -/
inductive Kind where
  | rotation | escalationPolicy | notificationPolicy | priorityPolicy | channel | matcherPreset
  deriving DecidableEq

/-- The team of each row of a kind. -/
abbrev Owners := Kind → Id → Id

structure Flags where
  enabled : Bool
  deleted : Bool
  deriving DecidableEq

/-- A row with its team. -/
structure OwnedRow extends Flags where
  team : Id

/-- What a request says of a route. -/
structure RouteData where
  team : Id
  name : String
  rotation : Option Id := none
  escalationPolicy : Option Id := none
  service : Option Id := none
  matcherPreset : Option Id := none
  channels : List Id := []
  enabled : Bool := true
  deriving DecidableEq

structure Route extends RouteData where
  id : ℕ
  deleted : Bool
  deriving DecidableEq

/-- What a request says of a service. -/
structure ServiceData where
  team : Id
  slug : String
  defaultRotation : Option Id := none
  defaultEscalationPolicy : Option Id := none
  notificationPolicy : Option Id := none
  priorityPolicy : Option Id := none
  enabled : Bool := true
  deriving DecidableEq

structure Service extends ServiceData where
  id : ℕ
  deleted : Bool
  deriving DecidableEq

structure Store where
  catalog : Kind → Id → Option Flags
  routes : IdTable Route (·.id)
  services : IdTable Service (·.id)

/-- The caller may write the resources of a team: `require_team_write` and
`require_route_resource_write`. -/
structure Caller where
  team : Id → Bool
  route : Id → Bool

/-- The error of a response. -/
structure RequestError where
  error : String
  message : String
  deriving DecidableEq

def forbidden : RequestError := ⟨"forbidden", ""⟩

def notFound : RequestError := ⟨"not_found", ""⟩

def require (allowed : Bool) (error : RequestError) : Except RequestError Unit :=
  if allowed then .ok () else .error error

/-! ## Checks of references -/

/-- The texts of a check; `disabled` is none where nobody asks whether the row is enabled. -/
structure CheckTexts where
  notFound : RequestError
  mismatch : RequestError
  disabled : Option RequestError := none

/-- A row that is referred to is there, belongs to the team and is enabled. A row that is
deleted is not found, so that a later branch for it is never taken. -/
def validateOwned (texts : CheckTexts) (lookup : Id → Option OwnedRow) (team : Id) :
    Option Id → Except RequestError Unit
  | none => .ok ()
  | some id =>
    match lookup id with
    | none => .error texts.notFound
    | some row =>
      if row.deleted then .error texts.notFound
      else if row.team ≠ team then .error texts.mismatch
      else
        match texts.disabled with
        | some error => require row.enabled error
        | none => .ok ()

section Checks

variable (owners : Owners) (s : Store) (c : Caller)

def Store.owned (kind : Kind) (id : Id) : Option OwnedRow :=
  (s.catalog kind id).map fun flags => { flags with team := owners kind id }

def Store.ownedService (id : Id) : Option OwnedRow :=
  (s.services.get id).map fun svc => ⟨⟨svc.enabled, svc.deleted⟩, svc.team⟩

/-- `_validate_rotation(team_id, rotation_id)` -/
def validateRotation : Id → Option Id → Except RequestError Unit :=
  validateOwned
    { notFound := ⟨"rotation_not_found", "Default rotation was not found"⟩
      mismatch := ⟨"rotation_team_mismatch", "Default rotation does not belong to service team"⟩ }
    (s.owned owners .rotation)

/-- `_validate_escalation_policy(team_id, policy_id)` -/
def validateEscalationPolicy : Id → Option Id → Except RequestError Unit :=
  validateOwned
    { notFound := ⟨"escalation_policy_not_found", "Default escalation policy was not found"⟩
      mismatch := ⟨"escalation_policy_team_mismatch",
        "Default escalation policy does not belong to service team"⟩ }
    (s.owned owners .escalationPolicy)

/-- `_validate_notification_policy(team_id, policy_id)` -/
def validateNotificationPolicy : Id → Option Id → Except RequestError Unit :=
  validateOwned
    { notFound := ⟨"notification_policy_not_found", "Notification policy was not found"⟩
      mismatch := ⟨"notification_policy_team_mismatch",
        "Notification policy does not belong to service team"⟩
      disabled := some ⟨"notification_policy_disabled", "Notification policy is disabled"⟩ }
    (s.owned owners .notificationPolicy)

/-- `_validate_priority_policy(team_id, policy_id)` -/
def validatePriorityPolicy : Id → Option Id → Except RequestError Unit :=
  validateOwned
    { notFound := ⟨"priority_policy_not_found", "Priority policy was not found"⟩
      mismatch := ⟨"priority_policy_team_mismatch",
        "Priority policy does not belong to service team"⟩
      disabled := some ⟨"priority_policy_disabled", "Priority policy is disabled"⟩ }
    (s.owned owners .priorityPolicy)

/-- `_validate_service_payload(payload)` -/
def validateServicePayload (data : ServiceData) : Except RequestError Unit := do
  validateRotation owners s data.team data.defaultRotation
  validateEscalationPolicy owners s data.team data.defaultEscalationPolicy
  validateNotificationPolicy owners s data.team data.notificationPolicy
  validatePriorityPolicy owners s data.team data.priorityPolicy

/-- A check of a route, after which the caller has to be allowed to write the resources of the
team. -/
def validateForRoute (texts : CheckTexts) (lookup : Id → Option OwnedRow) (team : Id)
    (id : Option Id) : Except RequestError Unit := do
  validateOwned texts lookup team id
  require (id.isNone || c.route team) forbidden

/-- `validate_route_channels(team_id, channel_ids)` -/
def validateRouteChannels (team : Id) (channels : List Id) : Except RequestError Unit :=
  channels.forM fun id => validateForRoute c
    { notFound := ⟨"channel_not_found", "Channel was not found"⟩
      mismatch := ⟨"channel_team_mismatch", "Channel does not belong to route team"⟩ }
    (s.owned owners .channel) team (some id)

/-- `validate_route_rotation(team_id, rotation_id)` -/
def validateRouteRotation : Id → Option Id → Except RequestError Unit :=
  validateForRoute c
    { notFound := ⟨"rotation_not_found", "Rotation was not found"⟩
      mismatch := ⟨"rotation_team_mismatch", "Rotation does not belong to route team"⟩ }
    (s.owned owners .rotation)

/-- `validate_route_escalation_policy(team_id, escalation_policy_id)` -/
def validateRouteEscalationPolicy : Id → Option Id → Except RequestError Unit :=
  validateForRoute c
    { notFound := ⟨"escalation_policy_not_found", "Escalation policy was not found"⟩
      mismatch := ⟨"escalation_policy_team_mismatch",
        "Escalation policy does not belong to route team"⟩
      disabled := some ⟨"escalation_policy_disabled", "Escalation policy is disabled"⟩ }
    (s.owned owners .escalationPolicy)

/-- `validate_route_service(team_id, service_id)` -/
def validateRouteService : Id → Option Id → Except RequestError Unit :=
  validateForRoute c
    { notFound := ⟨"service_not_found", "Service was not found"⟩
      mismatch := ⟨"service_team_mismatch", "Service does not belong to route team"⟩
      disabled := some ⟨"service_disabled", "Service is disabled"⟩ }
    s.ownedService

/-- `validate_route_matcher_preset(team_id, preset_id)` -/
def validateRouteMatcherPreset : Id → Option Id → Except RequestError Unit :=
  let invalid : RequestError :=
    ⟨"matcher_preset_invalid", "Matcher preset is invalid or unavailable."⟩
  validateOwned
    { notFound := ⟨"matcher_preset_not_found", "Matcher preset was not found."⟩
      mismatch := invalid
      disabled := some invalid }
    (s.owned owners .matcherPreset)

/-- The checks of `create_route` and `update_route`, in their order. -/
def validateRoutePayload (data : RouteData) : Except RequestError Unit := do
  validateRouteChannels owners s c data.team data.channels
  validateRouteRotation owners s c data.team data.rotation
  validateRouteEscalationPolicy owners s c data.team data.escalationPolicy
  validateRouteService s c data.team data.service
  validateRouteMatcherPreset owners s data.team data.matcherPreset

end Checks

/-! ## Routes -/

/-- `route_name_conflict_response(name)` -/
def routeNameConflict : RequestError :=
  ⟨"conflict", "Route with this name already exists in this team"⟩

section Requests

variable (owners : Owners) (s : Store) (c : Caller)

/-- `get_route(route_id)` -/
def getRoute (id : ℕ) : Except RequestError Route :=
  match s.routes.get id with
  | some r => if r.deleted then .error notFound else .ok r
  | none => .error notFound

/-- `get_service(service_id)` -/
def getService (id : ℕ) : Except RequestError Service :=
  match s.services.get id with
  | some svc => if svc.deleted then .error notFound else .ok svc
  | none => .error notFound

/-- A new route, or the deleted one of the same name with everything set anew. -/
def createRoute (data : RouteData) : Except RequestError Store := do
  require (c.route data.team) forbidden
  validateRoutePayload owners s c data
  match s.routes.rows.find? fun r => r.team = data.team ∧ r.name = data.name with
  | some existing =>
    if !existing.deleted then .error routeNameConflict
    else .ok { s with routes := s.routes.save { data with id := existing.id, deleted := false } }
  | none =>
    .ok { s with routes :=
      s.routes.insert { data with id := s.routes.next, deleted := false } rfl }

def updateRoute (id : ℕ) (data : RouteData) : Except RequestError Store := do
  let current ← getRoute s id
  require (c.route current.team) forbidden
  require (data.team = current.team || c.route data.team) forbidden
  validateRoutePayload owners s c data
  require (!s.routes.rows.any fun r => r.team = data.team ∧ r.name = data.name ∧ r.id ≠ id)
    routeNameConflict
  return { s with routes := s.routes.save { data with id := current.id, deleted := false } }

/-- `enable_route(route_id)` and `disable_route(route_id)` -/
def setRouteEnabled (id : ℕ) (enabled : Bool) : Except RequestError Store := do
  let current ← getRoute s id
  require (c.route current.team) forbidden
  return { s with routes := s.routes.save { current with enabled } }

def deleteRoute (id : ℕ) : Except RequestError Store := do
  let current ← getRoute s id
  require (c.route current.team) forbidden
  return { s with
    routes := s.routes.save { current with enabled := false, deleted := true, channels := [] } }

/-! ## Services -/

def serviceSlugConflict : RequestError :=
  ⟨"conflict", "Service with this slug already exists in this team"⟩

/-- A new service, or the deleted one of the same slug with everything set anew. The slugs of a
team are unique in the database. -/
def createService (data : ServiceData) : Except RequestError Store := do
  require (c.team data.team) forbidden
  validateServicePayload owners s data
  match s.services.rows.find? fun svc => svc.team = data.team ∧ svc.slug = data.slug with
  | some existing =>
    if !existing.deleted then .error serviceSlugConflict
    else .ok { s with
      services := s.services.save { data with id := existing.id, deleted := false } }
  | none =>
    .ok { s with services :=
      s.services.insert { data with id := s.services.next, deleted := false } rfl }

def updateService (id : ℕ) (data : ServiceData) : Except RequestError Store := do
  let current ← getService s id
  require (c.team current.team) forbidden
  require (c.team data.team) forbidden
  validateServicePayload owners s data
  require (!s.services.rows.any fun svc =>
    svc.team = data.team ∧ svc.slug = data.slug ∧ svc.id ≠ id) serviceSlugConflict
  return { s with services := s.services.save { data with id := current.id, deleted := false } }

/-- The route with no service, where it had this one. -/
def Route.detach (id : ℕ) (r : Route) : Route :=
  if r.service.any (fun ref => (ref : ℕ) = id) then { r with service := none } else r

theorem Route.detach_id (id : ℕ) (r : Route) : (r.detach id).id = r.id := by
  unfold Route.detach
  split <;> rfl

/-- `soft_delete_service(service_id)`: every route lets go of the service. -/
def deleteService (id : ℕ) : Except RequestError Store := do
  let current ← getService s id
  require (c.team current.team) forbidden
  return { s with
    routes := s.routes.update (fun _ => true) (Route.detach id) (Route.detach_id id)
    services := s.services.save { current with enabled := false, deleted := true } }

end Requests

/-! ## The system -/

inductive Label where
  | createRoute (caller : Caller) (data : RouteData)
  | updateRoute (caller : Caller) (id : ℕ) (data : RouteData)
  | setRouteEnabled (caller : Caller) (id : ℕ) (enabled : Bool)
  | deleteRoute (caller : Caller) (id : ℕ)
  | createService (caller : Caller) (data : ServiceData)
  | updateService (caller : Caller) (id : ℕ) (data : ServiceData)
  | deleteService (caller : Caller) (id : ℕ)
  /-- rotations, policies, channels and presets are created, switched or deleted -/
  | catalog (rows : Kind → Id → Option Flags)

/-- What a request does to the store, when it succeeds. -/
def handle (owners : Owners) (s : Store) : Label → Except RequestError Store
  | .createRoute caller data => createRoute owners s caller data
  | .updateRoute caller id data => updateRoute owners s caller id data
  | .setRouteEnabled caller id enabled => setRouteEnabled s caller id enabled
  | .deleteRoute caller id => deleteRoute s caller id
  | .createService caller data => createService owners s caller data
  | .updateService caller id data => updateService owners s caller id data
  | .deleteService caller id => deleteService s caller id
  | .catalog rows => .ok { s with catalog := rows }

/-- A request that fails leaves the store as it is. -/
def step (owners : Owners) (s : Store) (l : Label) : Store :=
  match handle owners s l with
  | .ok t => t
  | .error _ => s

end IncidentRelay.References
