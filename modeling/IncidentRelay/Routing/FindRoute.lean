import IncidentRelay.Lib.Json
import IncidentRelay.Orchestration.Runtime
import Mathlib.Data.List.Sort

/-!
# Finding the route of an event

`find_route_for_alert` and `_route_for_runtime`. What the conditions of a route
say of an event is a function of the context that they are matched against
(`Matching`); the context is built from a fixed list of keys of the event, so
other keys do not decide the route (`findRouteForAlert_congr`).
-/

namespace IncidentRelay.RouteSelection

open Json Orchestration

/-! ## The context of a match -/

/-- `_get_value(alert, name)` on a dictionary. -/
def getValue (alert : Dict) (name : String) (default : Json := .null) : Json :=
  match alert.getD name with
  | .null => default
  | value => value

/-- `_get_mapping(alert, *names)`: the first object that is not empty. -/
def getMapping (alert : Dict) (names : List String) : Dict :=
  ((names.map fun name => (getValue alert name).asDict).find? fun kvs => !kvs.isEmpty).getD []

/-- `_resource_data(resource, fields)` of a resource in the event. -/
def resourceData (resource : Json) (fields : List String) : Json :=
  if resource.truthy then
    .obj (fields.map fun field => (field, getValue resource.asDict field))
  else .null

def serviceFields : List String :=
  ["id", "name", "slug", "service_type", "environment", "criticality", "tier", "status"]

/-- `labels[key] = value` where there is a value. -/
def deriveLabel (labels : Dict) (derived : String × Json) : Dict :=
  if derived.2 = .null then labels else labels.set derived.1 derived.2

/-- `build_alert_match_context(alert, team=route.team, route=route)`. -/
def buildAlertMatchContext (alert : Dict) (route : Route) : Dict :=
  let labels := getMapping alert ["labels", "common_labels"]
  let payload := getMapping alert ["payload", "payload_summary"]
  let annotations :=
    match getMapping alert ["annotations"] with
    | [] => (Dict.getD payload "annotations").asDict
    | annotations => annotations
  let service := getValue alert "service"
  let severity := getValue alert "severity"
  let status := getValue alert "status" (.str "firing")
  let source := getValue alert "source"
  let labels := [("severity", severity), ("status", status), ("source", source),
    ("team_id", (getValue alert "team_id").orElse (.int route.team.id)),
    ("route_id", (getValue alert "route_id").orElse (.int route.id)),
    ("service_id", (getValue alert "service_id").orElse (getValue service.asDict "id"))].foldl
      deriveLabel labels
  [("id", getValue alert "id"), ("source", source), ("title", getValue alert "title"),
    ("message", getValue alert "message"), ("severity", severity), ("priority", .null),
    ("status", status), ("labels", .obj labels), ("annotations", .obj annotations),
    ("payload", .obj payload),
    ("team", .obj [("id", .int route.team.id), ("name", .str route.team.name),
      ("slug", .str route.team.slug)]),
    ("route", .obj [("id", .int route.id), ("name", .str route.name), ("slug", .null),
      ("source", .str route.source)]),
    ("service", resourceData service serviceFields)]

/-- The preset and the conditions of a route on a context. -/
abbrev Matching := Route → Dict → Bool

/-- `alert_rule_matches(alert_data, route, team=route.team, route=route)`. -/
def alertRuleMatches (accepts : Matching) (alertData : Dict) (route : Route) : Bool :=
  accepts route (buildAlertMatchContext alertData route)

/-! ## Routes -/

section Routes

variable (db : Entities)

/-- The group that a row points at, where it is active. -/
def groupActive (group : Option Id) : Bool :=
  group.all fun groupId => db.groups.any fun g => g.id = groupId ∧ g.active = true

/-- `is_route_active(route)`. -/
def isRouteActive (route : Route) : Bool :=
  route.enabled && route.team.active && groupActive db route.team.group

/-- `get_active_team_by_slug(slug)`. -/
def getActiveTeamBySlug (slug : String) : Option TeamRow :=
  (db.teams.find? fun t => t.slug = slug ∧ t.deleted = false).filter fun t =>
    t.active && groupActive db t.group

/-- `list_routes(team_id=…, enabled_only=True, source=…, active_only=True)`. -/
def listRoutes (teamId : Option Id) (source : Option String) : List Route :=
  (db.routes.filter fun r => r.deleted = false ∧ r.team.active = true ∧ r.team.deleted = false ∧
    (r.team.group.any fun groupId => groupLive db.groups groupId) = true ∧
    (teamId.all fun id => r.team.id = id) = true ∧
    (source.all fun s => s = "" ∨ r.source = s) = true ∧ r.enabled = true).insertionSort
      fun a b => a.id ≤ b.id

/-- `find_route_for_alert(alert_data)`; a forced route that is gone raises. -/
def findRouteForAlert (accepts : Matching) (alertData : Dict) :
    Except PyError (Option Route) :=
  let source := textIn alertData "source"
  if (alertData.getD "forced_route_id").truthy then
    match (idOf (alertData.getD "forced_route_id")).bind (byId (·.id) db.routes) with
    | none => .error (.other "AlertRouteDoesNotExist")
    | some route =>
      if route.deleted then .error (.other "AlertRouteDoesNotExist")
      else if !isRouteActive db route then .ok none
      else if some route.source ≠ source then .ok none
      else if !alertRuleMatches accepts alertData route then .ok none
      else .ok (some route)
  else
    let first teamId := (listRoutes db teamId source).find? (alertRuleMatches accepts alertData)
    if (alertData.getD "forced_team_id").truthy then
      .ok ((idOf (alertData.getD "forced_team_id")).bind fun teamId => first (some teamId))
    else match textIn alertData "team_slug" with
      | none => .ok (first none)
      | some slug =>
        if slug = "" then .ok (first none)
        else .ok ((getActiveTeamBySlug db slug).bind fun team => first (some team.id))

/-- `_route_for_runtime(alert_data, runtime, current_route=…)`. -/
def routeForRuntime (accepts : Matching) (alertData : Dict) (runtime : Option RuntimeResult)
    (currentRoute : Option Route) : Except PyError (Option Route) :=
  match runtime with
  | none => findRouteForAlert db accepts alertData
  | some runtime =>
    if runtime.routeSelectedByOrchestration then .ok runtime.route
    else if runtime.route.isNone then findRouteForAlert db accepts alertData
    else match currentRoute with
      | none => findRouteForAlert db accepts alertData
      | some route => .ok (some route)

end Routes

/-! ## The keys that are read -/

def routingKeys : List String :=
  ["labels", "common_labels", "payload", "payload_summary", "annotations", "service", "severity",
    "status", "source", "team_id", "route_id", "service_id", "id", "title", "message",
    "forced_route_id", "forced_team_id", "team_slug"]

/-- Two events with the same values under the keys that routing reads. -/
def SameRouting (a b : Dict) : Prop := ∀ key ∈ routingKeys, a.get key = b.get key

section Congruence

variable {a b : Dict}

theorem SameRouting.getD (h : SameRouting a b) (key : String) (hkey : key ∈ routingKeys) :
    a.getD key = b.getD key := by
  unfold Dict.getD
  rw [h key hkey]

theorem SameRouting.getValue (h : SameRouting a b) (key : String) (hkey : key ∈ routingKeys)
    (default : Json) : getValue a key default = getValue b key default := by
  unfold RouteSelection.getValue
  rw [h.getD key hkey]

theorem SameRouting.getMapping (h : SameRouting a b) (names : List String)
    (hnames : ∀ name ∈ names, name ∈ routingKeys) : getMapping a names = getMapping b names := by
  have hmap : names.map (fun name => (RouteSelection.getValue a name).asDict) =
      names.map fun name => (RouteSelection.getValue b name).asDict :=
    List.map_congr_left fun name hname => by rw [h.getValue name (hnames name hname)]
  unfold RouteSelection.getMapping
  rw [hmap]

theorem SameRouting.textIn (h : SameRouting a b) (key : String) (hkey : key ∈ routingKeys) :
    textIn a key = textIn b key := by
  unfold Orchestration.textIn
  rw [h.getD key hkey]

/-- The context is the same for both. -/
theorem SameRouting.context (h : SameRouting a b) (route : Route) :
    buildAlertMatchContext a route = buildAlertMatchContext b route := by
  have hvalue : ∀ key ∈ routingKeys, ∀ default, RouteSelection.getValue a key default =
      RouteSelection.getValue b key default := h.getValue
  unfold buildAlertMatchContext
  rw [h.getMapping ["labels", "common_labels"] (by decide),
    h.getMapping ["payload", "payload_summary"] (by decide),
    h.getMapping ["annotations"] (by decide),
    hvalue "service" (by decide), hvalue "severity" (by decide), hvalue "status" (by decide),
    hvalue "source" (by decide), hvalue "team_id" (by decide), hvalue "route_id" (by decide),
    hvalue "service_id" (by decide), hvalue "id" (by decide), hvalue "title" (by decide),
    hvalue "message" (by decide)]

/-- **Only the routing keys of an event decide its route.** -/
theorem findRouteForAlert_congr (db : Entities) (accepts : Matching) (h : SameRouting a b) :
    findRouteForAlert db accepts a = findRouteForAlert db accepts b := by
  have hmatches : alertRuleMatches accepts a = alertRuleMatches accepts b := by
    funext route
    unfold alertRuleMatches
    rw [h.context route]
  unfold findRouteForAlert
  rw [hmatches, h.textIn "source" (by decide), h.textIn "team_slug" (by decide),
    h.getD "forced_route_id" (by decide), h.getD "forced_team_id" (by decide)]

end Congruence

end IncidentRelay.RouteSelection
