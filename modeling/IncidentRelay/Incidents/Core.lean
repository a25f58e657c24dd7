import IncidentRelay.Lib.PyText
import IncidentRelay.Pending.Row
import IncidentRelay.Tenant

/-!
# Incidents

The rows of incidents and what an operation on one of them writes. An operation reads the
row, checks its arguments against it, and leaves the columns to write (`Changes`) to a
compare-and-swap on the version that the client expects.
-/

namespace IncidentRelay.Incidents

open Json

/-! ## The workflow -/

/-- `VALID_STATUSES` -/
inductive WorkflowStatus where
  | declared
  | investigating
  | identified
  | monitoring
  | resolved
  | closed
  | cancelled
  deriving DecidableEq, Repr

def WorkflowStatus.text : WorkflowStatus → String
  | .declared => "declared"
  | .investigating => "investigating"
  | .identified => "identified"
  | .monitoring => "monitoring"
  | .resolved => "resolved"
  | .closed => "closed"
  | .cancelled => "cancelled"

def WorkflowStatus.all : List WorkflowStatus :=
  [.declared, .investigating, .identified, .monitoring, .resolved, .closed, .cancelled]

/-- The status of a text, where it is one. -/
def WorkflowStatus.ofText (text : String) : Option WorkflowStatus :=
  WorkflowStatus.all.find? (·.text = text)

/-- `STATUS_TRANSITIONS` -/
def statusTransitions : WorkflowStatus → List WorkflowStatus
  | .declared => [.investigating, .cancelled]
  | .investigating => [.identified, .monitoring, .resolved, .cancelled]
  | .identified => [.investigating, .monitoring, .resolved, .cancelled]
  | .monitoring => [.investigating, .resolved, .cancelled]
  | .resolved => [.investigating, .closed]
  | .closed => [.investigating]
  | .cancelled => []

/-- `TERMINAL_STATUSES` -/
def WorkflowStatus.terminal : WorkflowStatus → Bool
  | .closed => true
  | .cancelled => true
  | _ => false

/-- `Incident` -/
structure Incident where
  team : Option Id
  service : Option Id
  priority : Option Id
  assignee : Option Id
  workflowStatus : WorkflowStatus
  title : String
  description : Option String
  declaredBy : Option Id
  declaredAt : Instant
  investigationStartedAt : Option Instant := none
  identifiedAt : Option Instant := none
  monitoringAt : Option Instant := none
  resolvedAt : Option Instant := none
  closedBy : Option Id := none
  closedAt : Option Instant := none
  rowVersion : ℕ := 1
  updatedAt : Instant
  deriving DecidableEq

/-- `IncidentEvent` -/
structure IncidentEvent where
  incident : Id
  eventType : String
  user : Option Id
  data : Json

/-! ## The columns of a write -/

/-- The keyword arguments of `compare_and_swap`. -/
structure Changes where
  title : Option String := none
  description : Option (Option String) := none
  service : Option (Option Id) := none
  priority : Option (Option Id) := none
  assignee : Option (Option Id) := none
  workflowStatus : Option WorkflowStatus := none
  investigationStartedAt : Option Instant := none
  identifiedAt : Option Instant := none
  monitoringAt : Option Instant := none
  resolvedAt : Option (Option Instant) := none
  closedAt : Option (Option Instant) := none
  closedBy : Option (Option Id) := none
  deriving DecidableEq

/-- The row behind `UPDATE … SET …, row_version = row_version + 1`. -/
def Changes.apply (c : Changes) (now : Instant) (i : Incident) : Incident :=
  { i with
    title := c.title.getD i.title
    description := c.description.getD i.description
    service := c.service.getD i.service
    priority := c.priority.getD i.priority
    assignee := c.assignee.getD i.assignee
    workflowStatus := c.workflowStatus.getD i.workflowStatus
    investigationStartedAt := c.investigationStartedAt.orElse fun _ => i.investigationStartedAt
    identifiedAt := c.identifiedAt.orElse fun _ => i.identifiedAt
    monitoringAt := c.monitoringAt.orElse fun _ => i.monitoringAt
    resolvedAt := c.resolvedAt.getD i.resolvedAt
    closedAt := c.closedAt.getD i.closedAt
    closedBy := c.closedBy.getD i.closedBy
    updatedAt := now
    rowVersion := i.rowVersion + 1 }

/-! ## The operations -/

/-- The tables that the arguments are checked against. -/
structure Directory where
  teams : List Team
  /-- the team of an enabled service that is not deleted -/
  services : List (Id × Id)
  /-- the active users that are not deleted -/
  users : List Id
  /-- the active memberships of users in groups -/
  memberships : List (Id × Id)
  /-- the enabled priorities under their slugs -/
  priorities : List (String × Id)
  defaultPriority : Option Id

/-- What an operation leaves to the compare-and-swap: the columns, and the event. -/
structure Write where
  changes : Changes
  eventType : String
  data : Json

inductive Operation where
  | update (title description : Option String) (service : Option Id) (prioritySlug : Option String)
  | assign (assignee : Option Id)
  | transition (status : String)

section Operations

variable (dir : Directory)

/-- `_require_team(team_id)` -/
def requireTeam (teamId : Option Id) : Except String Team :=
  match dir.teams.find? fun t => some t.id = teamId ∧ t.active = true ∧ t.deleted = false with
  | some team => .ok team
  | none => .error "team_id points to missing or inactive team"

/-- `_require_service(service_id, team)` -/
def requireService (serviceId : Id) (team : Team) : Except String Id :=
  match dir.services.find? (·.1 = serviceId) with
  | none => .error "service_id points to missing or disabled service"
  | some (_, owner) =>
    if owner = team.id then .ok serviceId else .error "service belongs to another team"

/-- `_require_user_in_team_group(user_id, team)` -/
def requireUserInTeamGroup (userId : Option Id) (team : Team) : Except String (Option Id) :=
  match userId with
  | none => .ok none
  | some user =>
    if user ∉ dir.users then .error "assignee_id points to missing or inactive user"
    else match team.group with
      | none => .ok (some user)
      | some group =>
        if (user, group) ∈ dir.memberships then .ok (some user)
        else .error "assignee is not a member of the incident group"

/-- `get_priority_by_slug(slug)` -/
def getPriorityBySlug (slug : String) : Option Id :=
  (dir.priorities.find? (·.1 = slug)).map Prod.snd

/-- `str(description).strip() or None` -/
def descriptionOf (text : String) : Option String := if strip text = "" then none else some (strip text)

/-- The names of the columns that an update writes, in order. -/
def Changes.fields (c : Changes) : List String :=
  (if c.description.isSome then ["description"] else []) ++
    (if c.priority.isSome then ["priority"] else []) ++
    (if c.service.isSome then ["service"] else []) ++ (if c.title.isSome then ["title"] else [])

def titleChange (title : Option String) : Except String (Option String) :=
  match title with
  | none => .ok none
  | some text => if strip text = "" then .error "title is required" else .ok (some (strip text))

def serviceChange (service : Option Id) (team : Team) : Except String (Option (Option Id)) :=
  match service with
  | none => .ok none
  | some id => (requireService dir id team).map fun id => some (some id)

def priorityChange (prioritySlug : Option String) : Except String (Option (Option Id)) :=
  match prioritySlug with
  | none => .ok none
  | some slug =>
    match getPriorityBySlug dir slug with
    | none => .error "priority must be an enabled incident priority"
    | some id => .ok (some (some id))

/-- `update_incident(…)` up to its compare-and-swap; `none` where nothing changes. -/
def updateIncident (i : Incident) (title description : Option String) (service : Option Id)
    (prioritySlug : Option String) : Except String (Option Write) := do
  let team ← requireTeam dir i.team
  let title ← titleChange title
  let service ← serviceChange dir service team
  let priority ← priorityChange dir prioritySlug
  let changes : Changes := { title, description := description.map descriptionOf, service, priority }
  if changes.fields.isEmpty then .ok none
  else .ok (some
    { changes
      eventType := "incident_updated"
      data := .obj [("fields", .list (changes.fields.map Json.str))] })

def jsonId : Option Id → Json
  | none => .null
  | some id => .int (id : ℕ)

/-- `assign_incident(…)` up to its compare-and-swap. -/
def assignIncident (i : Incident) (assignee : Option Id) : Except String (Option Write) := do
  let team ← requireTeam dir i.team
  let assignee ← requireUserInTeamGroup dir assignee team
  .ok (some
    { changes := { assignee := some assignee }
      eventType := "incident_assignee_changed"
      data := .obj [("from_user_id", jsonId i.assignee), ("to_user_id", jsonId assignee)] })

/-- The columns of a transition. -/
def transitionChanges (i : Incident) (status : WorkflowStatus) (now : Instant) (user : Option Id) :
    Changes where
  workflowStatus := some status
  investigationStartedAt :=
    if status = .investigating ∧ i.investigationStartedAt = none then some now else none
  identifiedAt := if status = .identified ∧ i.identifiedAt = none then some now else none
  monitoringAt := if status = .monitoring then some now else none
  resolvedAt :=
    if status = .resolved then some (some now)
    else if (i.workflowStatus = .resolved ∨ i.workflowStatus = .closed) ∧ status = .investigating
    then some none
    else none
  closedAt :=
    if status = .closed then some (some now)
    else if i.workflowStatus = .closed ∧ status = .investigating then some none
    else none
  closedBy :=
    if status = .closed then some user
    else if i.workflowStatus = .closed ∧ status = .investigating then some none
    else none

/-- `transition_incident(…)` up to its compare-and-swap. -/
def transitionIncident (i : Incident) (text : String) (now : Instant) (user : Option Id) :
    Except String (Option Write) :=
  match WorkflowStatus.ofText (lower (strip text)) with
  | none => .error "invalid incident workflow status"
  | some status =>
    if status = i.workflowStatus then .ok none
    else if status ∉ statusTransitions i.workflowStatus then
      .error ("cannot change incident status from " ++ i.workflowStatus.text ++ " to " ++ status.text)
    else .ok (some
      { changes := transitionChanges i status now user
        eventType := "incident_status_changed"
        data := .obj [("from", .str i.workflowStatus.text), ("to", .str status.text)] })

/-- An operation of a client up to its compare-and-swap. -/
def Operation.plan (op : Operation) (i : Incident) (now : Instant) (user : Option Id) :
    Except String (Option Write) :=
  match op with
  | .update title description service slug => updateIncident dir i title description service slug
  | .assign assignee => assignIncident dir i assignee
  | .transition status => transitionIncident i status now user

/-- `_resume_linked_incident(group, alert)` up to its compare-and-swap. -/
def resumeLinkedIncident (i : Incident) (group alert : Id) (now : Instant) : Option Write :=
  if i.workflowStatus = .resolved ∨ i.workflowStatus = .monitoring then
    some
      { changes :=
          { workflowStatus := some .investigating
            resolvedAt := some none
            investigationStartedAt := if i.investigationStartedAt = none then some now else none }
        eventType := "incident_reopened_by_alert_group"
        data := .obj [("from", .str i.workflowStatus.text), ("to", .str "investigating"),
          ("alert_group_id", .int (group : ℕ)), ("new_alert_id", .int (alert : ℕ)),
          ("source", .str "alert_group_reopen")] }
  else none

/-- `create_incident(…)` -/
def createIncident (teamId : Id) (title : String) (user service : Option Id)
    (prioritySlug : Option String) (assignee : Option Id) (description : Option String)
    (now : Instant) : Except String Incident := do
  let team ← requireTeam dir (some teamId)
  let service ← (service.mapM fun id => requireService dir id team)
  let assignee ← requireUserInTeamGroup dir assignee team
  let title := strip title
  if title = "" then .error "title is required"
  else if 255 < title.length then .error "title must not exceed 255 characters"
  else
    let priority := match prioritySlug with
      | some slug => if slug = "" then dir.defaultPriority else getPriorityBySlug dir slug
      | none => dir.defaultPriority
    match priority with
    | none => .error "priority is not available"
    | some priority =>
      .ok
        { team := some team.id, service, priority := some priority, assignee
          workflowStatus := .declared, title
          description := description.bind fun text => if text = "" then none else some (strip text)
          declaredBy := user, declaredAt := now, updatedAt := now }

end Operations

end IncidentRelay.Incidents
