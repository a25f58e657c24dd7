import IncidentRelay.Lib.IdTable
import IncidentRelay.Lib.PyText
import IncidentRelay.Pending.Row
import IncidentRelay.Rbac.Authorization
import Mathlib.Data.Prod.Lex

/-!
# Maintenance windows

The windows and their scopes, who may manage them, the four commands, and the two requests
that return windows.
-/

namespace IncidentRelay.Maintenance

open Rbac (Db DbError User Request Response canReadTeam canWriteGroup canWriteTeam requireTeamRead)

/-! ## Rows -/

inductive ScopeType where
  | group | team | service | route
  deriving DecidableEq

/-- What a window applies to: the row of its type. -/
structure Scope where
  scopeType : ScopeType
  group : Option Id
  team : Option Id
  service : Option Id
  route : Option Id
  deriving DecidableEq

structure ScopeRow where
  id : ℕ
  window : ℕ
  scope : Scope
  createdAt : Instant
  deriving DecidableEq

/-- What a request may set. -/
structure WindowData where
  name : String
  description : Option String
  behavior : String
  timezone : String
  rrule : Option String
  startsAt : Instant
  endsAt : Instant
  enabled : Bool
  applyToExisting : Bool
  reactivateOnEnd : Bool
  deriving DecidableEq

structure Window extends WindowData where
  id : ℕ
  group : Option Id
  team : Option Id
  status : String
  reconciledAt : Option Instant
  cancelledBy : Option Id
  cancelledAt : Option Instant
  cancelReason : Option String
  deleted : Bool
  deletedAt : Option Instant
  deriving DecidableEq

/-- A row of the services or of the routes, down to its team. -/
structure TeamRow where
  id : Id
  team : Id
  deriving DecidableEq

/-- What the windows refer to. -/
structure Tenancy where
  db : Db
  services : List TeamRow
  routes : List TeamRow

structure Store where
  tenancy : Tenancy
  windows : IdTable Window (·.id)
  scopes : IdTable ScopeRow (·.id)

namespace Tenancy

variable (t : Tenancy)

def service (id : Id) : Option TeamRow := t.services.find? (·.id = id)

def route (id : Id) : Option TeamRow := t.routes.find? (·.id = id)

end Tenancy

namespace Scope

variable (s : Scope)

/-- The column that the type names. -/
def targetId : Option Id :=
  match s.scopeType with
  | .group => s.group
  | .team => s.team
  | .service => s.service
  | .route => s.route

/-- The rows that the columns refer to are there. -/
def references (t : Tenancy) : Bool :=
  s.group.all (fun id => t.db.groups.any (·.id = id)) &&
    s.team.all (fun id => t.db.teams.any (·.id = id)) &&
    s.service.all (fun id => (t.service id).isSome) &&
    s.route.all (fun id => (t.route id).isSome)

end Scope

/-- What a command raises. -/
inductive CommandError where
  | permission (message : String)
  | value (message : String)
  | lookup (message : String)
  | doesNotExist
  | integrity
  deriving DecidableEq

def CommandError.ofDb : DbError → CommandError
  | .doesNotExist => .doesNotExist

/-- `DoesNotExist` goes through a command. -/
def lift {α : Type} (x : Except DbError α) : Except CommandError α := x.mapError .ofDb

/-! ## Normalization -/

/-- What the code reads beside the database. -/
structure Environment where
  /-- `_local_now(timezone_name)` -/
  localNow : String → Instant
  /-- `rrulestr(text, dtstart=starts_at)` raises nothing. -/
  rrulestr : String → Instant → Bool
  /-- `get_effective_window_status(window)` -/
  effectiveStatus : Window → String

def validBehaviors : List String :=
  ["suppress_notifications", "suppress_incident", "create_maintenance_incident",
    "pause_escalation_only"]

/-- A request body behind its schema: a field that makes a difference when it is sent as
null is an option of an option. -/
structure WindowPayload where
  name : Option String := none
  description : Option String := none
  behavior : Option String := none
  timezone : Option (Option String) := none
  rrule : Option (Option String) := none
  startsAt : Option (Option Instant) := none
  endsAt : Option (Option Instant) := none
  enabled : Option Bool := none
  applyToExisting : Option Bool := none
  reactivateOnEnd : Option Bool := none
  scopes : Option (Option (List Scope)) := none

/-- `value or default`. -/
def orDefault (value : Option String) (default : String) : String :=
  match value with
  | none | some "" => default
  | some text => text

/-- The text of a rule behind its name. -/
def withoutRulePrefix (text : String) : String :=
  if upper (takeText text 6) = "RRULE:" then strip (String.ofList (text.toList.drop 6)) else text

/-- `normalize_rrule(value, starts_at)`. -/
def normalizeRrule (env : Environment) (value : Option String) (startsAt : Instant) :
    Except CommandError (Option String) :=
  let text := strip (value.getD "")
  if text = "" then .ok none
  else if '\n' ∈ text.toList ∨ '\r' ∈ text.toList then
    .error (.value "rrule must be a single RRULE value")
  else
    let text := withoutRulePrefix text
    if text = "" then .ok none
    else if env.rrulestr text startsAt then .ok (some text)
    else .error (.value "rrule must be a valid RFC5545 RRULE")

/-- `get_payload_datetime(payload, field_name)`. -/
def getPayloadDatetime (fieldName : String) (value : Option (Option Instant))
    (existing : Option Instant) : Except CommandError Instant :=
  match value, existing with
  | some (some moment), _ => .ok moment
  | some none, _ | none, none => .error (.value (fieldName ++ " is required"))
  | none, some moment => .ok moment

def ScopeType.name : ScopeType → String
  | .group => "group"
  | .team => "team"
  | .service => "service"
  | .route => "route"

/-- `normalize_scopes(scopes)`. -/
def normalizeScopes (scopes : Option (List Scope)) : Except CommandError (List Scope) :=
  match scopes with
  | none | some [] => .error (.value "at least one scope is required")
  | some scopes =>
    match scopes.find? fun s => s.targetId.isNone with
    | none => .ok scopes
    | some s => .error
        (.value (s.scopeType.name ++ "_id is required for " ++ s.scopeType.name ++ " scope"))

/-- `normalize_window_payload(payload)`, partial where there is a window. -/
def normalizeWindowPayload (env : Environment) (existing : Option Window) (p : WindowPayload) :
    Except CommandError (WindowData × Option (List Scope)) := do
  let name := strip ((p.name <|> existing.map (·.name)).getD "")
  if name = "" then .error (.value "name is required")
  let description :=
    ((p.description <|> existing.bind (·.description)).map strip).filter (· ≠ "")
  let behavior :=
    strip (orDefault (p.behavior <|> existing.map (·.behavior)) "suppress_notifications")
  if behavior ∉ validBehaviors then .error (.value "behavior is invalid")
  let timezone := orDefault
    (some (strip (orDefault (p.timezone.join <|> existing.map (·.timezone)) "UTC"))) "UTC"
  let startsAt ← getPayloadDatetime "starts_at" p.startsAt (existing.map (·.startsAt))
  let endsAt ← getPayloadDatetime "ends_at" p.endsAt (existing.map (·.endsAt))
  if endsAt ≤ startsAt then .error (.value "ends_at must be greater than starts_at")
  -- an old window may be edited where its times are not
  if (existing.isNone ∨ p.startsAt.isSome ∨ p.endsAt.isSome ∨ p.timezone.isSome) ∧
      endsAt ≤ env.localNow timezone then
    .error (.value "ends_at must be in the future")
  let rrule ← match p.rrule with
    | some value => normalizeRrule env value startsAt
    | none => .ok (existing.bind (·.rrule))
  let rrule ← normalizeRrule env rrule startsAt
  let applyToExisting := (p.applyToExisting <|> existing.map (·.applyToExisting)).getD false
  let reactivateOnEnd := (p.reactivateOnEnd <|> existing.map (·.reactivateOnEnd)).getD true
  if behavior = "suppress_incident" ∧ applyToExisting = true then
    .error (.value "apply_to_existing is not supported for suppress_incident behavior")
  let enabled := (p.enabled <|> existing.map (·.enabled)).getD true
  let scopes ← match p.scopes, existing with
    | some scopes, _ => (normalizeScopes scopes).map some
    | none, some _ => .ok none
    | none, none => (normalizeScopes none).map some
  return (⟨name, description, behavior, timezone, rrule, startsAt, endsAt, enabled,
    applyToExisting, reactivateOnEnd⟩, scopes)

/-! ## Who may do what -/

section Access

variable (t : Tenancy)

structure Owner where
  group : Option Id := none
  team : Option Id := none

/-- The team of a service or of a route, and its group. -/
def ownerOfTeam (teamId : Id) : Except DbError Owner :=
  match t.db.teams.find? (·.id = teamId) with
  | none => .error .doesNotExist
  | some team => .ok ⟨team.group, some team.id⟩

/-- The owner that one scope names. -/
def ownerOfScope (scope : Scope) : Except DbError (Option Owner) :=
  match scope.scopeType, scope.targetId with
  | _, none => .ok none
  | .group, some id => .ok ((t.db.groups.find? (·.id = id)).map fun group => ⟨some group.id, none⟩)
  | .team, some id =>
    .ok ((t.db.teams.find? (·.id = id)).map fun team => ⟨team.group, some team.id⟩)
  | .service, some id => ((t.service id).map (·.team)).mapM (ownerOfTeam t)
  | .route, some id => ((t.route id).map (·.team)).mapM (ownerOfTeam t)

/-- `_window_owner_from_scopes(scopes)`: the first scope that names one. -/
def windowOwnerFromScopes : List Scope → Except DbError Owner
  | [] => .ok {}
  | scope :: scopes => do
    match ← ownerOfScope t scope with
    | some owner => .ok owner
    | none => windowOwnerFromScopes scopes

/-- `_can_manage_scope(current_user, scope)`. -/
def canManageScope (user : User) (scope : Scope) : Except DbError Bool :=
  if user.isAdmin then .ok true
  else
    match scope.scopeType, scope.targetId with
    | _, none => .ok false
    | .group, some id => .ok (canWriteGroup t.db (some user) id)
    | .team, some id => canWriteTeam t.db (some user) id
    | .service, some id => (t.service id).elim (.ok false) fun row =>
        canWriteTeam t.db (some user) row.team
    | .route, some id => (t.route id).elim (.ok false) fun row =>
        canWriteTeam t.db (some user) row.team

def accessDenied : CommandError := .permission "access denied"

/-- `_ensure_can_manage_scopes(current_user, scopes)`. -/
def ensureCanManageScopes (user : User) (scopes : List Scope) : Except CommandError Unit :=
  scopes.forM fun scope => do
    if ← lift (canManageScope t user scope) then .ok () else .error accessDenied

/-- One of the scopes may be managed. -/
def canManageSome (user : User) : List Scope → Except DbError Bool
  | [] => .ok false
  | scope :: scopes => do
    if ← canManageScope t user scope then .ok true else canManageSome user scopes

/-- A check of what a window may have. -/
def checkIf (id : Option Id) (check : Id → Except DbError Bool) : Except DbError Bool :=
  id.elim (.ok false) check

/-- `_ensure_can_manage_existing_window(current_user, window)`. -/
def ensureCanManageExistingWindow (user : User) (window : Window) (scopes : List Scope) :
    Except CommandError Unit :=
  if user.isAdmin then .ok ()
  else do
    if ← lift (checkIf window.team (canWriteTeam t.db (some user))) then .ok ()
    else if ← lift (checkIf window.group fun id => .ok (canWriteGroup t.db (some user) id)) then
      .ok ()
    else if ← lift (canManageSome t user scopes) then .ok ()
    else .error accessDenied

/-- `_get_user_or_raise(user_id)`. -/
def getUserOrRaise (userId : Option Id) : Except CommandError User :=
  match userId.bind fun id => t.db.users.find? (·.id = id) with
  | none => .error (.permission "authentication required")
  | some user => .ok user

end Access

/-! ## Repository -/

namespace Store

variable (s : Store)

/-- The scopes of a window, in the order of their ids. -/
def scopesOf (windowId : ℕ) : List Scope :=
  (s.scopes.rows.filter (·.window = windowId)).map (·.scope)

/-- `get_maintenance_window(window_id)`. -/
def getMaintenanceWindow (windowId : ℕ) : Option Window :=
  (s.windows.get windowId).filter fun w => !w.deleted

/-- `_lock_maintenance_window(window_id)`: the same row, for the rest of the transaction. -/
def lockMaintenanceWindow (windowId : ℕ) : Option Window := s.getMaintenanceWindow windowId

def saveWindow (w : Window) : Store := { s with windows := s.windows.save w }

/-- `MaintenanceWindow.create(…)` -/
def createMaintenanceWindow (data : WindowData) (owner : Owner) : Store × Window :=
  let window : Window :=
    { data with
      id := s.windows.next
      group := owner.group
      team := owner.team
      status := "scheduled"
      reconciledAt := none
      cancelledBy := none
      cancelledAt := none
      cancelReason := none
      deleted := false
      deletedAt := none }
  ({ s with windows := s.windows.insert window rfl }, window)

/-- `MaintenanceWindowScope.create(…)` -/
def createScope (windowId : ℕ) (now : Instant) (scope : Scope) : Store :=
  { s with scopes := s.scopes.insert ⟨s.scopes.next, windowId, scope, now⟩ rfl }

/-- `replace_maintenance_window_scopes(window_id, scopes)`; a reference to no row is
refused by the database. -/
def replaceMaintenanceWindowScopes (windowId : ℕ) (scopes : List Scope) (now : Instant) :
    Except CommandError Store :=
  if scopes.all (·.references s.tenancy) then
    .ok (scopes.foldl (fun s => s.createScope windowId now)
      { s with scopes := s.scopes.delete (·.window = windowId) })
  else .error .integrity

end Store

/-! ## Commands -/

inductive Command where
  | create (payload : WindowPayload)
  | update (windowId : ℕ) (payload : WindowPayload)
  | cancel (windowId : ℕ) (reason : Option String)
  | delete (windowId : ℕ)

section Commands

variable (env : Environment) (s : Store) (userId : Option Id) (now : Instant)

def notFound : CommandError := .lookup "maintenance window was not found"

/-- The window of a command, locked. -/
def lockOrRaise (windowId : ℕ) : Except CommandError Window :=
  match s.lockMaintenanceWindow windowId with
  | none => .error notFound
  | some window => .ok window

/-- `create_maintenance_window(payload)`. -/
def createMaintenanceWindow (payload : WindowPayload) : Except CommandError (Store × Window) := do
  let user ← getUserOrRaise s.tenancy userId
  let (data, scopes) ← normalizeWindowPayload env none payload
  let scopes := scopes.getD []
  ensureCanManageScopes s.tenancy user scopes
  let owner ← lift (windowOwnerFromScopes s.tenancy scopes)
  let created := s.createMaintenanceWindow data owner
  let t ← created.1.replaceMaintenanceWindowScopes created.2.id scopes now
  return (t, created.2)

/-- `update_maintenance_window(window_id, payload)`. -/
def updateMaintenanceWindow (windowId : ℕ) (payload : WindowPayload) :
    Except CommandError (Store × Window) := do
  let user ← getUserOrRaise s.tenancy userId
  let window ← lockOrRaise s windowId
  let (data, scopes) ← normalizeWindowPayload env (some window) payload
  match scopes with
  | some scopes =>
    ensureCanManageScopes s.tenancy user scopes
    let owner ← lift (windowOwnerFromScopes s.tenancy scopes)
    let window := { window with
      toWindowData := data, group := owner.group, team := owner.team, reconciledAt := none }
    let t ← (s.saveWindow window).replaceMaintenanceWindowScopes windowId scopes now
    return (t, window)
  | none =>
    ensureCanManageExistingWindow s.tenancy user window (s.scopesOf windowId)
    let window := { window with toWindowData := data, reconciledAt := none }
    return (s.saveWindow window, window)

/-- `cancel_maintenance_window(window_id)`. -/
def cancelMaintenanceWindow (windowId : ℕ) (reason : Option String) :
    Except CommandError (Store × Window) := do
  let user ← getUserOrRaise s.tenancy userId
  let window ← lockOrRaise s windowId
  ensureCanManageExistingWindow s.tenancy user window (s.scopesOf windowId)
  let window := { window with
    status := "cancelled"
    reconciledAt := none
    enabled := false
    cancelledBy := some user.id
    cancelledAt := some now
    cancelReason := (reason.map strip).filter (· ≠ "") }
  return (s.saveWindow window, window)

/-- `delete_maintenance_window(window_id)`. -/
def deleteMaintenanceWindow (windowId : ℕ) : Except CommandError (Store × Window) := do
  let user ← getUserOrRaise s.tenancy userId
  let window ← lockOrRaise s windowId
  ensureCanManageExistingWindow s.tenancy user window (s.scopesOf windowId)
  let window := { window with
    deleted := true, deletedAt := some now, enabled := false, reconciledAt := none }
  return (s.saveWindow window, window)

/-- A command is a transaction: where it raises, nothing is written. -/
def Command.run : Command → Except CommandError (Store × Window)
  | .create payload => createMaintenanceWindow env s userId now payload
  | .update windowId payload => updateMaintenanceWindow env s userId now windowId payload
  | .cancel windowId reason => cancelMaintenanceWindow s userId now windowId reason
  | .delete windowId => deleteMaintenanceWindow s userId now windowId

end Commands

/-! ## Requests -/

/-- The first error, or what is checked next. -/
def thenCheck (first next : Except DbError (Option Response)) : Except DbError (Option Response) :=
  match first with
  | .ok none => next
  | .ok (some response) => .ok (some response)
  | .error e => .error e

section Requests

variable (env : Environment) (s : Store) (req : Request)

/-- The check of the team of a row that a scope refers to. -/
def requireRowRead (row : Id → Option TeamRow) (id : Id) : Except DbError (Option Response) :=
  match row id with
  | none => .error .doesNotExist
  | some row => requireTeamRead s.tenancy.db req row.team

/-- `_check_window_read(window)`. -/
def checkWindowRead : List Scope → Except DbError (Option Response)
  | [] => .ok none
  | scope :: scopes =>
    thenCheck (scope.team.elim (.ok none) (requireTeamRead s.tenancy.db req)) <|
    thenCheck (scope.service.elim (.ok none) (requireRowRead s req s.tenancy.service)) <|
    thenCheck (scope.route.elim (.ok none) (requireRowRead s req s.tenancy.route)) <|
    checkWindowRead scopes

/-- The query parameters of a list request. -/
structure WindowFilter where
  group : Option Id := none
  team : Option Id := none
  service : Option Id := none
  route : Option Id := none
  includeDeleted : Bool := false
  includeFinished : Bool := true

/-- The scope is one that the parameters name. -/
def WindowFilter.names (f : WindowFilter) (scope : Scope) : Bool :=
  f.group.any (scope.group = some ·) || f.team.any (scope.team = some ·) ||
    f.service.any (scope.service = some ·) || f.route.any (scope.route = some ·)

def WindowFilter.isPlain (f : WindowFilter) : Bool :=
  f.group.isNone && f.team.isNone && f.service.isNone && f.route.isNone

/-- `maintenance_repo.list_maintenance_windows(…)`. -/
def Store.listMaintenanceWindows (f : WindowFilter) : List Window :=
  ((s.windows.rows.filter fun w =>
    (f.includeDeleted || !w.deleted) && (f.isPlain || (s.scopesOf w.id).any f.names) &&
      (f.includeFinished || env.effectiveStatus w ≠ "finished"))).insertionSort fun v w =>
    toLex (w.startsAt, w.id) ≤ toLex (v.startsAt, v.id)

/-- The windows without an error, in their order. -/
def visibleWindows : List Window → Except DbError (List Window)
  | [] => .ok []
  | w :: ws => do
    match ← checkWindowRead s req (s.scopesOf w.id) with
    | none => return w :: (← visibleWindows ws)
    | some _ => visibleWindows ws

/-- `list_maintenance_windows()`: an error response, or the windows. -/
def listWindows (f : WindowFilter) : Except DbError (Except Response (List Window)) := do
  match ← f.team.elim (.ok none) (requireTeamRead s.tenancy.db req) with
  | some response => return .error response
  | none => return .ok (← visibleWindows s req (s.listMaintenanceWindows env f))

/-- `get_window(window_id)`: the window is returned where it is there and nothing is in the
way. -/
def getWindow (windowId : ℕ) : Except DbError (Option (Except Response Window)) :=
  match s.getMaintenanceWindow windowId with
  | none => .ok none
  | some window => do
    match ← checkWindowRead s req (s.scopesOf window.id) with
    | some response => return some (.error response)
    | none => return some (.ok window)

end Requests

end IncidentRelay.Maintenance
