import IncidentRelay.Lib.Json
import IncidentRelay.Tenant
import Mathlib.Data.List.Dedup
import Mathlib.Data.List.Sort

/-!
# Authorization

The group, membership and team tables, the request principal, and the functions
of the authorization service that decide what the principal may touch.
-/

namespace IncidentRelay.Rbac

def groupViewerRole : String := "viewer"
def groupEditorRole : String := "editor"
def groupUserAdminRole : String := "user_admin"
def teamViewerRole : String := "viewer"
def teamResponderRole : String := "responder"
def teamManagerRole : String := "manager"

def groupReadRoles : List String := [groupViewerRole, groupEditorRole, groupUserAdminRole]
def groupWriteRoles : List String := [groupEditorRole, groupUserAdminRole]
def groupUserAdminRoles : List String := [groupUserAdminRole]
def teamReadRoles : List String := [teamViewerRole, teamResponderRole, teamManagerRole]
def teamRespondRoles : List String := [teamResponderRole, teamManagerRole]
def teamWriteRoles : List String := [teamManagerRole]

/-! ## Tables -/

structure User where
  id : Id
  isAdmin : Bool
  active : Bool
  activeGroupId : Option Id
  deriving DecidableEq

structure UserGroup where
  user : Id
  group : Id
  role : String
  active : Bool
  deriving DecidableEq

structure TeamUser where
  team : Id
  user : Id
  role : String
  active : Bool
  deriving DecidableEq

structure ApiToken where
  name : String
  tokenPrefix : String
  tokenHash : String
  scopes : List String
  user : Option Id
  group : Option Id
  expiresAt : Option Int
  deriving DecidableEq

/-- The tables, each in the order of its ids. A user has one membership in a
group at most. -/
structure Db where
  users : List User
  groups : List Group
  userGroups : List UserGroup
  teams : List Team
  teamUsers : List TeamUser
  memberships_nodup : (userGroups.map fun m => (m.user, m.group)).Nodup

/-- What the authentication left on the request. -/
structure Request where
  currentUser : Option User
  currentApiToken : Option ApiToken

/-- The principal `authenticate_api_token` sets for an accepted token: a token
whose user is inactive leaves no user on the request. -/
def authenticateApiToken (db : Db) (token : ApiToken) : Request where
  currentUser := (token.user.bind fun id => db.users.find? (·.id = id)).filter (·.active)
  currentApiToken := some token

/-- An error response: its JSON body and its status. -/
structure Response where
  body : Dict
  status : Nat
  deriving DecidableEq

/-- `DoesNotExist`. -/
inductive DbError where
  | doesNotExist
  deriving DecidableEq

namespace Db

/-! ## Repositories -/

/-- A group that is active and not deleted. -/
def groupLive (db : Db) (groupId : Id) : Bool :=
  IncidentRelay.groupLive db.groups groupId

/-- `list_groups(active_only=True)`. -/
def listActiveGroups (db : Db) : List Id :=
  (db.groups.filter fun g => g.deleted = false ∧ g.active = true).map (·.id)

/-- `list_groups_for_user`, down to the ids. -/
def listGroupsForUser (db : Db) (user : User) (writeRequired manageUsersRequired : Bool) :
    List Id :=
  if user.isAdmin then db.listActiveGroups
  else
    (db.userGroups.filter fun m =>
      m.user = user.id ∧ m.active = true ∧ db.groupLive m.group = true ∧
        (if manageUsersRequired then m.role = groupUserAdminRole
         else if writeRequired then m.role ∈ groupWriteRoles
         else True)).map (·.group)

/-- `get_user_group_role`. -/
def getUserGroupRole (db : Db) (userId groupId : Id) : Option String :=
  (db.userGroups.find? fun m =>
    m.user = userId ∧ m.group = groupId ∧ m.active = true ∧ db.groupLive m.group = true).map
      (·.role)

/-- `list_teams` of some groups. -/
def listTeams (db : Db) (activeOnly : Bool) (groupIds : List Id) : List Id :=
  (db.teams.filter fun t =>
    t.deleted = false ∧ t.group.any (· ∈ groupIds) = true ∧ (activeOnly → t.active = true)).map
      (·.id)

/-- `list_teams_for_user` of some groups. -/
def listTeamsForUser (db : Db) (userId : Id) (roles : List String) (groupIds : List Id)
    (activeOnly : Bool) : List Id :=
  (db.teams.filter fun t =>
    t.deleted = false ∧ t.group.any (· ∈ groupIds) = true ∧ (activeOnly → t.active = true) ∧
      db.teamUsers.any fun m =>
        m.team = t.id ∧ m.user = userId ∧ m.active = true ∧ m.role ∈ roles).map (·.id)

/-- `get_team`. -/
def getTeam (db : Db) (teamId : Id) : Except DbError Team :=
  match db.teams.find? fun t => t.id = teamId ∧ t.deleted = false with
  | none => .error .doesNotExist
  | some team => .ok team

/-- `get_user_team_role`. -/
def getUserTeamRole (db : Db) (userId teamId : Id) : Option String :=
  (db.teamUsers.find? fun m => m.user = userId ∧ m.team = teamId ∧ m.active = true).map (·.role)

end Db

/-! ## What the principal may list -/

variable (db : Db) (req : Request)

/-- `is_admin_user`. -/
def isAdminUser (user : Option User := none) : Bool :=
  (user <|> req.currentUser).any (·.isAdmin)

/-- `token_group_filter`. -/
def tokenGroupFilter (groupIds : List Id) : List Id :=
  match req.currentApiToken.bind (·.group) with
  | none => groupIds
  | some tokenGroup => groupIds.filter (· = tokenGroup)

/-- `get_allowed_group_ids`. -/
def getAllowedGroupIds (user : Option User := none)
    (writeRequired manageUsersRequired useActiveGroup : Bool := false) : List Id :=
  match user <|> req.currentUser with
  | none => (req.currentApiToken.bind (·.group)).toList
  | some user =>
    if user.isAdmin then tokenGroupFilter req db.listActiveGroups
    else
      let groupIds := db.listGroupsForUser user writeRequired manageUsersRequired
      match user.activeGroupId with
      | some active =>
        if useActiveGroup ∧ active ∈ groupIds then tokenGroupFilter req [active]
        else tokenGroupFilter req groupIds
      | none => tokenGroupFilter req groupIds

/-- `get_managed_group_ids`. -/
def getManagedGroupIds (user : Option User := none) (useActiveGroup : Bool := true) : List Id :=
  getAllowedGroupIds db req user false true useActiveGroup

/-- `get_allowed_team_ids`. -/
def getAllowedTeamIds (user : Option User := none)
    (writeRequired respondRequired : Bool := false)
    (useActiveGroup activeOnly : Bool := true) : List Id :=
  let user := user <|> req.currentUser
  let groupIds := getAllowedGroupIds db req user false false useActiveGroup
  if groupIds.isEmpty then []
  else
    match user with
    | none => db.listTeams activeOnly groupIds
    | some u =>
      if u.isAdmin then db.listTeams activeOnly groupIds
      else
        let managed := db.listTeams activeOnly (getManagedGroupIds db req user useActiveGroup)
        let roles :=
          if writeRequired then teamWriteRoles
          else if respondRequired then teamRespondRoles
          else teamReadRoles
        let member := db.listTeamsForUser u.id roles groupIds activeOnly
        ((managed ++ member).dedup).insertionSort (· ≤ ·)

/-! ## Checks of one resource -/

/-- The shape of the three group checks. -/
def canGroup (roles : List String) (user : Option User) (groupId : Id) : Bool :=
  match user with
  | none => false
  | some user =>
    user.isAdmin || (db.getUserGroupRole user.id groupId).any (· ∈ roles)

def canReadGroup (user : Option User) (groupId : Id) : Bool :=
  canGroup db groupReadRoles user groupId

def canWriteGroup (user : Option User) (groupId : Id) : Bool :=
  canGroup db groupWriteRoles user groupId

def canManageGroupUsers (user : Option User) (groupId : Id) : Bool :=
  canGroup db groupUserAdminRoles user groupId

/-- The role of a user in a team is one of these. -/
def hasTeamRole (roles : List String) (user : User) (teamId : Id) : Bool :=
  (db.getUserTeamRole user.id teamId).any (· ∈ roles)

/-- The shape of the three team checks: nobody is refused, an administrator
accepted, and for anybody else `check` decides on the group of the team. -/
def canTeam (check : User → Id → Bool) (user : Option User) (teamId : Id) :
    Except DbError Bool :=
  match user with
  | none => .ok false
  | some user =>
    if user.isAdmin then .ok true
    else do
      let team ← db.getTeam teamId
      match team.group with
      | none => .ok false
      | some group => .ok (check user group)

def canReadTeam (user : Option User) (teamId : Id) : Except DbError Bool :=
  canTeam db (fun u group =>
    if canManageGroupUsers db (some u) group then true
    else if !canReadGroup db (some u) group then false
    else hasTeamRole db teamReadRoles u teamId) user teamId

def canRespondTeam (user : Option User) (teamId : Id) : Except DbError Bool :=
  canTeam db (fun u group =>
    if !canReadGroup db (some u) group then false
    else hasTeamRole db teamRespondRoles u teamId) user teamId

def canWriteTeam (user : Option User) (teamId : Id) : Except DbError Bool :=
  canTeam db (fun u group =>
    if !canReadGroup db (some u) group then false
    else if canManageGroupUsers db (some u) group then true
    else hasTeamRole db teamWriteRoles u teamId) user teamId

/-! ## Required access: an error response, or nothing when the access is granted -/

def requireGroupRead (groupId : Id) : Option Response :=
  if groupId ∈ getAllowedGroupIds db req none false false false then none
  else some ⟨[("error", .str "group_access_denied"),
              ("message", .str "Access to this group is denied")], 403⟩

def requireGroupWrite (groupId : Id) : Option Response :=
  if isAdminUser req then none
  else if canWriteGroup db req.currentUser groupId then none
  else some ⟨[("error", .str "group_write_required"),
              ("message", .str "Group editor or group admin role is required for this group")], 403⟩

/-- The shape of the three team requirements. -/
def requireTeam (can : Option User → Id → Except DbError Bool) (message : String) (teamId : Id) :
    Except DbError (Option Response) :=
  if isAdminUser req then .ok none
  else do
    if ← can req.currentUser teamId then .ok none
    else .ok (some ⟨[("error", .str message)], 403⟩)

def requireTeamRead (teamId : Id) : Except DbError (Option Response) :=
  requireTeam req (canReadTeam db) "Access to this team is denied" teamId

def requireTeamRespond (teamId : Id) : Except DbError (Option Response) :=
  requireTeam req (canRespondTeam db) "Team responder role is required for this team" teamId

def requireTeamWrite (teamId : Id) : Except DbError (Option Response) :=
  requireTeam req (canWriteTeam db) "Team manager role is required for this team" teamId

end IncidentRelay.Rbac
