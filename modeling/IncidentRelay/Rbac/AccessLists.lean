import IncidentRelay.Rbac.Authorization

/-!
# Access lists and access checks

A list of teams is selected by memberships, and the access to one team is checked by roles.
Each of the three levels has a list and a check of its own.

 * `mem_getAllowedTeamIds`, `can_iff`: the two sides, by the role in the group of the team.
 * `access_agrees_iff`: when they agree.
-/

namespace IncidentRelay.Rbac

/-- The tables with their keys: one row of an id, one membership of a user in a team. -/
structure KeyedDb extends Db where
  teams_nodup : (teams.map (·.id)).Nodup
  teamUsers_nodup : (teamUsers.map fun m => (m.user, m.team)).Nodup

inductive AccessLevel where
  | read | respond | write
  deriving DecidableEq

namespace AccessLevel

/-- The team roles of a level. -/
def roles : AccessLevel → List String
  | .read => teamReadRoles
  | .respond => teamRespondRoles
  | .write => teamWriteRoles

/-- `get_allowed_team_ids(user)`, with `respond_required` or with `write_required`. -/
def allowedTeamIds (level : AccessLevel) (db : Db) (req : Request) (user : User)
    (useActiveGroup : Bool) : List Id :=
  getAllowedTeamIds db req (some user) (level = .write) (level = .respond) useActiveGroup

/-- `can_read_team`, `can_respond_team` or `can_write_team` -/
def can (level : AccessLevel) (db : Db) (user : User) (teamId : Id) : Except DbError Bool :=
  match level with
  | .read => canReadTeam db (some user) teamId
  | .respond => canRespondTeam db (some user) teamId
  | .write => canWriteTeam db (some user) teamId

end AccessLevel

/-! ## Rows by their keys -/

section Keys

variable {α κ : Type}

/-- In rows with a key each, the row that is found is the one with the key. -/
theorem find?_key_eq_some {key : α → κ} {rows : List α} (hkeys : (rows.map key).Nodup) {k : κ}
    {p : α → Bool} (hp : ∀ r, p r = true → key r = k) {r : α} :
    rows.find? p = some r ↔ r ∈ rows ∧ p r = true := by
  constructor
  · intro h
    exact ⟨List.mem_of_find?_eq_some h, List.find?_some h⟩
  · rintro ⟨hr, hpr⟩
    cases hfind : rows.find? p with
    | none => exact absurd hpr (List.find?_eq_none.mp hfind r hr)
    | some found =>
      have hkey : key found = key r := (hp found (List.find?_some hfind)).trans (hp r hpr).symm
      exact congrArg some (List.inj_on_of_nodup_map hkeys (List.mem_of_find?_eq_some hfind) hr hkey)

end Keys

section

variable {db : KeyedDb} {user : User} {team : Team} {group : Id} {role : String}

/-- The role in a group is that of the active membership of a live group. -/
theorem getUserGroupRole_eq_some : db.getUserGroupRole user.id group = some role ↔
    ∃ m ∈ db.userGroups, m.user = user.id ∧ m.group = group ∧ m.active = true ∧
      db.groupLive m.group = true ∧ m.role = role := by
  unfold Db.getUserGroupRole
  rw [Option.map_eq_some_iff]
  constructor
  · rintro ⟨m, hm, hrole⟩
    have hfound := List.find?_some hm
    rw [decide_eq_true_eq] at hfound
    exact ⟨m, List.mem_of_find?_eq_some hm, hfound.1, hfound.2.1, hfound.2.2.1, hfound.2.2.2, hrole⟩
  · rintro ⟨m, hm, huser, hgroup, hactive, hlive, hrole⟩
    refine ⟨m, (find?_key_eq_some db.memberships_nodup (k := (user.id, group)) ?_).mpr ⟨hm, ?_⟩, hrole⟩
    · intro m' hm'
      rw [decide_eq_true_eq] at hm'
      rw [hm'.1, hm'.2.1]
    · rw [decide_eq_true_eq]
      exact ⟨huser, hgroup, hactive, hlive⟩

/-- A role in the team is one of an active membership. -/
theorem hasTeamRole_iff {roles : List String} : hasTeamRole db.toDb roles user team.id = true ↔
    ∃ m ∈ db.teamUsers, m.team = team.id ∧ m.user = user.id ∧ m.active = true ∧ m.role ∈ roles := by
  unfold hasTeamRole Db.getUserTeamRole
  rw [Option.any_eq_true]
  constructor
  · rintro ⟨role, hrole, hmem⟩
    obtain ⟨m, hm, rfl⟩ := Option.map_eq_some_iff.mp hrole
    have hfound := List.find?_some hm
    rw [decide_eq_true_eq] at hfound
    exact ⟨m, List.mem_of_find?_eq_some hm, hfound.2.1, hfound.1, hfound.2.2, of_decide_eq_true hmem⟩
  · rintro ⟨m, hm, hteam, huser, hactive, hrole⟩
    refine ⟨m.role, Option.map_eq_some_iff.mpr ⟨m, ?_, rfl⟩, decide_eq_true hrole⟩
    refine (find?_key_eq_some db.teamUsers_nodup (k := (user.id, team.id)) ?_).mpr ⟨hm, ?_⟩
    · intro m' hm'
      rw [decide_eq_true_eq] at hm'
      rw [hm'.1, hm'.2.1]
    · rw [decide_eq_true_eq]
      exact ⟨huser, hteam, hactive⟩

/-- A team that is not deleted is found. -/
theorem getTeam_eq (hteam : team ∈ db.teams) (hdeleted : team.deleted = false) :
    db.getTeam team.id = .ok team := by
  have hfind : db.teams.find? (fun t => t.id = team.id ∧ t.deleted = false) = some team := by
    refine (find?_key_eq_some db.teams_nodup (k := team.id) ?_).mpr ⟨hteam, by simp [hdeleted]⟩
    intro t ht
    rw [decide_eq_true_eq] at ht
    exact ht.1
  unfold Db.getTeam
  rw [hfind]

/-! ## The lists -/

/-- The groups with a role that the user has. -/
theorem group_mem_listGroups (hadmin : user.isAdmin = false) (manage : Bool) :
    group ∈ db.listGroupsForUser user false manage ↔
      ∃ role, db.getUserGroupRole user.id group = some role ∧
        (manage = true → role = groupUserAdminRole) := by
  unfold Db.listGroupsForUser
  rw [hadmin, if_neg Bool.false_ne_true]
  simp only [List.mem_map, List.mem_filter, decide_eq_true_eq]
  constructor
  · rintro ⟨m, ⟨hm, huser, hactive, hlive, hrole⟩, rfl⟩
    refine ⟨m.role, getUserGroupRole_eq_some.mpr ⟨m, hm, huser, rfl, hactive, hlive, rfl⟩, ?_⟩
    rintro rfl
    exact hrole
  · rintro ⟨role, hrole, hmanage⟩
    obtain ⟨m, hm, huser, hgroup, hactive, hlive, rfl⟩ := getUserGroupRole_eq_some.mp hrole
    refine ⟨m, ⟨hm, huser, hactive, hlive, ?_⟩, hgroup⟩
    cases manage with
    | false => simp
    | true => exact hmanage rfl

/-- An active team is listed under its group. -/
theorem id_mem_listTeams (hteam : team ∈ db.teams) (hactive : team.active = true)
    (hdeleted : team.deleted = false) {groups : List Id} :
    team.id ∈ db.listTeams true groups ↔ ∃ group ∈ team.group, group ∈ groups := by
  unfold Db.listTeams
  simp only [List.mem_map, List.mem_filter, decide_eq_true_eq, Option.any_eq_true]
  constructor
  · rintro ⟨t, ⟨ht, -, hgroup, -⟩, hid⟩
    obtain rfl := List.inj_on_of_nodup_map db.teams_nodup ht hteam hid
    exact hgroup
  · intro hgroup
    exact ⟨team, ⟨hteam, hdeleted, hgroup, fun _ => hactive⟩, rfl⟩

theorem id_mem_listTeamsForUser (hteam : team ∈ db.teams) (hactive : team.active = true)
    (hdeleted : team.deleted = false) {groups : List Id} {roles : List String} :
    team.id ∈ db.listTeamsForUser user.id roles groups true ↔
      (∃ group ∈ team.group, group ∈ groups) ∧ hasTeamRole db.toDb roles user team.id = true := by
  unfold Db.listTeamsForUser
  rw [hasTeamRole_iff]
  simp only [List.mem_map, List.mem_filter, decide_eq_true_eq, Option.any_eq_true, List.any_eq_true]
  constructor
  · rintro ⟨t, ⟨ht, -, hgroup, -, hmember⟩, hid⟩
    obtain rfl := List.inj_on_of_nodup_map db.teams_nodup ht hteam hid
    exact ⟨hgroup, hmember⟩
  · rintro ⟨hgroup, hmember⟩
    exact ⟨team, ⟨hteam, hdeleted, hgroup, fun _ => hactive, hmember⟩, rfl⟩

variable {req : Request} {useActiveGroup : Bool}

/-- A user that is passed is looked at before the one of the request. -/
theorem current_eq (other : Option User) : (some user <|> other) = some user := rfl

/-- Without a token and an active group nothing is filtered. -/
theorem getAllowedGroupIds_eq (htoken : req.currentApiToken = none)
    (hactive : useActiveGroup = true → user.activeGroupId = none) (manage : Bool) :
    getAllowedGroupIds db.toDb req (some user) false manage useActiveGroup =
      db.listGroupsForUser user false manage := by
  have hfilter : ∀ ids, tokenGroupFilter req ids = ids := by
    intro ids
    unfold tokenGroupFilter
    rw [htoken]
    rfl
  unfold getAllowedGroupIds
  simp only [current_eq, hfilter]
  by_cases hadmin : user.isAdmin = true
  · rw [if_pos hadmin, Db.listGroupsForUser, if_pos hadmin]
  · rw [if_neg hadmin]
    cases huser : user.activeGroupId with
    | none => rfl
    | some active =>
      -- an active group is not used
      have hunused : useActiveGroup = false := by
        cases huse : useActiveGroup with
        | false => rfl
        | true =>
          rw [hactive huse] at huser
          cases huser
      simp [hunused]

/-- **The list of a user**: a role in the group of the team, and either the one of a group
administrator or a team role of the level. -/
theorem mem_allowedTeamIds (hadmin : user.isAdmin = false) (htoken : req.currentApiToken = none)
    (hactive : useActiveGroup = true → user.activeGroupId = none) (hteam : team ∈ db.teams)
    (hlive : team.active = true) (hdeleted : team.deleted = false) (level : AccessLevel) :
    team.id ∈ level.allowedTeamIds db.toDb req user useActiveGroup ↔
      ∃ group ∈ team.group, ∃ role, db.getUserGroupRole user.id group = some role ∧
        (role = groupUserAdminRole ∨ hasTeamRole db.toDb level.roles user team.id = true) := by
  -- the roles of a level are those of the check
  have hroles : (if level = .write then teamWriteRoles else if level = .respond then teamRespondRoles
      else teamReadRoles) = level.roles := by
    cases level <;> rfl
  have hmanaged : getManagedGroupIds db.toDb req (some user) useActiveGroup =
      db.listGroupsForUser user false true := getAllowedGroupIds_eq htoken hactive true
  unfold AccessLevel.allowedTeamIds getAllowedTeamIds
  simp only [current_eq, getAllowedGroupIds_eq htoken hactive, hmanaged, hadmin,
    decide_eq_true_eq, hroles, Bool.false_eq_true, if_false]
  -- the early return: without a group the list is empty
  by_cases hnone : (db.listGroupsForUser user false false).isEmpty = true
  · -- a user without groups has no role in one
    rw [if_pos hnone]
    refine iff_of_false List.not_mem_nil ?_
    rintro ⟨group, -, role, hrole, -⟩
    have hmem : group ∈ db.listGroupsForUser user false false :=
      (group_mem_listGroups hadmin false).mpr ⟨role, hrole, nofun⟩
    rw [List.isEmpty_iff.mp hnone] at hmem
    exact List.not_mem_nil hmem
  · rw [if_neg hnone, List.mem_insertionSort, List.mem_dedup, List.mem_append,
      id_mem_listTeams hteam hlive hdeleted, id_mem_listTeamsForUser hteam hlive hdeleted]
    simp only [group_mem_listGroups hadmin]
    constructor
    · rintro (⟨group, hgroup, role, hrole, hmanage⟩ | ⟨⟨group, hgroup, role, hrole, -⟩, hmember⟩)
      · exact ⟨group, hgroup, role, hrole, .inl (hmanage trivial)⟩
      · exact ⟨group, hgroup, role, hrole, .inr hmember⟩
    · rintro ⟨group, hgroup, role, hrole, hmanage | hmember⟩
      · exact .inl ⟨group, hgroup, role, hrole, fun _ => hmanage⟩
      · exact .inr ⟨⟨group, hgroup, role, hrole, nofun⟩, hmember⟩

/-- The list of a global administrator: the teams of the groups that are active. -/
theorem mem_allowedTeamIds_admin (hadmin : user.isAdmin = true) (htoken : req.currentApiToken = none)
    (hactive : useActiveGroup = true → user.activeGroupId = none) (hteam : team ∈ db.teams)
    (hlive : team.active = true) (hdeleted : team.deleted = false) (level : AccessLevel) :
    team.id ∈ level.allowedTeamIds db.toDb req user useActiveGroup ↔
      ∃ group ∈ team.group, db.groupLive group = true := by
  have hgroups : db.listGroupsForUser user false false = db.listActiveGroups := by
    rw [Db.listGroupsForUser, if_pos hadmin]
  have hmem : ∀ group, group ∈ db.listActiveGroups ↔ db.groupLive group = true := by
    intro group
    simp only [Db.listActiveGroups, Db.groupLive, IncidentRelay.groupLive, List.mem_map,
      List.mem_filter, decide_eq_true_eq, List.any_eq_true]
    exact ⟨fun ⟨g, ⟨hg, hd, ha⟩, hid⟩ => ⟨g, hg, hid, ha, hd⟩,
      fun ⟨g, hg, hid, ha, hd⟩ => ⟨g, ⟨hg, hd, ha⟩, hid⟩⟩
  unfold AccessLevel.allowedTeamIds getAllowedTeamIds
  simp only [current_eq, getAllowedGroupIds_eq htoken hactive, hgroups, hadmin, if_true]
  -- for an administrator the groups are all the active ones
  by_cases hnone : db.listActiveGroups.isEmpty = true
  · rw [if_pos hnone]
    refine iff_of_false List.not_mem_nil ?_
    rintro ⟨group, -, hgroup⟩
    have hlisted := (hmem group).mpr hgroup
    rw [List.isEmpty_iff.mp hnone] at hlisted
    exact List.not_mem_nil hlisted
  · rw [if_neg hnone, id_mem_listTeams hteam hlive hdeleted]
    simp only [hmem]

/-! ## The checks -/

/-- What a level asks of a role in the group and of a role in the team. -/
def AccessLevel.Accepts (level : AccessLevel) (role : String) (member : Bool) : Prop :=
  (level ≠ .respond ∧ role = groupUserAdminRole) ∨ (role ∈ groupReadRoles ∧ member = true)

/-- **The check of a user.** -/
theorem can_iff (hadmin : user.isAdmin = false) (hteam : team ∈ db.teams)
    (hdeleted : team.deleted = false) (level : AccessLevel) :
    level.can db.toDb user team.id = .ok true ↔
      ∃ group ∈ team.group, ∃ role, db.getUserGroupRole user.id group = some role ∧
        level.Accepts role (hasTeamRole db.toDb level.roles user team.id) := by
  have hmanager : groupUserAdminRole ∈ groupReadRoles := by decide
  have hshape : ∀ check : User → Id → Bool, canTeam db.toDb check (some user) team.id = .ok true ↔
      ∃ group ∈ team.group, check user group = true := by
    intro check
    simp only [canTeam, hadmin, Bool.false_eq_true, if_false, getTeam_eq hteam hdeleted, bind, Except.bind]
    cases hgroup : team.group with
    | none => simp
    | some group => simp
  have hnone : ∀ {roles group}, db.getUserGroupRole user.id group = none →
      canGroup db.toDb roles (some user) group = false := by
    intro roles group hrole
    simp only [canGroup, hadmin, hrole, Bool.false_or, Option.any_none]
  have hsome : ∀ {roles group role}, db.getUserGroupRole user.id group = some role →
      canGroup db.toDb roles (some user) group = decide (role ∈ roles) := by
    intro roles group role hrole
    simp only [canGroup, hadmin, hrole, Bool.false_or, Option.any_some]
  have hadmins : ∀ role, role ∈ groupUserAdminRoles ↔ role = groupUserAdminRole := fun role =>
    List.mem_singleton
  -- the roles of the three checks, in the order in which each asks for them
  cases level with
  | read =>
    simp only [AccessLevel.can]
    rw [canReadTeam, hshape]
    refine exists_congr fun group => and_congr_right fun _ => ?_
    cases hrole : db.getUserGroupRole user.id group with
    | none => simp [canManageGroupUsers, canReadGroup, hnone hrole]
    | some role =>
      simp only [canManageGroupUsers, canReadGroup, hsome hrole, Option.some.injEq, exists_eq_left',
        decide_eq_true_eq, Bool.not_eq_true', decide_eq_false_iff_not, hadmins]
      by_cases hmanage : role = groupUserAdminRole
      · exact iff_of_true (if_pos hmanage) (.inl ⟨by decide, hmanage⟩)
      · rw [if_neg hmanage]
        by_cases hread : role ∈ groupReadRoles
        · simp [AccessLevel.Accepts, AccessLevel.roles, hmanage, hread]
        · simp [AccessLevel.Accepts, hmanage, hread]
  | respond =>
    simp only [AccessLevel.can]
    rw [canRespondTeam, hshape]
    refine exists_congr fun group => and_congr_right fun _ => ?_
    cases hrole : db.getUserGroupRole user.id group with
    | none => simp [canReadGroup, hnone hrole]
    | some role =>
      by_cases hread : role ∈ groupReadRoles
      · simp [canReadGroup, hsome hrole, AccessLevel.Accepts, AccessLevel.roles, hread]
      · simp [canReadGroup, hsome hrole, AccessLevel.Accepts, hread]
  | write =>
    simp only [AccessLevel.can]
    rw [canWriteTeam, hshape]
    refine exists_congr fun group => and_congr_right fun _ => ?_
    cases hrole : db.getUserGroupRole user.id group with
    | none => simp [canReadGroup, hnone hrole]
    | some role =>
      by_cases hmanage : role = groupUserAdminRole
      · -- a group administrator can read the group as well
        simp [canManageGroupUsers, canReadGroup, hsome hrole, AccessLevel.Accepts, hadmins, hmanage,
          hmanager]
      · by_cases hread : role ∈ groupReadRoles
        · simp [canManageGroupUsers, canReadGroup, hsome hrole, AccessLevel.Accepts, AccessLevel.roles,
            hadmins, hread, hmanage]
        · simp [canReadGroup, hsome hrole, AccessLevel.Accepts, hread, hmanage]

/-! ## Agreement -/

/-- A global administrator: the group of the team is active. Anybody else: the role in the
group is one of the known ones where it matters, and a group administrator who may respond
has a team role for it. -/
def AccessLevel.Aligned (level : AccessLevel) (db : KeyedDb) (user : User) (team : Team) : Prop :=
  if user.isAdmin then ∃ group ∈ team.group, db.groupLive group = true
  else
    ∀ group ∈ team.group, ∀ role, db.getUserGroupRole user.id group = some role →
      (hasTeamRole db.toDb level.roles user team.id = true → role ∈ groupReadRoles) ∧
        (level = .respond → role = groupUserAdminRole →
          hasTeamRole db.toDb level.roles user team.id = true)

/-- **For an administrator** the list has the teams of every group, and the check lets
everything through. -/
theorem agrees_iff_of_admin (hadmin : user.isAdmin = true) (htoken : req.currentApiToken = none)
    (hactive : useActiveGroup = true → user.activeGroupId = none) (hteam : team ∈ db.teams)
    (hlive : team.active = true) (hdeleted : team.deleted = false) (level : AccessLevel) :
    (team.id ∈ level.allowedTeamIds db.toDb req user useActiveGroup ↔
        level.can db.toDb user team.id = .ok true) ↔ level.Aligned db user team := by
  have hcan : level.can db.toDb user team.id = .ok true := by
    cases level <;> simp [AccessLevel.can, canReadTeam, canRespondTeam, canWriteTeam, canTeam, hadmin]
  rw [iff_true_right hcan, mem_allowedTeamIds_admin hadmin htoken hactive hteam hlive hdeleted,
    AccessLevel.Aligned, if_pos hadmin]

/-- **For a user** the list asks for a role in the team, which the role in the group may stand
for in the check. -/
theorem agrees_iff_of_user (hadmin : user.isAdmin = false) (htoken : req.currentApiToken = none)
    (hactive : useActiveGroup = true → user.activeGroupId = none) (hteam : team ∈ db.teams)
    (hlive : team.active = true) (hdeleted : team.deleted = false) (level : AccessLevel) :
    (team.id ∈ level.allowedTeamIds db.toDb req user useActiveGroup ↔
        level.can db.toDb user team.id = .ok true) ↔ level.Aligned db user team := by
  have hmanager : groupUserAdminRole ∈ groupReadRoles := by decide
  rw [mem_allowedTeamIds hadmin htoken hactive hteam hlive hdeleted, can_iff hadmin hteam hdeleted,
    AccessLevel.Aligned, if_neg (by simp [hadmin])]
  cases team.group with
  | none => simp
  | some group =>
    simp only [Option.mem_def, Option.some.injEq, exists_eq_left', forall_eq']
    -- a role in the group decides both sides; without one both say no
    cases db.getUserGroupRole user.id group with
    | none => simp
    | some role =>
      simp only [Option.some.injEq, exists_eq_left', forall_eq']
      unfold AccessLevel.Accepts
      generalize hasTeamRole db.toDb level.roles user team.id = member
      by_cases hmanage : role = groupUserAdminRole
      · -- a group administrator is listed at every level
        have hread : role ∈ groupReadRoles := hmanage ▸ hmanager
        tauto
      · tauto

/-- **Lists and checks agree if and only if** the group of the team is active, for a global
administrator; for anybody else, if and only if the team role counts in a group that can be
read, and at the level of responders a group administrator has a team role for it. -/
theorem access_agrees_iff (db : KeyedDb) (req : Request) (user : User) (useActiveGroup : Bool)
    (team : Team) (htoken : req.currentApiToken = none)
    (hactive : useActiveGroup = true → user.activeGroupId = none) (hteam : team ∈ db.teams)
    (hlive : team.active = true) (hdeleted : team.deleted = false) (level : AccessLevel) :
    (team.id ∈ level.allowedTeamIds db.toDb req user useActiveGroup ↔
        level.can db.toDb user team.id = .ok true) ↔ level.Aligned db user team := by
  cases hadmin : user.isAdmin with
  | true => exact agrees_iff_of_admin hadmin htoken hactive hteam hlive hdeleted level
  | false => exact agrees_iff_of_user hadmin htoken hactive hteam hlive hdeleted level

end

/-- One group with one team, and a user who administers the group without a role in the
team. -/
def administered : KeyedDb where
  users := [{ id := 1, isAdmin := false, active := true, activeGroupId := none }]
  groups := [{ id := 1, active := true, deleted := false }]
  userGroups := [{ user := 1, group := 1, role := groupUserAdminRole, active := true }]
  teams := [{ id := 1, group := some 1, active := true, deleted := false }]
  teamUsers := []
  memberships_nodup := by decide
  teams_nodup := by decide
  teamUsers_nodup := by decide

def administrator : User := { id := 1, isAdmin := false, active := true, activeGroupId := none }

def administeredTeam : Team := { id := 1, group := some 1, active := true, deleted := false }

def noRequest : Request := { currentUser := none, currentApiToken := none }

/-- A group administrator without a team role is shown the team and may read it. -/
theorem access_agrees_administered :
    administeredTeam.id ∈ AccessLevel.read.allowedTeamIds administered.toDb noRequest administrator
        true ∧
      AccessLevel.read.can administered.toDb administrator administeredTeam.id = .ok true := by
  have hagrees := access_agrees_iff administered noRequest administrator true administeredTeam rfl
    (fun _ => rfl) (List.mem_singleton_self _) rfl rfl .read
  have haligned : AccessLevel.read.Aligned administered administrator administeredTeam := by
    intro group hgroup role hrole
    obtain rfl := Option.some.inj hgroup
    obtain rfl : groupUserAdminRole = role := Option.some.inj hrole
    exact ⟨fun _ => by decide, nofun⟩
  have hlisted : administeredTeam.id ∈
      AccessLevel.read.allowedTeamIds administered.toDb noRequest administrator true := by
    decide +kernel
  exact ⟨hlisted, (hagrees.mpr haligned).mp hlisted⟩

/-- **The team of a group administrator is listed for responders, and the check refuses the
administrator.** -/
theorem administrator_listed_and_refused : ¬∀ (db : KeyedDb) (user : User) (team : Team),
    team ∈ db.teams → team.active = true → team.deleted = false →
      (team.id ∈ AccessLevel.respond.allowedTeamIds db.toDb noRequest user false ↔
        AccessLevel.respond.can db.toDb user team.id = .ok true) := by
  intro h
  have hagrees := h administered administrator administeredTeam (List.mem_singleton_self _) rfl rfl
  have hlisted : administeredTeam.id ∈
      AccessLevel.respond.allowedTeamIds administered.toDb noRequest administrator false := by
    decide +kernel
  have hrefused : AccessLevel.respond.can administered.toDb administrator administeredTeam.id =
      .ok false := by decide +kernel
  rw [hrefused] at hagrees
  cases hagrees.mp hlisted

end IncidentRelay.Rbac
