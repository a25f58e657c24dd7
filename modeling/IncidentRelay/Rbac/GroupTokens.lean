import IncidentRelay.Lib.Run
import IncidentRelay.Rbac.ProfileTokens

/-!
# Tokens restricted to a group

`token_group_filter` restricts the lists to the group of the token. The checks of
one resource, the shortcut for administrators and the minting of tokens do not
look at that group, so what a restricted token may do is what its user may do.

 * `mem_getAllowedGroupIds`, `mem_getAllowedTeamIds`: the lists stay in the group.
 * `confined_iff`: the checks do exactly when the user has no say outside it.
 * `restricted_token_iff`: with a chain of minted tokens on top.
-/

namespace IncidentRelay.Rbac

variable {db : Db} {req : Request} {G : Id}

/-! ## The lists -/

/-- A token of a group filters the groups down to its own. -/
theorem mem_tokenGroupFilter {token : ApiToken} (htoken : req.currentApiToken = some token)
    (hG : token.group = some G) {ids : List Id} {g : Id} (h : g ∈ tokenGroupFilter req ids) :
    g = G := by
  unfold tokenGroupFilter at h
  rw [htoken, Option.bind_some, hG] at h
  simpa using (List.mem_filter.mp h).2

/-- Whatever its flags, the list of groups stays in the group of the token. -/
theorem mem_getAllowedGroupIds {token : ApiToken} (htoken : req.currentApiToken = some token)
    (hG : token.group = some G) {user : Option User} {write manage useActive : Bool} {g : Id}
    (h : g ∈ getAllowedGroupIds db req user write manage useActive) : g = G := by
  unfold getAllowedGroupIds at h
  cases hu : user <|> req.currentUser with
  | none =>
    rw [hu, htoken] at h
    simpa [hG] using h
  | some u =>
    rw [hu] at h
    dsimp only at h
    -- an administrator gets all groups, filtered by the token
    by_cases hadmin : u.isAdmin = true
    · rw [if_pos hadmin] at h
      exact mem_tokenGroupFilter htoken hG h
    · rw [if_neg hadmin] at h
      -- a user gets the active group or the groups of the memberships, filtered too
      cases hactive : u.activeGroupId with
      | none =>
        rw [hactive] at h
        exact mem_tokenGroupFilter htoken hG h
      | some active =>
        rw [hactive] at h
        dsimp only at h
        split at h <;> exact mem_tokenGroupFilter htoken hG h

/-- A team of the group. -/
def TeamOf (db : Db) (G : Id) (teamId : Id) : Prop :=
  ∃ team ∈ db.teams, team.id = teamId ∧ team.group = some G

theorem teamOf_of_any {ids : List Id} {team : Team} (hids : ∀ g ∈ ids, g = G)
    (hmem : team ∈ db.teams) (hany : team.group.any (· ∈ ids) = true) : TeamOf db G team.id := by
  obtain ⟨g, hg, hin⟩ := (Option.any_eq_true _ _).mp hany
  exact ⟨team, hmem, rfl, by rw [hg, hids g (of_decide_eq_true hin)]⟩

theorem mem_listTeams {activeOnly : Bool} {ids : List Id} {t : Id}
    (hids : ∀ g ∈ ids, g = G) (h : t ∈ db.listTeams activeOnly ids) : TeamOf db G t := by
  obtain ⟨team, hteam, rfl⟩ := List.mem_map.mp h
  obtain ⟨hmem, hsel⟩ := List.mem_filter.mp hteam
  exact teamOf_of_any hids hmem (of_decide_eq_true hsel).2.1

theorem mem_listTeamsForUser {userId : Id} {roles : List String} {activeOnly : Bool}
    {ids : List Id} {t : Id} (hids : ∀ g ∈ ids, g = G)
    (h : t ∈ db.listTeamsForUser userId roles ids activeOnly) : TeamOf db G t := by
  obtain ⟨team, hteam, rfl⟩ := List.mem_map.mp h
  obtain ⟨hmem, hsel⟩ := List.mem_filter.mp hteam
  exact teamOf_of_any hids hmem (of_decide_eq_true hsel).2.1

/-- Whatever its flags, the list of teams stays in the group of the token. -/
theorem mem_getAllowedTeamIds {token : ApiToken} (htoken : req.currentApiToken = some token)
    (hG : token.group = some G) {user : Option User}
    {write respond useActive activeOnly : Bool} {t : Id}
    (h : t ∈ getAllowedTeamIds db req user write respond useActive activeOnly) :
    TeamOf db G t := by
  have hgroups : ∀ u manage, ∀ g ∈ getAllowedGroupIds db req u false manage useActive, g = G :=
    fun u manage g hg => mem_getAllowedGroupIds htoken hG hg
  unfold getAllowedTeamIds at h
  dsimp only at h
  split at h
  · exact absurd h (by simp)
  cases hu : user <|> req.currentUser with
  | none =>
    rw [hu] at h
    exact mem_listTeams (hgroups _ _) h
  | some u =>
    rw [hu] at h
    dsimp only at h
    -- the teams are those of the groups that are left
    by_cases hadmin : u.isAdmin = true
    · rw [if_pos hadmin] at h
      exact mem_listTeams (hgroups _ _) h
    · rw [if_neg hadmin, (List.perm_insertionSort _ _).mem_iff, List.mem_dedup,
        List.mem_append] at h
      rcases h with h | h
      · exact mem_listTeams (hgroups _ _) h
      · exact mem_listTeamsForUser (hgroups _ _) h

/-! ## The checks -/

/-- Every authorization decision of the request stays in the group. -/
structure Confined (db : Db) (req : Request) (G : Id) : Prop where
  groupIds : ∀ write manage useActive,
    ∀ g ∈ getAllowedGroupIds db req none write manage useActive, g = G
  teamIds : ∀ write respond useActive activeOnly,
    ∀ t ∈ getAllowedTeamIds db req none write respond useActive activeOnly, TeamOf db G t
  groupRead : ∀ g, requireGroupRead db req g = none → g = G
  groupWrite : ∀ g, requireGroupWrite db req g = none → g = G
  teamRead : ∀ t, requireTeamRead db req t = .ok none → TeamOf db G t
  teamRespond : ∀ t, requireTeamRespond db req t = .ok none → TeamOf db G t
  teamWrite : ∀ t, requireTeamWrite db req t = .ok none → TeamOf db G t
  canReadGroup : ∀ g, canReadGroup db req.currentUser g = true → g = G
  canWriteGroup : ∀ g, canWriteGroup db req.currentUser g = true → g = G
  canManageGroupUsers : ∀ g, canManageGroupUsers db req.currentUser g = true → g = G
  canReadTeam : ∀ t, canReadTeam db req.currentUser t = .ok true → TeamOf db G t
  canRespondTeam : ∀ t, canRespondTeam db req.currentUser t = .ok true → TeamOf db G t
  canWriteTeam : ∀ t, canWriteTeam db req.currentUser t = .ok true → TeamOf db G t

/-- The user of the request, if there is one, is no administrator and has no
role in a live group other than this one. -/
def NoSayOutside (db : Db) (req : Request) (G : Id) : Prop :=
  ∀ user, req.currentUser = some user → user.isAdmin = false ∧
    ∀ m ∈ db.userGroups, m.user = user.id → m.active = true → db.groupLive m.group = true →
      m.role ∈ groupReadRoles → m.group = G

/-- A membership gives its role. -/
theorem getUserGroupRole_of_mem {m : UserGroup} (hm : m ∈ db.userGroups)
    (hactive : m.active = true) (hlive : db.groupLive m.group = true) :
    db.getUserGroupRole m.user m.group = some m.role := by
  unfold Db.getUserGroupRole
  cases hfind : db.userGroups.find? fun x =>
      x.user = m.user ∧ x.group = m.group ∧ x.active = true ∧ db.groupLive x.group = true with
  | none =>
    have hno := List.find?_eq_none.mp hfind m hm
    simp [hactive, hlive] at hno
  | some x =>
    have hx := List.find?_some hfind
    simp only [decide_eq_true_eq] at hx
    -- one membership only joins the user and the group
    have hsame : x = m :=
      List.inj_on_of_nodup_map db.memberships_nodup (List.mem_of_find?_eq_some hfind) hm
        (by rw [hx.1, hx.2.1])
    rw [hsame]
    rfl

/-- A role a check accepts comes from a membership. -/
theorem mem_of_getUserGroupRole {userId groupId : Id} {role : String}
    (h : db.getUserGroupRole userId groupId = some role) :
    ∃ m ∈ db.userGroups, m.user = userId ∧ m.group = groupId ∧ m.active = true ∧
      db.groupLive m.group = true ∧ m.role = role := by
  unfold Db.getUserGroupRole at h
  obtain ⟨m, hfind, rfl⟩ := Option.map_eq_some_iff.mp h
  have hm := List.find?_some hfind
  simp only [decide_eq_true_eq] at hm
  exact ⟨m, List.mem_of_find?_eq_some hfind, hm.1, hm.2.1, hm.2.2.1, hm.2.2.2, rfl⟩

/-- Without a say outside the group, no group check passes outside it. -/
theorem canGroup_confined (h : NoSayOutside db req G) {roles : List String}
    (hroles : ∀ r ∈ roles, r ∈ groupReadRoles) {g : Id}
    (hcan : canGroup db roles req.currentUser g = true) : g = G := by
  cases hu : req.currentUser with
  | none =>
    rw [hu] at hcan
    exact absurd hcan (by simp [canGroup])
  | some user =>
    obtain ⟨hadmin, hmember⟩ := h user hu
    rw [hu] at hcan
    simp only [canGroup, hadmin, Bool.false_or, Option.any_eq_true] at hcan
    obtain ⟨role, hrole, hin⟩ := hcan
    obtain ⟨m, hm, huser, hgroup, hactive, hlive, rfl⟩ := mem_of_getUserGroupRole hrole
    rw [← hgroup]
    exact hmember m hm huser hactive hlive (hroles _ (by simpa using hin))

theorem canReadGroup_confined (h : NoSayOutside db req G) {g : Id}
    (hcan : canReadGroup db req.currentUser g = true) : g = G :=
  canGroup_confined h (fun _ hr => hr) hcan

theorem canWriteGroup_confined (h : NoSayOutside db req G) {g : Id}
    (hcan : canWriteGroup db req.currentUser g = true) : g = G :=
  canGroup_confined h (by decide) hcan

theorem canManageGroupUsers_confined (h : NoSayOutside db req G) {g : Id}
    (hcan : canManageGroupUsers db req.currentUser g = true) : g = G :=
  canGroup_confined h (by decide) hcan

/-- The team a check looked up. -/
theorem getTeam_eq_ok {t : Id} {team : Team} (h : db.getTeam t = .ok team) :
    team ∈ db.teams ∧ team.id = t := by
  unfold Db.getTeam at h
  cases hfind : db.teams.find? fun x => x.id = t ∧ x.deleted = false with
  | none =>
    rw [hfind] at h
    exact absurd h (by simp)
  | some x =>
    rw [hfind] at h
    obtain rfl := Except.ok.inj h
    have hx := List.find?_some hfind
    simp only [decide_eq_true_eq] at hx
    exact ⟨List.mem_of_find?_eq_some hfind, hx.1⟩

/-- A team check that looks at the group first stays in the group. -/
theorem canTeam_confined (h : NoSayOutside db req G) {check : User → Id → Bool} {t : Id}
    (hcheck : ∀ user g, req.currentUser = some user → check user g = true → g = G)
    (hcan : canTeam db check req.currentUser t = .ok true) : TeamOf db G t := by
  cases hu : req.currentUser with
  | none =>
    rw [hu] at hcan
    exact absurd hcan (by simp [canTeam])
  | some user =>
    have hadmin := (h user hu).1
    rw [hu] at hcan
    simp only [canTeam, hadmin, Bool.false_eq_true, if_false] at hcan
    obtain ⟨team, hteam, hcan⟩ := bind_eq_ok.mp hcan
    obtain ⟨hmem, hid⟩ := getTeam_eq_ok hteam
    -- a team without a group is not checked by one
    cases hgroup : team.group with
    | none =>
      rw [hgroup] at hcan
      exact absurd hcan (by simp)
    | some g =>
      rw [hgroup] at hcan
      have hg : g = G := hcheck user g hu (Except.ok.inj hcan)
      exact ⟨team, hmem, hid, by rw [hgroup, hg]⟩

theorem canReadTeam_confined (h : NoSayOutside db req G) {t : Id}
    (hcan : canReadTeam db req.currentUser t = .ok true) : TeamOf db G t := by
  refine canTeam_confined h (fun user g hu hg => ?_) hcan
  -- managing the users of the group or reading the group, it is the token's group
  by_cases hmanage : canManageGroupUsers db (some user) g = true
  · exact canManageGroupUsers_confined h (hu ▸ hmanage)
  · by_cases hread : canReadGroup db (some user) g = true
    · exact canReadGroup_confined h (hu ▸ hread)
    · simp [hmanage, hread] at hg

theorem canRespondTeam_confined (h : NoSayOutside db req G) {t : Id}
    (hcan : canRespondTeam db req.currentUser t = .ok true) : TeamOf db G t := by
  refine canTeam_confined h (fun user g hu hg => ?_) hcan
  by_cases hread : canReadGroup db (some user) g = true
  · exact canReadGroup_confined h (hu ▸ hread)
  · simp [hread] at hg

theorem canWriteTeam_confined (h : NoSayOutside db req G) {t : Id}
    (hcan : canWriteTeam db req.currentUser t = .ok true) : TeamOf db G t := by
  refine canTeam_confined h (fun user g hu hg => ?_) hcan
  by_cases hread : canReadGroup db (some user) g = true
  · exact canReadGroup_confined h (hu ▸ hread)
  · simp [hread] at hg

theorem isAdminUser_eq_false (h : NoSayOutside db req G) : isAdminUser req = false := by
  cases hu : req.currentUser with
  | none => simp [isAdminUser, hu]
  | some user => simp [isAdminUser, hu, (h user hu).1]

/-- A team requirement that is met passes the check behind it. -/
theorem requireTeam_eq_none (h : NoSayOutside db req G)
    {can : Option User → Id → Except DbError Bool} {message : String} {t : Id}
    (hreq : requireTeam req can message t = .ok none) : can req.currentUser t = .ok true := by
  unfold requireTeam at hreq
  rw [isAdminUser_eq_false h] at hreq
  obtain ⟨b, hb, hreq⟩ := bind_eq_ok.mp hreq
  cases b with
  | true => exact hb
  | false => exact absurd hreq (by simp)

/-- **The checks stay in the group exactly when the user does.** -/
theorem confined_iff {token : ApiToken} (htoken : req.currentApiToken = some token)
    (hG : token.group = some G) : Confined db req G ↔ NoSayOutside db req G := by
  constructor
  · intro h user hu
    constructor
    · -- an administrator reads every group
      by_contra hadmin
      rw [Bool.not_eq_false] at hadmin
      have hread : canReadGroup db req.currentUser (G + 1) = true := by
        simp [canReadGroup, canGroup, hu, hadmin]
      have heq := h.canReadGroup (G + 1) hread
      exact absurd (congrArg PNat.val heq) (by rw [PNat.add_coe]; simp)
    · -- and a member reads the group of the membership
      intro m hm huser hactive hlive hrole
      apply h.canReadGroup m.group
      have hget := getUserGroupRole_of_mem hm hactive hlive
      rw [huser] at hget
      simp [canReadGroup, canGroup, hu, hget, hrole]
  -- a user without a say elsewhere gets through each check for the group only
  · intro h
    constructor
    · intro write manage useActive g hg
      exact mem_getAllowedGroupIds htoken hG hg
    · intro write respond useActive activeOnly t ht
      exact mem_getAllowedTeamIds htoken hG ht
    · intro g hg
      unfold requireGroupRead at hg
      split at hg
      · rename_i hmem
        exact mem_getAllowedGroupIds htoken hG hmem
      · exact absurd hg (by simp)
    · intro g hg
      unfold requireGroupWrite at hg
      rw [isAdminUser_eq_false h, if_neg Bool.false_ne_true] at hg
      split at hg
      · rename_i hcan
        exact canWriteGroup_confined h hcan
      · exact absurd hg (by simp)
    · intro t ht
      exact canReadTeam_confined h (requireTeam_eq_none h ht)
    · intro t ht
      exact canRespondTeam_confined h (requireTeam_eq_none h ht)
    · intro t ht
      exact canWriteTeam_confined h (requireTeam_eq_none h ht)
    · intro g hg
      exact canReadGroup_confined h hg
    · intro g hg
      exact canWriteGroup_confined h hg
    · intro g hg
      exact canManageGroupUsers_confined h hg
    · intro t ht
      exact canReadTeam_confined h ht
    · intro t ht
      exact canRespondTeam_confined h ht
    · intro t ht
      exact canWriteTeam_confined h ht

/-! ## Chains of minted tokens -/

/-- An accepted mint: the tables at the time, what the request carried and the
token it got. -/
structure MintCall where
  db : Db
  payload : ProfileTokenCreate
  rawToken : String
  now : Int
  minted : ApiToken

/-- The token in hand mints the next one. -/
def mintStep (hash : String → String) (token : ApiToken) (call : MintCall) (next : ApiToken) :
    Prop :=
  createProfileToken hash call.db (authenticateApiToken call.db token) call.payload call.rawToken
    call.now = .ok call.minted ∧ next = call.minted

/-- **Step lemma.** A mint gives the group its payload names and no new scope. -/
theorem mintStep_spec {hash : String → String} {token next : ApiToken} {call : MintCall}
    (h : mintStep hash token call next) :
    next = call.minted ∧ call.minted.group = call.payload.groupId ∧
      Allows token.scopes call.minted.scopes := by
  obtain ⟨hmint, rfl⟩ := h
  exact ⟨rfl, createProfileToken_spec rfl hmint⟩

/-- **Run lemma.** Down a chain, each token has the group its payload named and
scopes within those of the first one. -/
theorem mintRun_spec {hash : String → String} {first last : ApiToken} {calls : List MintCall}
    (h : Run (mintStep hash) first calls last) :
    ∀ call ∈ calls, call.minted.group = call.payload.groupId ∧
      Allows first.scopes call.minted.scopes := by
  induction h with
  | nil => simp
  | cons hstep _ ih =>
    obtain ⟨rfl, hgroup, hscopes⟩ := mintStep_spec hstep
    intro call hcall
    rcases List.mem_cons.mp hcall with rfl | hcall
    · exact ⟨hgroup, hscopes⟩
    · obtain ⟨hgroup', hscopes'⟩ := ih call hcall
      exact ⟨hgroup', hscopes.trans hscopes'⟩

/-- The token stays in its group: every decision made for it, and every token
down a chain of mints, which has no scope the first one lacks. -/
def StaysInGroup (db : Db) (token : ApiToken) (calls : List MintCall) (G : Id) : Prop :=
  Confined db (authenticateApiToken db token) G ∧
    ∀ call ∈ calls, call.minted.group = some G ∧ Allows token.scopes call.minted.scopes

/-- **Restricted tokens.** A token restricted to a group stays in it exactly when
its user is no administrator and has no role in another live group, and every
mint down the chain names the group. -/
theorem restricted_token_iff {hash : String → String} {token last : ApiToken}
    {calls : List MintCall} (db : Db) (hG : token.group = some G)
    (hchain : Run (mintStep hash) token calls last) :
    StaysInGroup db token calls G ↔
      NoSayOutside db (authenticateApiToken db token) G ∧
        ∀ call ∈ calls, call.payload.groupId = some G := by
  have hspec := mintRun_spec hchain
  unfold StaysInGroup
  rw [confined_iff rfl hG]
  constructor
  · rintro ⟨hsay, hcalls⟩
    refine ⟨hsay, fun call hcall => ?_⟩
    rw [← (hspec call hcall).1]
    exact (hcalls call hcall).1
  · rintro ⟨hsay, hcalls⟩
    refine ⟨hsay, fun call hcall => ⟨?_, (hspec call hcall).2⟩⟩
    rw [(hspec call hcall).1]
    exact hcalls call hcall

/-- Two groups, and a user who edits the given ones. -/
def sampleDb (edits : List Id) (h : edits.Nodup := by decide) : Db where
  users := [⟨1, false, true, none⟩]
  groups := [⟨1, true, false⟩, ⟨2, true, false⟩]
  userGroups := edits.map fun g => ⟨1, g, "editor", true⟩
  teams := [⟨1, some 1, true, false⟩, ⟨2, some 2, true, false⟩]
  teamUsers := []
  memberships_nodup := by
    rw [List.map_map]
    exact h.map fun _ _ heq => (Prod.mk.inj heq).2

/-- A token of the user, restricted to the first group. -/
def sampleToken : ApiToken where
  name := "ci"
  tokenPrefix := ""
  tokenHash := ""
  scopes := ["profile:write", "groups:write"]
  user := some 1
  group := some 1
  expiresAt := none

/-- The user of the token mints another one, in the group or without naming one. -/
def sampleMint (db : Db) (group : Option Id) : MintCall where
  db
  payload := { groupId := group, scopes := ["groups:write"] }
  rawToken := "raw"
  now := 0
  minted :=
    { name := "personal-api-token", tokenPrefix := ("raw".take 12).toString, tokenHash := "raw",
      scopes := ["groups:write"], user := some 1, group := group, expiresAt := none }

/-- With a user of one group and a mint that names it, the token stays there. -/
theorem restricted_token_iff_sample :
    StaysInGroup (sampleDb [1]) sampleToken [sampleMint (sampleDb [1]) (some 1)] 1 := by
  have hchain : Run (mintStep id) sampleToken [sampleMint (sampleDb [1]) (some 1)]
      (sampleMint (sampleDb [1]) (some 1)).minted := .single ⟨rfl, rfl⟩
  refine (restricted_token_iff (sampleDb [1]) rfl hchain).mpr ⟨?_, ?_⟩
  · intro user huser
    obtain rfl := Option.some.inj huser
    exact ⟨rfl, by decide⟩
  · intro call hcall
    rw [List.mem_singleton.mp hcall]
    rfl

/-- With a user of two groups, the restricted token writes in the other group,
and it mints a token without a group. -/
theorem restricted_token_escapes :
    requireGroupWrite (sampleDb [1, 2]) (authenticateApiToken (sampleDb [1, 2]) sampleToken) 2 =
      none ∧
    Run (mintStep id) sampleToken [sampleMint (sampleDb [1, 2]) none]
      (sampleMint (sampleDb [1, 2]) none).minted ∧
    (sampleMint (sampleDb [1, 2]) none).minted.group = none ∧
    ¬ StaysInGroup (sampleDb [1, 2]) sampleToken [sampleMint (sampleDb [1, 2]) none] 1 := by
  have hwrite : requireGroupWrite (sampleDb [1, 2])
      (authenticateApiToken (sampleDb [1, 2]) sampleToken) 2 = none := by decide
  refine ⟨hwrite, .single ⟨rfl, rfl⟩, rfl, ?_⟩
  intro h
  exact absurd (h.1.groupWrite 2 hwrite) (by decide)

end IncidentRelay.Rbac
