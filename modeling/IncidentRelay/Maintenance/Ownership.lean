import IncidentRelay.Lib.Result
import IncidentRelay.Lib.Run
import IncidentRelay.Maintenance.Windows

/-!
# Whose maintenance it is

What a user may write and read among the scopes of a window, in terms of the checks of
groups and teams alone, and what the commands and requests do with that.

 * `canManageScope_iff`, `checkWindowRead_iff`: what the checks of the code decide.
 * `command_obeyed_iff`, `list_obeyed_iff`, `get_obeyed_iff`: what one step does.
 * `owners_obeyed_iff`: the runs in which nobody touches, or sees, the maintenance of
   somebody else.
-/

namespace IncidentRelay.Maintenance

open Rbac (Db DbError User Request Response canGroup canTeam canReadGroup canReadTeam canWriteGroup
  canWriteTeam canManageGroupUsers hasTeamRole requireTeam requireTeamRead)

/-! ## What a user may do with a scope -/

section Access

variable (t : Tenancy) (u : User)

/-- The row of the type is one that the checks of groups and teams allow. -/
def Allows (group : Id → Bool) (team : Id → Except DbError Bool) (scopeType : ScopeType)
    (id : Id) : Prop :=
  match scopeType with
  | .group => group id = true
  | .team => team id = .ok true
  | .service => ∃ row, t.service id = some row ∧ team row.team = .ok true
  | .route => ∃ row, t.route id = some row ∧ team row.team = .ok true

/-- The user may write what the scope names. -/
def MayWrite (scope : Scope) : Prop :=
  ∃ id, scope.targetId = some id ∧
    Allows t (canWriteGroup t.db (some u)) (canWriteTeam t.db (some u)) scope.scopeType id

/-- The user may read what the scope names. -/
def MayRead (scope : Scope) : Prop :=
  ∀ id, scope.targetId = some id →
    Allows t (canReadGroup t.db (some u)) (canReadTeam t.db (some u)) scope.scopeType id

/-- The user may write the owner of the window, or one of its scopes. -/
def MayManage (w : Window) (scopes : List Scope) : Prop :=
  (∃ id, w.team = some id ∧ canWriteTeam t.db (some u) id = .ok true) ∨
    (∃ id, w.group = some id ∧ canWriteGroup t.db (some u) id = true) ∨
      ∃ scope ∈ scopes, MayWrite t u scope

variable {t u}

/-- Whoever may do more with groups and teams may do more with scopes. -/
theorem allows_mono {group group' : Id → Bool} {team team' : Id → Except DbError Bool}
    (hgroup : ∀ id, group id = true → group' id = true)
    (hteam : ∀ id, team id = .ok true → team' id = .ok true) {scopeType : ScopeType} {id : Id}
    (h : Allows t group team scopeType id) : Allows t group' team' scopeType id := by
  cases scopeType with
  | group => exact hgroup id h
  | team => exact hteam id h
  | service =>
    obtain ⟨row, hrow, h⟩ := h
    exact ⟨row, hrow, hteam _ h⟩
  | route =>
    obtain ⟨row, hrow, h⟩ := h
    exact ⟨row, hrow, hteam _ h⟩

/-- Who writes a group reads it. -/
theorem canReadGroup_of_write {id : Id} (h : canWriteGroup t.db (some u) id = true) :
    canReadGroup t.db (some u) id = true := by
  unfold canWriteGroup canGroup at h
  unfold canReadGroup canGroup
  dsimp only at h ⊢
  rw [Bool.or_eq_true] at h ⊢
  refine h.imp_right fun h => ?_
  rw [Option.any_eq_true] at h ⊢
  obtain ⟨role, hrole, hwrites⟩ := h
  refine ⟨role, hrole, decide_eq_true (List.mem_cons_of_mem _ ?_)⟩
  exact of_decide_eq_true hwrites

/-- Who writes a team reads it. -/
theorem canReadTeam_of_write {id : Id} (h : canWriteTeam t.db (some u) id = .ok true) :
    canReadTeam t.db (some u) id = .ok true := by
  unfold canWriteTeam canTeam at h
  unfold canReadTeam canTeam
  dsimp only at h ⊢
  split_ifs at h ⊢
  · rfl
  · obtain ⟨team, hteam, h⟩ := bind_eq_ok.mp h
    refine bind_eq_ok.mpr ⟨team, hteam, ?_⟩
    split at h
    · cases h
    · have hcheck := Except.ok.inj h
      refine congrArg Except.ok ?_
      -- a manager of the group reads its teams; anybody else has a role in the team
      split_ifs at hcheck ⊢ with hread hmanage
      · rfl
      · rename_i hwrites hmanages
        unfold hasTeamRole at hcheck ⊢
        rw [Option.any_eq_true] at hcheck ⊢
        obtain ⟨role, hrole, hmanager⟩ := hcheck
        have heq : role = Rbac.teamManagerRole := by
          simpa [Rbac.teamWriteRoles] using of_decide_eq_true hmanager
        exact ⟨role, hrole, by rw [heq]; decide⟩

theorem MayWrite.mayRead {scope : Scope} (h : MayWrite t u scope) : MayRead t u scope := by
  obtain ⟨id, hid, hallows⟩ := h
  intro id' hid'
  obtain rfl := Option.some.inj (hid.symm.trans hid')
  exact allows_mono (fun _ => canReadGroup_of_write) (fun _ => canReadTeam_of_write) hallows

/-- What `_can_manage_scope` decides. -/
theorem canManageScope_iff (hadmin : u.isAdmin = false) {scope : Scope} :
    canManageScope t u scope = .ok true ↔ MayWrite t u scope := by
  have hrow : ∀ row : Option TeamRow,
      row.elim (.ok false) (fun row => canWriteTeam t.db (some u) row.team) = .ok true ↔
        ∃ r, row = some r ∧ canWriteTeam t.db (some u) r.team = .ok true := by
    intro row
    cases row <;> simp
  unfold canManageScope MayWrite Allows
  rw [if_neg (by simp [hadmin])]
  cases scope.targetId with
  | none => simp
  | some id => cases scope.scopeType <;> simp [hrow]

theorem lift_eq_ok {α : Type} {x : Except DbError α} {a : α} : lift x = .ok a ↔ x = .ok a := by
  unfold lift
  cases x <;> simp [Except.mapError]

theorem canManageSome_ok (hadmin : u.isAdmin = false) {scopes : List Scope}
    (h : canManageSome t u scopes = .ok true) : ∃ scope ∈ scopes, MayWrite t u scope := by
  induction scopes with
  | nil => cases h
  | cons scope scopes ih =>
    obtain ⟨may, hmay, h⟩ := bind_eq_ok.mp h
    cases may with
    | true => exact ⟨scope, List.mem_cons_self, (canManageScope_iff hadmin).mp hmay⟩
    | false =>
      obtain ⟨scope', hmem, hwrite⟩ := ih h
      exact ⟨scope', List.mem_cons_of_mem _ hmem, hwrite⟩

/-- A check that succeeded had something to check. -/
theorem checkIf_ok {id : Option Id} {check : Id → Except DbError Bool}
    (h : checkIf id check = .ok true) : ∃ n, id = some n ∧ check n = .ok true := by
  cases id with
  | none => cases h
  | some n => exact ⟨n, rfl, h⟩

/-- Who passes the check of a window may manage it. -/
theorem ensureCanManageExistingWindow_ok (hadmin : u.isAdmin = false) {w : Window}
    {scopes : List Scope} (h : ensureCanManageExistingWindow t u w scopes = .ok ()) :
    MayManage t u w scopes := by
  unfold ensureCanManageExistingWindow at h
  rw [if_neg (by simp [hadmin])] at h
  obtain ⟨team, hteam, h⟩ := bind_eq_ok.mp h
  split_ifs at h with hmay
  · exact .inl (checkIf_ok (hmay ▸ lift_eq_ok.mp hteam))
  · obtain ⟨group, hgroup, h⟩ := bind_eq_ok.mp h
    split_ifs at h with hmay
    · obtain ⟨id, hid, hwrites⟩ := checkIf_ok (hmay ▸ lift_eq_ok.mp hgroup)
      exact .inr (.inl ⟨id, hid, Except.ok.inj hwrites⟩)
    · obtain ⟨some', hsome, h⟩ := bind_eq_ok.mp h
      split_ifs at h with hmay
      exact .inr (.inr (canManageSome_ok hadmin (hmay ▸ lift_eq_ok.mp hsome)))

/-- New scopes are accepted where each may be written. -/
theorem ensureCanManageScopes_iff (hadmin : u.isAdmin = false) {scopes : List Scope} :
    ensureCanManageScopes t u scopes = .ok () ↔ ∀ scope ∈ scopes, MayWrite t u scope := by
  unfold ensureCanManageScopes
  induction scopes with
  | nil => exact iff_of_true rfl nofun
  | cons scope scopes ih =>
    rw [List.forall_mem_cons, ← ih, ← canManageScope_iff hadmin]
    constructor
    · intro h
      obtain ⟨_, hhead, htail⟩ := bind_eq_ok.mp h
      obtain ⟨may, hmay, hhead⟩ := bind_eq_ok.mp hhead
      split_ifs at hhead with hmay'
      exact ⟨hmay' ▸ lift_eq_ok.mp hmay, htail⟩
    · rintro ⟨hhead, htail⟩
      refine bind_eq_ok.mpr ⟨(), bind_eq_ok.mpr ⟨true, lift_eq_ok.mpr hhead, rfl⟩, htail⟩

/-- A team that may be written is there. -/
theorem ownerOfTeam_of_write (hadmin : u.isAdmin = false) {id : Id}
    (h : canWriteTeam t.db (some u) id = .ok true) : ∃ owner, ownerOfTeam t id = .ok owner := by
  unfold canWriteTeam canTeam at h
  dsimp only at h
  rw [if_neg (by simp [hadmin])] at h
  obtain ⟨team, hteam, -⟩ := bind_eq_ok.mp h
  unfold Db.getTeam at hteam
  split at hteam
  · cases hteam
  · rename_i row hfind
    have hrow := List.find?_some hfind
    rw [decide_eq_true_iff] at hrow
    unfold ownerOfTeam
    split
    · rename_i hnone
      exact absurd hrow.1 (by simpa using List.find?_eq_none.mp hnone row (List.mem_of_find?_eq_some hfind))
    · exact ⟨_, rfl⟩

/-- The owner of scopes that may be written is found without an error. -/
theorem windowOwner_of_write (hadmin : u.isAdmin = false) {scopes : List Scope}
    (h : ∀ scope ∈ scopes, MayWrite t u scope) :
    ∃ owner, windowOwnerFromScopes t scopes = .ok owner := by
  -- by induction on the scopes, the first of which that names an owner decides
  induction scopes with
  | nil => exact ⟨{}, rfl⟩
  | cons scope scopes ih =>
    obtain ⟨⟨id, hid, hallows⟩, hscopes⟩ := List.forall_mem_cons.mp h
    have hhead : ∃ owner, ownerOfScope t scope = .ok owner := by
      have hrow : ∀ row : Option TeamRow, (∃ r, row = some r ∧
          canWriteTeam t.db (some u) r.team = .ok true) →
          ∃ owner, (row.map (·.team)).mapM (ownerOfTeam t) = .ok owner := by
        rintro row ⟨r, rfl, hwrites⟩
        obtain ⟨owner, howner⟩ := ownerOfTeam_of_write hadmin hwrites
        exact ⟨some owner, by simp [howner]⟩
      unfold ownerOfScope
      rw [hid]
      unfold Allows at hallows
      -- the team of a service or of a route is loaded to say whose it is
      cases hscope : scope.scopeType with
      | group => exact ⟨_, rfl⟩
      | team => exact ⟨_, rfl⟩
      | service =>
        rw [hscope] at hallows
        exact hrow _ hallows
      | route =>
        rw [hscope] at hallows
        exact hrow _ hallows
    obtain ⟨owner, howner⟩ := hhead
    cases owner with
    | some owner => exact ⟨owner, bind_eq_ok.mpr ⟨some owner, howner, rfl⟩⟩
    | none =>
      obtain ⟨rest, hrest⟩ := ih hscopes
      exact ⟨rest, bind_eq_ok.mpr ⟨none, howner, hrest⟩⟩

/-! ## What the requests check -/

theorem thenCheck_eq_none {first next : Except DbError (Option Response)} :
    thenCheck first next = .ok none ↔ first = .ok none ∧ next = .ok none := by
  unfold thenCheck
  split <;> simp

/-- The request may read a team when the user may. -/
theorem requireTeamRead_iff {req : Request} (huser : req.currentUser = some u)
    (hadmin : u.isAdmin = false) {id : Id} :
    requireTeamRead t.db req id = .ok none ↔ canReadTeam t.db (some u) id = .ok true := by
  have hnot : Rbac.isAdminUser req none = false := by
    unfold Rbac.isAdminUser
    rw [huser]
    exact hadmin
  unfold requireTeamRead requireTeam
  rw [hnot, huser, if_neg Bool.false_ne_true]
  constructor
  · intro h
    obtain ⟨may, hmay, h⟩ := bind_eq_ok.mp h
    cases may with
    | true => exact hmay
    | false => cases h
  · exact fun h => bind_eq_ok.mpr ⟨true, h, rfl⟩

theorem requireRowRead_iff {s : Store} {req : Request} (huser : req.currentUser = some u)
    (hadmin : u.isAdmin = false) {row : Id → Option TeamRow} {id : Id} :
    requireRowRead s req row id = .ok none ↔
      ∃ r, row id = some r ∧ canReadTeam s.tenancy.db (some u) r.team = .ok true := by
  unfold requireRowRead
  cases row id with
  | none => simp
  | some r => simp [requireTeamRead_iff (t := s.tenancy) huser hadmin]

theorem elim_ok_none {id : Option Id} {check : Id → Except DbError (Option Response)} :
    id.elim (.ok none) check = .ok none ↔ ∀ n, id = some n → check n = .ok none := by
  cases id <;> simp

/-- The columns that `_check_window_read` looks at. -/
structure ChecksRead (t : Tenancy) (u : User) (scope : Scope) : Prop where
  team : ∀ id, scope.team = some id → Allows t (canReadGroup t.db (some u))
    (canReadTeam t.db (some u)) .team id
  service : ∀ id, scope.service = some id → Allows t (canReadGroup t.db (some u))
    (canReadTeam t.db (some u)) .service id
  route : ∀ id, scope.route = some id → Allows t (canReadGroup t.db (some u))
    (canReadTeam t.db (some u)) .route id

/-- What `_check_window_read` decides. -/
theorem checkWindowRead_iff {s : Store} {req : Request} (huser : req.currentUser = some u)
    (hadmin : u.isAdmin = false) {scopes : List Scope} :
    checkWindowRead s req scopes = .ok none ↔ ∀ scope ∈ scopes, ChecksRead s.tenancy u scope := by
  induction scopes with
  | nil => exact iff_of_true rfl nofun
  | cons scope scopes ih =>
    rw [List.forall_mem_cons, ← ih, checkWindowRead]
    simp only [thenCheck_eq_none, elim_ok_none, requireTeamRead_iff (t := s.tenancy) huser hadmin,
      requireRowRead_iff huser hadmin]
    constructor
    · rintro ⟨hteam, hservice, hroute, hrest⟩
      exact ⟨⟨hteam, hservice, hroute⟩, hrest⟩
    · rintro ⟨⟨hteam, hservice, hroute⟩, hrest⟩
      exact ⟨hteam, hservice, hroute, hrest⟩

/-- Only the scope of a group may name something that was not looked at. -/
theorem ChecksRead.mayRead {scope : Scope} (h : ChecksRead t u scope)
    (hgroup : scope.scopeType = .group → MayRead t u scope) : MayRead t u scope := by
  intro id hid
  cases hscope : scope.scopeType with
  | group => exact hscope ▸ hgroup hscope id hid
  | team => exact h.team id (by simpa [Scope.targetId, hscope] using hid)
  | service => exact h.service id (by simpa [Scope.targetId, hscope] using hid)
  | route => exact h.route id (by simpa [Scope.targetId, hscope] using hid)

end Access

/-! ## What the repository writes -/

section Repository

variable {s : Store}

/-- A scope is added to its window. -/
theorem scopesOf_createScope (s : Store) (windowId : ℕ) (now : Instant) (scope : Scope) (n : ℕ) :
    (s.createScope windowId now scope).scopesOf n =
      s.scopesOf n ++ if windowId = n then [scope] else [] := by
  unfold Store.createScope Store.scopesOf IdTable.insert
  dsimp only
  rw [List.filter_append, List.map_append]
  split_ifs with h <;> simp [h]

/-- By induction on the scopes. -/
theorem scopesOf_createScopes (windowId : ℕ) (now : Instant) (scopes : List Scope) (s : Store)
    (n : ℕ) : (scopes.foldl (fun s => s.createScope windowId now) s).scopesOf n =
      s.scopesOf n ++ if windowId = n then scopes else [] := by
  induction scopes generalizing s with
  | nil => simp
  | cons scope scopes ih =>
    rw [List.foldl_cons, ih, scopesOf_createScope, List.append_assoc]
    split_ifs <;> simp

/-- Creating scopes leaves the windows and the tenants. -/
theorem windows_createScopes (windowId : ℕ) (now : Instant) (scopes : List Scope) (s : Store) :
    (scopes.foldl (fun s => s.createScope windowId now) s).windows = s.windows ∧
      (scopes.foldl (fun s => s.createScope windowId now) s).tenancy = s.tenancy := by
  induction scopes generalizing s with
  | nil => exact ⟨rfl, rfl⟩
  | cons scope scopes ih => exact ih (s.createScope windowId now scope)

/-- The window has the new scopes, and nothing else is written. -/
structure Replaced (windowId : ℕ) (scopes : List Scope) (s t : Store) : Prop where
  windows : t.windows = s.windows
  tenancy : t.tenancy = s.tenancy
  own : t.scopesOf windowId = scopes
  others : ∀ n, n ≠ windowId → t.scopesOf n = s.scopesOf n

/-- Replacing the scopes of a window leaves those of the others. -/
theorem replaceScopes_ok {windowId : ℕ} {scopes : List Scope} {now : Instant} {t : Store}
    (h : s.replaceMaintenanceWindowScopes windowId scopes now = .ok t) :
    Replaced windowId scopes s t := by
  unfold Store.replaceMaintenanceWindowScopes at h
  split_ifs at h
  cases h
  obtain ⟨hwindows, htenancy⟩ := windows_createScopes windowId now scopes
    { s with scopes := s.scopes.delete (·.window = windowId) }
  refine ⟨hwindows, htenancy, ?_, fun n hn => ?_⟩
  -- the window has its new scopes, the old ones being deleted first
  · rw [scopesOf_createScopes, if_pos rfl]
    unfold Store.scopesOf IdTable.delete
    simp
  -- other windows keep theirs
  · rw [scopesOf_createScopes, if_neg hn.symm, List.append_nil]
    unfold Store.scopesOf IdTable.delete
    dsimp only
    rw [List.filter_filter]
    congr 1
    refine List.filter_congr fun row _ => ?_
    by_cases hrow : row.window = n
    · simp [hrow, hn]
    · simp [hrow]

theorem replaceScopes_references {windowId : ℕ} {scopes : List Scope} {now : Instant} {t : Store}
    (h : s.replaceMaintenanceWindowScopes windowId scopes now = .ok t) :
    scopes.all (·.references s.tenancy) = true := by
  unfold Store.replaceMaintenanceWindowScopes at h
  split_ifs at h with hrefs
  exact hrefs

theorem replaceScopes_of_references {windowId : ℕ} {scopes : List Scope} {now : Instant}
    (h : scopes.all (·.references s.tenancy) = true) :
    ∃ t, s.replaceMaintenanceWindowScopes windowId scopes now = .ok t := by
  unfold Store.replaceMaintenanceWindowScopes
  rw [if_pos h]
  exact ⟨_, rfl⟩

theorem saveWindow_others {w old : Window} (hold : old ∈ s.windows.rows) (hid : old.id ≠ w.id) :
    old ∈ (s.saveWindow w).windows.rows :=
  IdTable.mem_save.mpr (.inl ⟨hold, hid⟩)

/-- A window that is locked was found. -/
theorem lockOrRaise_ok {windowId : ℕ} {w : Window} (h : lockOrRaise s windowId = .ok w) :
    s.lockMaintenanceWindow windowId = some w := by
  unfold lockOrRaise at h
  split at h
  · cases h
  · cases h
    assumption

theorem lockMaintenanceWindow_some {windowId : ℕ} {w : Window}
    (h : s.lockMaintenanceWindow windowId = some w) :
    w ∈ s.windows.rows ∧ w.id = windowId ∧ w.deleted = false := by
  obtain ⟨hget, hlive⟩ := Option.filter_eq_some_iff.mp h
  obtain ⟨hmem, hid⟩ := IdTable.get_eq_some.mp hget
  exact ⟨hmem, hid, by simpa using hlive⟩

end Repository

/-! ## The law -/

/-- A command, a request, or a change of what the windows refer to. -/
inductive Label where
  | command (userId : Option Id) (now : Instant) (c : Command)
  | list (req : Request) (f : WindowFilter)
  | get (req : Request) (windowId : ℕ)
  | tenancy (t : Tenancy)

section Law

variable (env : Environment)

def step (s : Store) : Label → Store
  | .command userId now c =>
    match c.run env s userId now with
    | .ok (t, _) => t
    | .error _ => s
  | .list _ _ | .get _ _ => s
  | .tenancy t => { s with tenancy := t }

/-- The window of a command on an existing window. -/
def Command.windowId : Command → Option ℕ
  | .create _ => none
  | .update n _ | .cancel n _ | .delete n => some n

/-- The response to a command has the window in it. -/
def Command.returnsWindow : Command → Prop
  | .create _ | .update _ _ | .cancel _ _ => True
  | .delete _ => False

/-- A successful command of a user on the window `w`. -/
structure CommandLaw (s t : Store) (u : User) (c : Command) (w : Window) : Prop where
  managed : ∀ n, c.windowId = some n →
    ∃ old ∈ s.windows.rows, old.id = n ∧ MayManage s.tenancy u old (s.scopesOf n)
  scopes : ∀ scope ∈ t.scopesOf w.id, MayWrite s.tenancy u scope ∨ scope ∈ s.scopesOf w.id
  returned : c.returnsWindow → ∀ scope ∈ t.scopesOf w.id, MayRead s.tenancy u scope
  own : ∀ n, c.windowId = some n → w.id = n
  others : ∀ old ∈ s.windows.rows, old.id ≠ w.id →
    old ∈ t.windows.rows ∧ t.scopesOf old.id = s.scopesOf old.id

/-- The windows of owners are theirs. -/
def Obeyed (s : Store) : Label → Prop
  | .command userId now c =>
    (∀ u t w, getUserOrRaise s.tenancy userId = .ok u → u.isAdmin = false →
      c.run env s userId now = .ok (t, w) → CommandLaw s t u c w) ∧
    ∀ e, c.run env s userId now = .error e → step env s (.command userId now c) = s
  | .list req f => ∀ u windows, req.currentUser = some u → u.isAdmin = false →
      listWindows env s req f = .ok (.ok windows) →
      ∀ w ∈ windows, ∀ scope ∈ s.scopesOf w.id, MayRead s.tenancy u scope
  | .get req windowId => ∀ u w, req.currentUser = some u → u.isAdmin = false →
      getWindow s req windowId = .ok (some (.ok w)) →
      ∀ scope ∈ s.scopesOf w.id, MayRead s.tenancy u scope
  | .tenancy _ => True

/-- Scopes of groups may be read. -/
def GroupsRead (s : Store) (u : User) (windowId : ℕ) : Prop :=
  ∀ scope ∈ s.scopesOf windowId, scope.scopeType = .group → MayRead s.tenancy u scope

/-- The steps that the checks of the code are enough for. -/
def Checked (s : Store) : Label → Prop
  | .command userId _ (.update n payload) => ∀ u w data, getUserOrRaise s.tenancy userId = .ok u →
      u.isAdmin = false → s.lockMaintenanceWindow n = some w →
      (∀ scopes, normalizeWindowPayload env (some w) payload = .ok (data, some scopes) →
        (∀ scope ∈ scopes, MayWrite s.tenancy u scope) →
        scopes.all (·.references s.tenancy) = true → MayManage s.tenancy u w (s.scopesOf n)) ∧
      (normalizeWindowPayload env (some w) payload = .ok (data, none) →
        ensureCanManageExistingWindow s.tenancy u w (s.scopesOf n) = .ok () →
        ∀ scope ∈ s.scopesOf n, MayRead s.tenancy u scope)
  | .command userId _ (.cancel n _) => ∀ u w, getUserOrRaise s.tenancy userId = .ok u →
      u.isAdmin = false → s.lockMaintenanceWindow n = some w →
      ensureCanManageExistingWindow s.tenancy u w (s.scopesOf n) = .ok () →
      ∀ scope ∈ s.scopesOf n, MayRead s.tenancy u scope
  | .command _ _ (.create _) | .command _ _ (.delete _) | .tenancy _ => True
  | .list req f => ∀ u, req.currentUser = some u → u.isAdmin = false →
      f.team.elim (.ok none) (requireTeamRead s.tenancy.db req) = .ok none →
      (∀ w ∈ s.listMaintenanceWindows env f, ∃ r, checkWindowRead s req (s.scopesOf w.id) = .ok r) →
      ∀ w ∈ s.listMaintenanceWindows env f, checkWindowRead s req (s.scopesOf w.id) = .ok none →
        GroupsRead s u w.id
  | .get req n => ∀ u w, req.currentUser = some u → u.isAdmin = false →
      s.lockMaintenanceWindow n = some w → checkWindowRead s req (s.scopesOf n) = .ok none →
      GroupsRead s u n

variable {env} {s : Store}

/-! ## Commands -/

section Commands

variable {userId : Option Id} {now : Instant} {u : User} {t : Store} {w : Window}

/-- A new window has scopes that its user may write, and reads. -/
theorem create_law (hadmin : u.isAdmin = false) (huser : getUserOrRaise s.tenancy userId = .ok u)
    {payload : WindowPayload}
    (h : createMaintenanceWindow env s userId now payload = .ok (t, w)) :
    CommandLaw s t u (.create payload) w := by
  obtain ⟨u', huser', h⟩ := bind_eq_ok.mp h
  obtain rfl := Except.ok.inj (huser.symm.trans huser')
  obtain ⟨⟨data, scopes⟩, -, h⟩ := bind_eq_ok.mp h
  obtain ⟨_, hensure, h⟩ := bind_eq_ok.mp h
  obtain ⟨owner, -, h⟩ := bind_eq_ok.mp h
  obtain ⟨t', hreplace, h⟩ := bind_eq_ok.mp h
  cases h
  -- every scope that is named was checked
  have hwrites := (ensureCanManageScopes_iff hadmin).mp hensure
  have hreplaced := replaceScopes_ok hreplace
  refine ⟨nofun, fun scope hscope => .inl (hwrites scope ?_),
    fun _ scope hscope => (hwrites scope ?_).mayRead, nofun, fun old hold hid => ⟨?_, ?_⟩⟩
  · exact hreplaced.own ▸ hscope
  · exact hreplaced.own ▸ hscope
  · rw [hreplaced.windows]
    exact List.mem_append_left _ hold
  · rw [hreplaced.others old.id hid]
    rfl

/-- A command that saves the window and leaves its scopes. -/
theorem save_law (c : Command) (w : Window) {n : ℕ} {old : Window} (hc : c.windowId = some n)
    (hlock : s.lockMaintenanceWindow n = some old) (hid : w.id = old.id) (hadmin : u.isAdmin = false)
    (hensure : ensureCanManageExistingWindow s.tenancy u old (s.scopesOf n) = .ok ()) :
    CommandLaw s (s.saveWindow w) u c w ↔
      (c.returnsWindow → ∀ scope ∈ s.scopesOf n, MayRead s.tenancy u scope) := by
  obtain ⟨hmem, hn, -⟩ := lockMaintenanceWindow_some hlock
  have hwn : w.id = n := hid.trans hn
  constructor
  · intro h hreturns
    have hreads := h.returned hreturns
    rwa [hwn] at hreads
  · refine fun h => ⟨fun m hm => ?_, fun scope hscope => .inr hscope, fun hreturns => ?_,
      fun m hm => ?_, fun r hr hne => ⟨saveWindow_others hr hne, rfl⟩⟩
    · obtain rfl := Option.some.inj (hc.symm.trans hm)
      exact ⟨old, hmem, hn, ensureCanManageExistingWindow_ok hadmin hensure⟩
    · rw [hwn]
      exact h hreturns
    · rw [hwn]
      exact Option.some.inj (hc.symm.trans hm)

/-- The window behind an update. -/
def updated (old : Window) (data : WindowData) (owner : Option Owner) : Window :=
  match owner with
  | some owner =>
    { old with toWindowData := data, group := owner.group, team := owner.team, reconciledAt := none }
  | none => { old with toWindowData := data, reconciledAt := none }

/-- The update of a window, with its scopes or without them. -/
theorem update_ok_iff {n : ℕ} {payload : WindowPayload} :
    updateMaintenanceWindow env s userId now n payload = .ok (t, w) ↔
      ∃ u old data scopes, getUserOrRaise s.tenancy userId = .ok u ∧
        s.lockMaintenanceWindow n = some old ∧
        normalizeWindowPayload env (some old) payload = .ok (data, scopes) ∧
        ((∃ new owner, scopes = some new ∧ ensureCanManageScopes s.tenancy u new = .ok () ∧
            windowOwnerFromScopes s.tenancy new = .ok owner ∧ w = updated old data (some owner) ∧
            (s.saveWindow w).replaceMaintenanceWindowScopes n new now = .ok t) ∨
          scopes = none ∧ w = updated old data none ∧ t = s.saveWindow w ∧
            ensureCanManageExistingWindow s.tenancy u old (s.scopesOf n) = .ok ()) := by
  constructor
  -- the checks come in the order of the function: the user, the row, the payload, the scopes
  · intro h
    obtain ⟨u, huser, h⟩ := bind_eq_ok.mp h
    obtain ⟨old, hlock, h⟩ := bind_eq_ok.mp h
    obtain ⟨⟨data, scopes⟩, hdata, h⟩ := bind_eq_ok.mp h
    refine ⟨u, old, data, scopes, huser, lockOrRaise_ok hlock, hdata, ?_⟩
    cases scopes with
    | some new =>
      obtain ⟨_, hensure, h⟩ := bind_eq_ok.mp h
      obtain ⟨owner, howner, h⟩ := bind_eq_ok.mp h
      obtain ⟨t', hreplace, h⟩ := bind_eq_ok.mp h
      cases h
      exact .inl ⟨new, owner, rfl, hensure, lift_eq_ok.mp howner, rfl, hreplace⟩
    | none =>
      obtain ⟨_, hensure, h⟩ := bind_eq_ok.mp h
      cases h
      exact .inr ⟨rfl, rfl, rfl, hensure⟩
  -- and where they all pass, the update does
  · rintro ⟨u, old, data, scopes, huser, hlock, hdata, hcases⟩
    have hlocked : lockOrRaise s n = .ok old := by
      unfold lockOrRaise
      rw [hlock]
    refine bind_eq_ok.mpr ⟨u, huser, bind_eq_ok.mpr ⟨old, hlocked,
      bind_eq_ok.mpr ⟨(data, scopes), hdata, ?_⟩⟩⟩
    rcases hcases with ⟨new, owner, rfl, hensure, howner, rfl, hreplace⟩ | ⟨rfl, rfl, rfl, hensure⟩
    · exact bind_eq_ok.mpr ⟨(), hensure, bind_eq_ok.mpr ⟨owner, lift_eq_ok.mpr howner,
        bind_eq_ok.mpr ⟨t, hreplace, rfl⟩⟩⟩
    · exact bind_eq_ok.mpr ⟨(), hensure, rfl⟩

/-- New scopes, which the user may write, take a window that he may manage. -/
theorem replace_law (c : Command) (w : Window) {n : ℕ} {old : Window} {scopes : List Scope}
    (hc : c.windowId = some n) (hlock : s.lockMaintenanceWindow n = some old) (hid : w.id = old.id)
    (hwrites : ∀ scope ∈ scopes, MayWrite s.tenancy u scope)
    (h : Replaced n scopes (s.saveWindow w) t) :
    CommandLaw s t u c w ↔ MayManage s.tenancy u old (s.scopesOf n) := by
  obtain ⟨hmem, hn, -⟩ := lockMaintenanceWindow_some hlock
  have hwn : w.id = n := hid.trans hn
  constructor
  -- who updates the row manages it
  · intro hlaw
    obtain ⟨old', hmem', hn', hmanage⟩ := hlaw.managed n hc
    rwa [← IdTable.eq_of_id hmem' hmem (hn'.trans hn.symm)]
  -- the scopes that are written were checked, and the other rows are not touched
  · intro hmanage
    refine ⟨fun m hm => ?_, fun scope hscope => .inl (hwrites scope ?_),
      fun _ scope hscope => (hwrites scope ?_).mayRead, fun m hm => ?_, fun r hr hne => ⟨?_, ?_⟩⟩
    · obtain rfl := Option.some.inj (hc.symm.trans hm)
      exact ⟨old, hmem, hn, hmanage⟩
    · rw [hwn, h.own] at hscope
      exact hscope
    · rw [hwn, h.own] at hscope
      exact hscope
    · rw [hwn]
      exact Option.some.inj (hc.symm.trans hm)
    · rw [h.windows]
      exact saveWindow_others hr hne
    · exact h.others r.id fun heq => hne (heq.trans hwn.symm)

/-- An update is lawful where the owner of the window is looked at, and the user may read
the scopes that are returned to him. -/
theorem update_law_iff {n : ℕ} {payload : WindowPayload} :
    (∀ u t w, getUserOrRaise s.tenancy userId = .ok u → u.isAdmin = false →
      updateMaintenanceWindow env s userId now n payload = .ok (t, w) →
      CommandLaw s t u (.update n payload) w) ↔
      Checked env s (.command userId now (.update n payload)) := by
  constructor
  -- a payload that writes only what the user may is accepted, so the law applies to it
  · intro h u old data huser hadmin hlock
    obtain ⟨-, hn, -⟩ := lockMaintenanceWindow_some hlock
    refine ⟨fun scopes hdata hwrites hrefs => ?_, fun hdata hensure => ?_⟩
    · obtain ⟨owner, howner⟩ := windowOwner_of_write hadmin hwrites
      obtain ⟨t, ht⟩ := @replaceScopes_of_references (s.saveWindow (updated old data (some owner)))
        n scopes now hrefs
      have hlaw := h u t _ huser hadmin (update_ok_iff.mpr ⟨u, old, data, some scopes, huser, hlock,
        hdata, .inl ⟨scopes, owner, rfl, (ensureCanManageScopes_iff hadmin).mpr hwrites, howner, rfl,
          ht⟩⟩)
      exact (replace_law (.update n payload) (updated old data (some owner)) rfl hlock rfl hwrites
        (replaceScopes_ok ht)).mp hlaw
    · have hlaw := h u _ _ huser hadmin (update_ok_iff.mpr ⟨u, old, data, none, huser, hlock, hdata,
        .inr ⟨rfl, rfl, rfl, hensure⟩⟩)
      exact (save_law (.update n payload) (updated old data none) rfl hlock rfl hadmin hensure).mp
        hlaw trivial
  -- what is accepted passed the check of its scopes, or that of the row
  · intro h u t w huser hadmin hrun
    obtain ⟨u', old, data, scopes, huser', hlock, hdata, hcases⟩ := update_ok_iff.mp hrun
    obtain rfl := Except.ok.inj (huser.symm.trans huser')
    obtain ⟨hscopes, hnone⟩ := h u old data huser hadmin hlock
    rcases hcases with ⟨new, owner, rfl, hensure, -, rfl, hreplace⟩ | ⟨rfl, rfl, rfl, hensure⟩
    · have hwrites := (ensureCanManageScopes_iff hadmin).mp hensure
      have hrefs := replaceScopes_references hreplace
      exact (replace_law (.update n payload) (updated old data (some owner)) rfl hlock rfl hwrites
        (replaceScopes_ok hreplace)).mpr (hscopes new hdata hwrites hrefs)
    · exact (save_law (.update n payload) (updated old data none) rfl hlock rfl hadmin hensure).mpr
        fun _ => hnone hdata hensure

/-- A command that saves one window. -/
theorem saving_ok_iff {n : ℕ} {f : User → Window → Window} :
    (do
      let user ← getUserOrRaise s.tenancy userId
      let window ← lockOrRaise s n
      ensureCanManageExistingWindow s.tenancy user window (s.scopesOf n)
      return (s.saveWindow (f user window), f user window)) = .ok (t, w) ↔
      ∃ u old, getUserOrRaise s.tenancy userId = .ok u ∧ s.lockMaintenanceWindow n = some old ∧
        ensureCanManageExistingWindow s.tenancy u old (s.scopesOf n) = .ok () ∧
        w = f u old ∧ t = s.saveWindow w := by
  constructor
  -- the row is locked before the user is checked against it
  · intro h
    obtain ⟨u, huser, h⟩ := bind_eq_ok.mp h
    obtain ⟨old, hlock, h⟩ := bind_eq_ok.mp h
    obtain ⟨_, hensure, h⟩ := bind_eq_ok.mp h
    cases h
    exact ⟨u, old, huser, lockOrRaise_ok hlock, hensure, rfl, rfl⟩
  · rintro ⟨u, old, huser, hlock, hensure, rfl, rfl⟩
    have hlocked : lockOrRaise s n = .ok old := by
      unfold lockOrRaise
      rw [hlock]
    exact bind_eq_ok.mpr ⟨u, huser, bind_eq_ok.mpr ⟨old, hlocked, bind_eq_ok.mpr ⟨(), hensure, rfl⟩⟩⟩

/-- A cancellation is lawful exactly when the owner of the window is looked at. -/
theorem cancel_law_iff {n : ℕ} {reason : Option String} :
    (∀ u t w, getUserOrRaise s.tenancy userId = .ok u → u.isAdmin = false →
      cancelMaintenanceWindow s userId now n reason = .ok (t, w) →
      CommandLaw s t u (.cancel n reason) w) ↔
      Checked env s (.command userId now (.cancel n reason)) := by
  constructor
  · intro h u old huser hadmin hlock hensure
    have hlaw := h u _ _ huser hadmin (saving_ok_iff.mpr ⟨u, old, huser, hlock, hensure, rfl, rfl⟩)
    exact (save_law (.cancel n reason) _ rfl hlock (by rfl) hadmin hensure).mp hlaw trivial
  · intro h u t w huser hadmin hrun
    obtain ⟨u', old, huser', hlock, hensure, rfl, rfl⟩ := saving_ok_iff.mp hrun
    obtain rfl := Except.ok.inj (huser.symm.trans huser')
    exact (save_law (.cancel n reason) _ rfl hlock (by rfl) hadmin hensure).mpr
      fun _ => h u old huser hadmin hlock hensure

/-- Only who may manage a window deletes it. -/
theorem delete_law (hadmin : u.isAdmin = false) (huser : getUserOrRaise s.tenancy userId = .ok u)
    {n : ℕ} (h : deleteMaintenanceWindow s userId now n = .ok (t, w)) :
    CommandLaw s t u (.delete n) w := by
  obtain ⟨u', old, huser', hlock, hensure, rfl, rfl⟩ := saving_ok_iff.mp h
  obtain rfl := Except.ok.inj (huser.symm.trans huser')
  exact (save_law (.delete n) _ rfl hlock (by rfl) hadmin hensure).mpr False.elim

/-- A command that raises changes nothing. -/
theorem step_error {e : CommandError} {c : Command} (h : c.run env s userId now = .error e) :
    step env s (.command userId now c) = s := by
  unfold step
  dsimp only
  rw [h]

/-- **One command** obeys the owners, if and only if what it does not check is theirs. -/
theorem command_obeyed_iff (c : Command) :
    Obeyed env s (.command userId now c) ↔ Checked env s (.command userId now c) := by
  refine (and_iff_left fun e => step_error).trans ?_
  cases c with
  | create payload =>
    exact iff_of_true (fun u t w huser hadmin hrun => create_law hadmin huser hrun) trivial
  | update n payload => exact update_law_iff
  | cancel n reason => exact cancel_law_iff
  | delete n => exact iff_of_true (fun u t w huser hadmin hrun => delete_law hadmin huser hrun) trivial

end Commands

/-! ## Requests -/

section Requests

variable {req : Request} {u : User}

/-- A window that passes the check is readable where the scopes of groups are. -/
theorem read_iff (huser : req.currentUser = some u) (hadmin : u.isAdmin = false) {n : ℕ}
    (h : checkWindowRead s req (s.scopesOf n) = .ok none) :
    (∀ scope ∈ s.scopesOf n, MayRead s.tenancy u scope) ↔ GroupsRead s u n := by
  constructor
  · exact fun hall scope hscope _ => hall scope hscope
  · exact fun hgroups scope hscope =>
      ((checkWindowRead_iff huser hadmin).mp h scope hscope).mayRead (hgroups scope hscope)

/-- A window is returned when the request may read all its scopes. -/
theorem getWindow_ok_iff {n : ℕ} {w : Window} : getWindow s req n = .ok (some (.ok w)) ↔
    s.lockMaintenanceWindow n = some w ∧ checkWindowRead s req (s.scopesOf n) = .ok none := by
  have hget : s.getMaintenanceWindow n = s.lockMaintenanceWindow n := rfl
  unfold getWindow
  rw [hget]
  cases hlock : s.lockMaintenanceWindow n with
  | none => simp
  | some window =>
    dsimp only
    obtain ⟨-, hn, -⟩ := lockMaintenanceWindow_some hlock
    rw [hn]
    -- a response in place of the row is not the row
    constructor
    · intro h
      obtain ⟨r, hr, h⟩ := bind_eq_ok.mp h
      cases r with
      | some response => cases h
      | none =>
        cases h
        exact ⟨rfl, hr⟩
    · rintro ⟨hw, hcheck⟩
      cases hw
      exact bind_eq_ok.mpr ⟨none, hcheck, rfl⟩

theorem get_obeyed_iff (n : ℕ) : Obeyed env s (.get req n) ↔ Checked env s (.get req n) := by
  constructor
  · intro h u w huser hadmin hlock hcheck
    have hreads := h u w huser hadmin (getWindow_ok_iff.mpr ⟨hlock, hcheck⟩)
    rw [(lockMaintenanceWindow_some hlock).2.1] at hreads
    exact (read_iff huser hadmin hcheck).mp hreads
  · intro h u w huser hadmin hget
    obtain ⟨hlock, hcheck⟩ := getWindow_ok_iff.mp hget
    rw [(lockMaintenanceWindow_some hlock).2.1]
    exact (read_iff huser hadmin hcheck).mpr (h u w huser hadmin hlock hcheck)

/-- Where no check raises, the windows that pass it are visible. -/
theorem visibleWindows_ok {ws visible : List Window} (h : visibleWindows s req ws = .ok visible) :
    (∀ w ∈ ws, ∃ r, checkWindowRead s req (s.scopesOf w.id) = .ok r) ∧
      ∀ w, w ∈ visible ↔ w ∈ ws ∧ checkWindowRead s req (s.scopesOf w.id) = .ok none := by
  induction ws generalizing visible with
  | nil =>
    cases h
    exact ⟨fun w hw => absurd hw List.not_mem_nil, fun w => by simp⟩
  | cons v ws ih =>
    rw [visibleWindows] at h
    obtain ⟨r, hr, h⟩ := bind_eq_ok.mp h
    cases r with
    | none =>
      obtain ⟨rest, hrest, h⟩ := bind_eq_ok.mp h
      cases h
      obtain ⟨hchecks, hmem⟩ := ih hrest
      refine ⟨List.forall_mem_cons.mpr ⟨⟨none, hr⟩, hchecks⟩, fun w => ?_⟩
      rw [List.mem_cons, List.mem_cons, hmem, or_and_right]
      exact or_congr (iff_self_and.mpr fun heq => heq ▸ hr) Iff.rfl
    | some response =>
      obtain ⟨hchecks, hmem⟩ := ih h
      refine ⟨List.forall_mem_cons.mpr ⟨⟨some response, hr⟩, hchecks⟩, fun w => ?_⟩
      rw [List.mem_cons, hmem, or_and_right]
      -- the refused window is not among them
      refine (or_iff_right ?_).symm
      rintro ⟨rfl, hnone⟩
      cases hr.symm.trans hnone

/-- The list is built when each check of it returns. -/
theorem visibleWindows_of_ok {ws : List Window}
    (h : ∀ w ∈ ws, ∃ r, checkWindowRead s req (s.scopesOf w.id) = .ok r) :
    ∃ visible, visibleWindows s req ws = .ok visible := by
  induction ws with
  | nil => exact ⟨[], rfl⟩
  | cons v ws ih =>
    obtain ⟨⟨r, hr⟩, hws⟩ := List.forall_mem_cons.mp h
    obtain ⟨visible, hvisible⟩ := ih hws
    cases r with
    | none => exact ⟨v :: visible, bind_eq_ok.mpr ⟨none, hr, bind_eq_ok.mpr ⟨visible, hvisible, rfl⟩⟩⟩
    | some response => exact ⟨visible, bind_eq_ok.mpr ⟨some response, hr, hvisible⟩⟩

/-- And it is answered when the team that is asked for may be read. -/
theorem listWindows_ok_iff {f : WindowFilter} {windows : List Window} :
    listWindows env s req f = .ok (.ok windows) ↔
      f.team.elim (.ok none) (requireTeamRead s.tenancy.db req) = .ok none ∧
        visibleWindows s req (s.listMaintenanceWindows env f) = .ok windows := by
  constructor
  · intro h
    obtain ⟨r, hr, h⟩ := bind_eq_ok.mp h
    cases r with
    | some response => cases h
    | none =>
      obtain ⟨visible, hvisible, h⟩ := bind_eq_ok.mp h
      cases h
      exact ⟨hr, hvisible⟩
  · rintro ⟨hteam, hvisible⟩
    exact bind_eq_ok.mpr ⟨none, hteam, bind_eq_ok.mpr ⟨windows, hvisible, rfl⟩⟩

/-- A list shows what each of its windows lets be read. -/
theorem list_obeyed_iff (f : WindowFilter) :
    Obeyed env s (.list req f) ↔ Checked env s (.list req f) := by
  constructor
  · intro h u huser hadmin hteam hchecks w hw hcheck
    obtain ⟨visible, hvisible⟩ := visibleWindows_of_ok hchecks
    have hmem := ((visibleWindows_ok hvisible).2 w).mpr ⟨hw, hcheck⟩
    exact (read_iff huser hadmin hcheck).mp
      (h u visible huser hadmin (listWindows_ok_iff.mpr ⟨hteam, hvisible⟩) w hmem)
  · intro h u windows huser hadmin hlist w hw
    obtain ⟨hteam, hvisible⟩ := listWindows_ok_iff.mp hlist
    obtain ⟨hchecks, hmem⟩ := visibleWindows_ok hvisible
    obtain ⟨hlisted, hcheck⟩ := (hmem w).mp hw
    exact (read_iff huser hadmin hcheck).mpr (h u huser hadmin hteam hchecks w hlisted hcheck)

end Requests

/-- One step, a command or a request. -/
theorem obeyed_iff (l : Label) : Obeyed env s l ↔ Checked env s l := by
  cases l with
  | command userId now c => exact command_obeyed_iff c
  | list req f => exact list_obeyed_iff f
  | get req n => exact get_obeyed_iff n
  | tenancy t => exact Iff.rfl

end Law

/-- **The maintenance of others is neither touched nor seen**, in exactly the runs in which
new scopes replace those of a window that the user may manage, and the scopes of groups, and
those of a window that a command returns, are his to read. -/
theorem owners_obeyed_iff (env : Environment) (s : Store) (ls : List Label) :
    Along (step env) (Obeyed env) s ls ↔ Along (step env) (Checked env) s ls :=
  along_iff (I := fun _ => True) (fun _ l _ => obeyed_iff l) (fun _ _ _ _ => trivial) trivial ls

/-! ## A window that changes hands -/

section Takeover

/-- A manager of the first team. -/
def firstManager : User := ⟨7, false, true, none⟩

/-- Two tenants with a team each. -/
def twoTenants : Tenancy where
  db :=
    { users := [firstManager]
      groups := [⟨1, true, false⟩, ⟨2, true, false⟩]
      userGroups := [⟨7, 1, "viewer", true⟩]
      teams := [⟨1, some 1, true, false⟩, ⟨2, some 2, true, false⟩]
      teamUsers := [⟨1, 7, "manager", true⟩]
      memberships_nodup := by decide }
  services := []
  routes := []

def teamScope (id : Id) : Scope := ⟨.team, none, some id, none, none⟩

/-- A window of the second team. -/
def secondWindow : Window where
  id := 1
  name := "upgrade"
  description := none
  behavior := "suppress_notifications"
  timezone := "UTC"
  rrule := none
  startsAt := 0
  endsAt := 3600
  enabled := true
  applyToExisting := false
  reactivateOnEnd := true
  group := some 2
  team := some 2
  status := "scheduled"
  reconciledAt := none
  cancelledBy := none
  cancelledAt := none
  cancelReason := none
  deleted := false
  deletedAt := none

def secondStore : Store where
  tenancy := twoTenants
  windows := ⟨[secondWindow], 2, by decide, by decide⟩
  scopes := ⟨[⟨1, 1, teamScope 2, 0⟩], 2, by decide, by decide⟩

def plainEnvironment : Environment := ⟨fun _ => 0, fun _ _ => true, fun w => w.status⟩

/-- **The manager of the first team takes the window of the second** with new scopes. -/
theorem window_taken_over :
    ¬∀ env s ls, Along (step env) (Obeyed env) s ls := by
  -- the manager of the first team writes its own scope over the one of the second
  intro h
  obtain ⟨⟨hlaw, -⟩, -⟩ := h plainEnvironment secondStore
    [.command (some 7) 60 (.update 1 { scopes := some (some [teamScope 1]) })]
  cases hrun : (Command.update 1 { scopes := some (some [teamScope 1]) }).run plainEnvironment
      secondStore (some 7) 60 with
  | error e =>
    have hok : ((Command.update 1 { scopes := some (some [teamScope 1]) }).run plainEnvironment
        secondStore (some 7) 60).toOption.isSome = true := by decide +kernel
    rw [hrun] at hok
    cases hok
  | ok r =>
    obtain ⟨old, hold, -, hmanage⟩ := (hlaw firstManager r.1 r.2 rfl rfl hrun).managed 1 rfl
    obtain rfl := List.mem_singleton.mp hold
    rcases hmanage with ⟨id, hid, hwrites⟩ | ⟨id, hid, hwrites⟩ | ⟨scope, hscope, hwrites⟩
    · cases hid
      cases hwrites
    · cases hid
      cases hwrites
    · obtain rfl := List.mem_singleton.mp hscope
      cases (canManageScope_iff rfl).mpr hwrites

end Takeover

end IncidentRelay.Maintenance
