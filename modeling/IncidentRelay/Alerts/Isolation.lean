import IncidentRelay.Alerts.Accepted
import IncidentRelay.Alerts.Effects
import IncidentRelay.Lib.Run

/-!
# Tenants do not meet in the intake

A row belongs to the tenant of its team. A call of `upsert_alert` for a route of a
tenant is isolated when it touches the rows of that tenant only. `find_existing_alert`
is not given the route of the event, so it may return the alert of another tenant with
the same source and key; that is the one way out (`intake_isolated_iff`).
-/

namespace IncidentRelay.Alerts

open Json Orchestration RouteSelection Pending

/-! ## Owners -/

/-- `Team.get(id).group_id`. -/
def tenantOf (db : Entities) (team : Option Id) : Option Id :=
  team.bind fun id => (byId (fun t : TeamRow => t.id) db.teams id).bind (·.group)

/-- The tenant that owns a route. -/
def Arrival.tenant (a : Arrival) : Option Id := a.route.team.group

/-- The two tables differ in the rows of a tenant only. -/
structure Isolated (db : Entities) (tenant : Option Id) (s t : Store) : Prop where
  alerts : IdTable.Confined (fun a : Alert => tenantOf db a.team = tenant) s.alerts t.alerts
  groups : IdTable.Confined (fun g : AlertGroup => tenantOf db g.team = tenant) s.groups t.groups

/-- The group of an alert is there and of the tenant of the alert. -/
def Homogeneous (db : Entities) (s : Store) : Prop :=
  ∀ a ∈ s.alerts.rows, ∀ n ∈ a.group,
    ∃ g ∈ s.groups.rows, g.id = n ∧ tenantOf db g.team = tenantOf db a.team

theorem tenantOf_route {db : Entities} {r : Route} (h : r ∈ db.routes) :
    tenantOf db (some r.team.id) = r.team.group := by
  unfold tenantOf
  rw [Option.bind_some, byId_self db.teams_key (db.route_team r h), Option.bind_some]

namespace Isolated

variable {db : Entities} {tenant : Option Id} {s t u : Store}

theorem refl (s : Store) : Isolated db tenant s s := ⟨.refl _, .refl _⟩

theorem trans (h : Isolated db tenant s t) (h' : Isolated db tenant t u) :
    Isolated db tenant s u := ⟨h.alerts.trans h'.alerts, h.groups.trans h'.groups⟩

end Isolated

/-! ## Working on a group -/

/-- Since the store `s₀` only rows of the tenant were touched; the group is one of
them. -/
structure Held (db : Entities) (tenant : Option Id) (s₀ s : Store) (g : AlertGroup) : Prop where
  isolated : Isolated db tenant s₀ s
  homogeneous : Homogeneous db s
  own : tenantOf db g.team = tenant
  stored : ∃ g' ∈ s.groups.rows, g'.id = g.id ∧ tenantOf db g'.team = tenant

namespace Held

variable {db : Entities} {tenant : Option Id} {s₀ s : Store} {g : AlertGroup}

/-- The rows of the group are its own. -/
theorem group_own (h : Held db tenant s₀ s g) {g' : AlertGroup} (hg' : g' ∈ s.groups.rows)
    (hid : g'.id = g.id) : tenantOf db g'.team = tenant := by
  obtain ⟨stored, hstored, hstored_id, hown⟩ := h.stored
  rwa [IdTable.eq_of_id hg' hstored (hid.trans hstored_id.symm)]

/-- The children of a group that is held are those of the tenant. -/
theorem child_own (h : Held db tenant s₀ s g) {a : Alert} (ha : a ∈ s.alerts.rows)
    (hchild : Store.childOf g.id a = true) : tenantOf db a.team = tenant := by
  have hgroup : a.group = some g.id := of_decide_eq_true hchild
  obtain ⟨g', hg', hid, htenant⟩ := h.homogeneous a ha g.id hgroup
  rw [← htenant]
  exact h.group_own hg' hid

/-- The row of the group may be written. -/
theorem saveGroup (h : Held db tenant s₀ s g) {g' : AlertGroup} (hid : g'.id = g.id)
    (hteam : g'.team = g.team) : Held db tenant s₀ (s.saveGroup g') g' := by
  have hown : tenantOf db g'.team = tenant := by rw [hteam, h.own]
  obtain ⟨stored, hstored, hstored_id, -⟩ := h.stored
  have hsaved : g' ∈ (s.groups.save g').rows :=
    IdTable.mem_save.mpr (.inr ⟨rfl, stored, hstored, hstored_id.trans hid.symm⟩)
  refine ⟨h.isolated.trans ⟨.refl _, .save hown ?_⟩, ?_, hown, g', hsaved, rfl, hown⟩
  · intro r hr hr_id
    exact h.group_own hr (hr_id.trans hid)
  · intro a ha n hn
    obtain ⟨r, hr, rfl, htenant⟩ := h.homogeneous a ha n hn
    by_cases hr_id : r.id = g'.id
    · refine ⟨g', hsaved, hr_id.symm, ?_⟩
      rw [hown, ← htenant]
      exact (h.group_own hr (hr_id.trans hid)).symm
    · exact ⟨r, IdTable.mem_save.mpr (.inl ⟨hr, hr_id⟩), rfl, htenant⟩

/-- The children may be rewritten. -/
theorem updateAlerts (h : Held db tenant s₀ s g) {guard : Alert → Bool} {set : Alert → Alert}
    (hset : ∀ a, (set a).id = a.id) (hguard : ∀ a, guard a = true → Store.childOf g.id a = true)
    (hkept : ∀ a, (set a).group = a.group ∧ (set a).team = a.team) :
    Held db tenant s₀ (s.updateAlerts guard set hset) g := by
  refine ⟨h.isolated.trans ⟨.update hset ?_, .refl _⟩, ?_, h.own, h.stored⟩
  · intro a ha hg
    have hown := h.child_own ha (hguard a hg)
    rw [(hkept a).2]
    exact ⟨hown, hown⟩
  · intro a ha n hn
    have ha : a ∈ (s.alerts.update guard set hset).rows := ha
    obtain ⟨a₀, ha₀, ⟨-, rfl⟩ | ⟨-, rfl⟩⟩ := IdTable.mem_update.mp ha
    · rw [(hkept a₀).1] at hn
      rw [(hkept a₀).2]
      exact h.homogeneous a₀ ha₀ n hn
    · exact h.homogeneous a ha₀ n hn

/-- An alert of the tenant may be put into the group. -/
theorem saveAlert (h : Held db tenant s₀ s g) {a : Alert} (hgroup : a.group = some g.id)
    (hown : tenantOf db a.team = tenant)
    (hbefore : ∀ r ∈ s.alerts.rows, r.id = a.id → tenantOf db r.team = tenant) :
    Held db tenant s₀ (s.saveAlert a) g := by
  refine ⟨h.isolated.trans ⟨.save hown hbefore, .refl _⟩, ?_, h.own, h.stored⟩
  intro r hr n hn
  rcases IdTable.mem_save.mp hr with ⟨hr, -⟩ | ⟨rfl, -⟩
  · exact h.homogeneous r hr n hn
  · obtain ⟨stored, hstored, hstored_id, hstored_own⟩ := h.stored
    obtain rfl := Option.some.inj (hgroup.symm.trans hn)
    exact ⟨stored, hstored, hstored_id, hstored_own.trans hown.symm⟩

theorem insertAlert (h : Held db tenant s₀ s g) {a : Alert} (hid : a.id = s.alerts.next)
    (hgroup : a.group = some g.id) (hown : tenantOf db a.team = tenant) :
    Held db tenant s₀ { s with alerts := s.alerts.insert a hid } g := by
  refine ⟨h.isolated.trans ⟨.insert hid hown, .refl _⟩, ?_, h.own, h.stored⟩
  intro r hr n hn
  have hr : r ∈ (s.alerts.insert a hid).rows := hr
  rcases IdTable.mem_insert.mp hr with hr | rfl
  · exact h.homogeneous r hr n hn
  · obtain ⟨stored, hstored, hstored_id, hstored_own⟩ := h.stored
    obtain rfl := Option.some.inj (hgroup.symm.trans hn)
    exact ⟨stored, hstored, hstored_id, hstored_own.trans hown.symm⟩

/-- A new group is its own. -/
theorem insertGroup (hisolated : Isolated db tenant s₀ s) (hhomogeneous : Homogeneous db s)
    (hid : g.id = s.groups.next) (hown : tenantOf db g.team = tenant) :
    Held db tenant s₀ { s with groups := s.groups.insert g hid } g := by
  have hmem : g ∈ (s.groups.insert g hid).rows := IdTable.mem_insert.mpr (.inr rfl)
  refine ⟨hisolated.trans ⟨.refl _, .insert hid hown⟩, ?_, hown, g, hmem, rfl, hown⟩
  intro a ha n hn
  obtain ⟨g', hg', hg'_id, htenant⟩ := hhomogeneous a ha n hn
  have hkept : g' ∈ (s.groups.insert g hid).rows := IdTable.mem_insert.mpr (.inl hg')
  exact ⟨g', hkept, hg'_id, htenant⟩

/-- A group that was looked up. -/
theorem found (hisolated : Isolated db tenant s₀ s) (hhomogeneous : Homogeneous db s)
    (hg : g ∈ s.groups.rows) (hown : tenantOf db g.team = tenant) : Held db tenant s₀ s g :=
  ⟨hisolated, hhomogeneous, hown, g, hg, rfl, hown⟩

/-! ### The functions -/

variable (env : Services) (now : Instant)

/-- A recalculation keeps hold of the group. -/
theorem recalculate (h : Held db tenant s₀ s g) :
    Held db tenant s₀ (s.recalculateAlertGroup g now).1 (s.recalculateAlertGroup g now).2 := by
  -- recounting writes neither the id nor the tenant of a group
  have hsame : ∀ alerts, (Store.recalculated alerts now g).id = g.id ∧
      (Store.recalculated alerts now g).team = g.team := by
    intro alerts
    have hsummary : (Store.summarize alerts g).id = g.id ∧
        (Store.summarize alerts g).team = g.team := by
      unfold Store.summarize
      split
      · exact ⟨rfl, rfl⟩
      · exact ⟨rfl, rfl⟩
    have heffective : ∀ g' : AlertGroup, (Store.effectiveStatus alerts now g').id = g'.id ∧
        (Store.effectiveStatus alerts now g').team = g'.team := by
      intro g'
      unfold Store.effectiveStatus Store.reopenedFields
      split_ifs <;> exact ⟨rfl, rfl⟩
    unfold Store.recalculated
    dsimp only
    rw [(heffective _).1, (heffective _).2]
    exact hsummary
  unfold Store.recalculateAlertGroup
  dsimp only
  -- it resumes or keeps the alerts of that group only
  split_ifs
  · refine (h.updateAlerts _ ?_ ?_).saveGroup (hsame _).1 (hsame _).2
    · intro a hg
      exact (Bool.and_eq_true_iff.mp hg).1
    · exact fun a => ⟨rfl, rfl⟩
  · exact h.saveGroup (hsame _).1 (hsame _).2

theorem restoreChildren (h : Held db tenant s₀ s g) :
    Held db tenant s₀ (Alerts.restoreChildren s g.id) g := by
  unfold Alerts.restoreChildren
  refine (h.updateAlerts _ ?_ ?_).updateAlerts _ ?_ ?_
  · intro a hg
    exact (Bool.and_eq_true_iff.mp (Bool.and_eq_true_iff.mp hg).1).1
  · exact fun a => ⟨rfl, rfl⟩
  · intro a hg
    exact (Bool.and_eq_true_iff.mp hg).1
  · exact fun a => ⟨rfl, rfl⟩

theorem recompute (h : Held db tenant s₀ s g) (behaviors : List Behavior) :
    Held db tenant s₀ (recomputeGroupEffects env s g behaviors now).1
      (recomputeGroupEffects env s g behaviors now).2 := by
  unfold recomputeGroupEffects
  dsimp only
  -- by whether an application still holds the group
  split
  · refine saveGroup (g := g) (h.updateAlerts _ ?_ ?_) rfl rfl
    · intro a hg
      exact (Bool.and_eq_true_iff.mp (Bool.and_eq_true_iff.mp hg).1).1
    · exact fun a => ⟨rfl, rfl⟩
  -- none does: the children are restored and the group recounted
  · split
    · have hrestored : Held db tenant s₀ _ { g with
          status := env.originalStatus s g, resolvedAt := none, resolvedBy := none } :=
        h.restoreChildren.saveGroup rfl rfl
      refine (hrestored.recalculate now).saveGroup ?_ ?_
      · dsimp only
        split_ifs <;> rfl
      · dsimp only
        split_ifs <;> rfl
    · exact h.saveGroup rfl rfl

/-- By induction on the windows that apply. -/
theorem reconcile (h : Held db tenant s₀ s g) :
    Held db tenant s₀ (reconcileMaintenance env s g now).1 (reconcileMaintenance env s g now).2 := by
  unfold reconcileMaintenance
  generalize env.activeBehaviors s g now = windows
  induction windows generalizing s g with
  | nil => exact h
  | cons behaviors windows ih =>
    rw [List.foldl_cons]
    exact ih (h.recompute env now behaviors)

end Held

/-! ## Writing an event -/

section Event

variable {db : Entities} (env : Services) (a : Arrival) (now : Instant) {s₀ s : Store}

/-- A group with the identity of the event is of the event's tenant. -/
theorem tenant_of_identity (hroute : a.route ∈ db.routes) {g : AlertGroup}
    (h : Store.matchesIdentity env.sha256 (a.identity env) g = true) :
    tenantOf db g.team = a.tenant := by
  have hteam : g.team = some a.route.team.id := by
    unfold Store.matchesIdentity at h
    exact (of_decide_eq_true h).2.2.2.1
  rw [hteam]
  exact tenantOf_route hroute

/-- The open group that the identity finds has the tenant of the event: it has the team of its
route. -/
theorem openGroup_own (hroute : a.route ∈ db.routes) {g : AlertGroup}
    (h : s.findOpenAlertGroup env.sha256 (a.identity env) = some g) :
    g ∈ s.groups.rows ∧ tenantOf db g.team = a.tenant := by
  obtain ⟨hmem, hopen⟩ := IdTable.latest_spec h
  have hteam : g.team = some a.route.team.id := by
    have hall := (of_decide_eq_true hopen).2.2.2.2.2.1
    exact of_decide_eq_true hall
  refine ⟨hmem, ?_⟩
  rw [hteam]
  exact tenantOf_route hroute

variable (hroute : a.route ∈ db.routes) (hisolated : Isolated db a.tenant s₀ s)
  (hhomogeneous : Homogeneous db s)

include hroute hisolated hhomogeneous

theorem held_createGroup (status : Status) (firstSeenAt : Instant) (silenced : Bool) :
    Held db a.tenant s₀ (createGroup env a now s status firstSeenAt silenced).1
      (createGroup env a now s status firstSeenAt silenced).2 :=
  .insertGroup hisolated hhomogeneous rfl (tenantOf_route hroute)

/-- An alert of the tenant leads to a group of the tenant. -/
theorem held_groupForExisting (status : Status) {existing : Alert}
    (hexisting : existing ∈ s.alerts.rows) (hown : tenantOf db existing.team = a.tenant)
    {openGroup : Option AlertGroup}
    (hopen : ∀ g ∈ openGroup, g ∈ s.groups.rows ∧ tenantOf db g.team = a.tenant) :
    Held db a.tenant s₀ (groupForExisting env a now s status existing openGroup).1
      (groupForExisting env a now s status existing openGroup).2 := by
  unfold groupForExisting
  split
  · rename_i g hg
    rw [Option.orElse_eq_orElse, Option.orElse_eq_or, Option.or_eq_some_iff] at hg
    rcases hg with hgroup | ⟨-, hgroup⟩
    · -- the group of the alert is of the alert's tenant
      obtain ⟨n, hn, hget⟩ := Option.bind_eq_some_iff.mp hgroup
      obtain ⟨hmem, rfl⟩ := IdTable.get_eq_some.mp hget
      obtain ⟨g', hg', hid, htenant⟩ := hhomogeneous existing hexisting g.id hn
      obtain rfl := IdTable.eq_of_id hg' hmem hid
      exact .found hisolated hhomogeneous hmem (htenant.trans hown)
    · exact .found hisolated hhomogeneous (hopen g hgroup).1 (hopen g hgroup).2
  · exact held_createGroup env a now hroute hisolated hhomogeneous _ _ _

theorem held_handleExisting (status : Status) {existing : Alert}
    (hexisting : existing ∈ s.alerts.rows) (hown : tenantOf db existing.team = a.tenant)
    {openGroup : Option AlertGroup}
    (hopen : ∀ g ∈ openGroup, g ∈ s.groups.rows ∧ tenantOf db g.team = a.tenant) :
    ∃ g, Held db a.tenant s₀ (handleExistingAlert env a now s status existing openGroup).1 g := by
  -- the alert that was found is in a group of the tenant
  have hfound := held_groupForExisting env a now hroute hisolated hhomogeneous status hexisting
    hown hopen
  have halerts := groupForExisting_alerts env a now s status existing openGroup
  unfold handleExistingAlert
  generalize groupForExisting env a now s status existing openGroup = found at hfound halerts
  obtain ⟨s₁, g⟩ := found
  dsimp only at hfound halerts ⊢
  have hmarked : Held db a.tenant s₀ _ { g with
      orchestrationSuppressed := a.suppressed,
      orchestrationSuppressReason := a.suppressReason } := hfound.saveGroup rfl rfl
  have hsaved := hmarked.saveAlert (a := refreshedAlert env a now existing status g.id) rfl
    (tenantOf_route hroute) (by
      intro r hr hid
      have hr : r ∈ s₁.alerts.rows := hr
      rw [halerts] at hr
      rwa [IdTable.eq_of_id hr hexisting hid])
  exact ⟨_, (hsaved.reconcile env now).recalculate now⟩

/-- A group that is chosen for a new alert is one of the tenant. -/
theorem held_chooseGroup (status : Status) (silenced reopenEnabled : Bool)
    {openGroup : Option AlertGroup}
    (hopen : ∀ g ∈ openGroup, g ∈ s.groups.rows ∧ tenantOf db g.team = a.tenant) :
    Held db a.tenant s₀ (chooseGroup env a now s status silenced reopenEnabled openGroup).1
      (chooseGroup env a now s status silenced reopenEnabled openGroup).2 := by
  refine chooseGroup_of env a now s (P := Held db a.tenant s₀)
    (held_createGroup env a now hroute hisolated hhomogeneous _ _ _) (fun g hfound => ?_)
    (fun candidate _ hcandidate => ?_) (fun g hg => .found hisolated hhomogeneous (hopen g hg).1 (hopen g hg).2)
    ?_
  -- the group that is found has the identity of the event, so it is of its tenant
  · obtain ⟨hmem, hmatches⟩ := IdTable.latest_spec hfound
    have hidentity := (Bool.and_eq_true_iff.mp (Bool.and_eq_true_iff.mp hmatches).1).1
    exact .found hisolated hhomogeneous hmem (tenant_of_identity env a hroute hidentity)
  · obtain ⟨hmem, hmatches⟩ := List.mem_filter.mp (List.argmax_mem hcandidate)
    have hidentity := (Bool.and_eq_true_iff.mp (Bool.and_eq_true_iff.mp hmatches).1).1
    have hheld : Held db a.tenant s₀ s candidate :=
      .found hisolated hhomogeneous hmem (tenant_of_identity env a hroute hidentity)
    exact hheld.saveGroup rfl rfl
  -- reopening an acknowledged group writes that group
  · rintro t g h g' rfl
    exact h.saveGroup rfl rfl

omit hisolated hhomogeneous in
/-- A new alert goes into the group that is held. -/
theorem held_createAlertIn {g : AlertGroup} (h : Held db a.tenant s₀ s g) (status : Status)
    (silenced : Bool) :
    ∃ g', Held db a.tenant s₀ (createAlertIn env a now s g status silenced).1 g' := by
  unfold createAlertIn
  have hmarked : Held db a.tenant s₀ _ { g with
      orchestrationSuppressed := a.suppressed,
      orchestrationSuppressReason := a.suppressReason } := h.saveGroup rfl rfl
  have hinserted := (hmarked.reconcile env now).insertAlert
    (a := newAlert env a now _ _ status silenced) rfl rfl (tenantOf_route hroute)
  exact ⟨_, (hinserted.reconcile env now).recalculate now⟩

theorem isolated_createForNew (status : Status) (reopenEnabled : Bool)
    {openGroup : Option AlertGroup}
    (hopen : ∀ g ∈ openGroup, g ∈ s.groups.rows ∧ tenantOf db g.team = a.tenant) :
    Isolated db a.tenant s₀ (createForNew env a now s status reopenEnabled openGroup).1 ∧
      Homogeneous db (createForNew env a now s status reopenEnabled openGroup).1 := by
  unfold createForNew
  dsimp only
  split
  · exact ⟨hisolated, hhomogeneous⟩
  · obtain ⟨g, hheld⟩ := held_createAlertIn env a now hroute
      (held_chooseGroup env a now hroute hisolated hhomogeneous _ _ reopenEnabled hopen) _ _
    exact ⟨hheld.isolated, hheld.homogeneous⟩

/-- The writing is isolated where the alert that is found is of the tenant. -/
theorem isolated_persistEvent
    (hlookup : ∀ existing ∈ lookupExisting env a s, tenantOf db existing.team = a.tenant) :
    Isolated db a.tenant s₀ (persistEvent env a now s).1 ∧
      Homogeneous db (persistEvent env a now s).1 := by
  have hopen : ∀ g ∈ s.findOpenAlertGroup env.sha256 (a.identity env),
      g ∈ s.groups.rows ∧ tenantOf db g.team = a.tenant :=
    fun g hg => openGroup_own env a hroute hg
  unfold persistEvent
  dsimp only
  split
  · exact ⟨hisolated, hhomogeneous⟩
  · split
    · rename_i existing hexisting
      obtain ⟨g, hheld⟩ := held_handleExisting env a now hroute hisolated hhomogeneous _
        (lookupExisting_spec env a s hexisting).1 (hlookup existing hexisting) hopen
      exact ⟨hheld.isolated, hheld.homogeneous⟩
    · split
      · exact ⟨hisolated, hhomogeneous⟩
      · exact isolated_createForNew env a now hroute hisolated hhomogeneous _ _ hopen

end Event

/-! ## A call -/

section Call

variable {L : Language} (site : Site L) (a : Arrival) (now : Instant) (w : World)

/-- The event is written: it ends no pending row and is neither dropped nor paused. -/
def Written : Prop :=
  clearPending site a now w = none ∧ a.runtime.disposition ≠ .drop ∧
    a.runtime.disposition ≠ .pause

/-- The event is written over an open alert of another tenant. -/
def TakesForeign : Prop :=
  Written site a now w ∧ ∃ existing, lookupExisting site.toServices a w.store = some existing ∧
    tenantOf site.orc.db existing.team ≠ a.tenant

variable {site a now w}

/-- A delivery that writes is the storing of the event. -/
theorem deliver_of_written (h : Written site a now w) :
    deliver site a now w = { w with store := (persistEvent site.toServices a now w.store).1 } := by
  obtain ⟨hclear, hdrop, hpause⟩ := h
  unfold deliver upsertRouted
  rw [hclear, if_neg hdrop, if_neg hpause]

/-- A pending row leaves the alerts. -/
theorem storePausedEvent_store {w' : World} (h : storePausedEvent site a now w = .ok w') :
    w'.store = w.store := by
  unfold storePausedEvent at h
  obtain ⟨request, -, h⟩ := bind_eq_ok.mp h
  split at h
  · cases h
    rfl
  · cases h
    rfl

/-- The pending rows are no part of the store. -/
theorem clearPending_store {w' : World} (h : clearPending site a now w = some w') :
    w'.store = w.store := by
  unfold clearPending at h
  split at h
  · obtain ⟨groupId, -, h⟩ := Option.bind_eq_some_iff.mp h
    obtain ⟨current, -, rfl⟩ := Option.map_eq_some_iff.mp h
    rfl
  · cases h

/-- A delivery that ends before leaves the store alone. -/
theorem deliver_of_not_written (h : ¬Written site a now w) :
    (deliver site a now w).store = w.store := by
  unfold deliver upsertRouted
  cases hclear : clearPending site a now w with
  | some w' => exact clearPending_store hclear
  | none =>
    dsimp only
    by_cases hdrop : a.runtime.disposition = .drop
    · rw [if_pos hdrop]
    · by_cases hpause : a.runtime.disposition = .pause
      · rw [if_neg hdrop, if_pos hpause]
        cases hstore : storePausedEvent site a now w with
        | error e => rfl
        | ok w' => exact storePausedEvent_store hstore
      · exact absurd ⟨hclear, hdrop, hpause⟩ h

/-- The alert that is found is given the team of the event's route. -/
theorem existing_retaken {existing : Alert}
    (h : lookupExisting site.toServices a w.store = some existing) {r : Alert}
    (hr : r ∈ (persistEvent site.toServices a now w.store).1.alerts.rows)
    (hid : r.id = existing.id) : r.team = some a.route.team.id := by
  by_contra hteam
  -- the row of the other tenant, as later writes leave it
  let P : Alert → Prop := fun r => r.id = existing.id ∧ r.team ≠ some a.route.team.id
  have hP : Stable P := by
    rintro a₁ a₂ ⟨⟨_, _, _, rfl⟩, -⟩ hlater
    exact hlater
  have hmem := (lookupExisting_spec _ a _ h).1
  unfold persistEvent at hr
  rw [h] at hr
  dsimp only at hr
  rw [if_neg (by simp)] at hr
  obtain ⟨groupId, t, ht, htouches⟩ := handleExisting_touches site.toServices a now w.store _
    existing (w.store.findOpenAlertGroup site.sha256 (a.identity site.toServices))
  obtain ⟨r₀, hr₀, -, hid₀, hteam₀⟩ := htouches P hP r hr ⟨hid, hteam⟩
  rw [ht] at hr₀
  -- the found alert was saved for the team of the event
  rcases IdTable.mem_save.mp hr₀ with ⟨-, hne⟩ | ⟨rfl, -⟩
  · exact hne hid₀
  · exact hteam₀ rfl

/-- **A call is isolated exactly when it takes no alert of another tenant.** -/
theorem deliver_isolated_iff (hroute : a.route ∈ site.orc.db.routes)
    (h : Homogeneous site.orc.db w.store) :
    Isolated site.orc.db a.tenant w.store (deliver site a now w).store ↔
      ¬TakesForeign site a now w := by
  -- a foreign alert that is found is taken over, and its new row is no row of before
  constructor
  · rintro hisolated ⟨hwritten, existing, hlookup, hforeign⟩
    rw [deliver_of_written hwritten] at hisolated
    have hmem := (lookupExisting_spec _ a _ hlookup).1
    obtain ⟨r, hr, hid⟩ := hisolated.alerts.kept existing hmem
    have hteam := existing_retaken hlookup hr hid
    have hown : tenantOf site.orc.db r.team = a.tenant := by
      rw [hteam]
      exact tenantOf_route hroute
    rcases hisolated.alerts.touched r hr with hbefore | ⟨-, hbefore⟩
    · rw [IdTable.eq_of_id hbefore hmem hid] at hown
      exact hforeign hown
    · exact hforeign (hbefore existing hmem hid.symm)
  · intro hforeign
    by_cases hwritten : Written site a now w
    · rw [deliver_of_written hwritten]
      refine (isolated_persistEvent _ a now hroute (.refl _) h ?_).1
      intro existing hlookup
      by_contra hne
      exact hforeign ⟨hwritten, existing, hlookup, hne⟩
    · rw [deliver_of_not_written hwritten]
      exact .refl _

/-- A delivery keeps every group within a tenant unless it takes an alert of another one. -/
theorem deliver_homogeneous (hroute : a.route ∈ site.orc.db.routes)
    (h : Homogeneous site.orc.db w.store) (hforeign : ¬TakesForeign site a now w) :
    Homogeneous site.orc.db (deliver site a now w).store := by
  by_cases hwritten : Written site a now w
  · rw [deliver_of_written hwritten]
    refine (isolated_persistEvent _ a now hroute (.refl _) h ?_).2
    intro existing hlookup
    by_contra hne
    exact hforeign ⟨hwritten, existing, hlookup, hne⟩
  · rw [deliver_of_not_written hwritten]
    exact h

end Call

/-! ## Runs -/

section Runs

variable {L : Language} (site : Site L)

/-- The calls of the activations of these rows, in their turn. -/
inductive Activates (now : Instant) : World → List ℕ → Arrival → World → Prop where
  | here {w w' : World} {rowId : ℕ} {rowIds : List ℕ} {row : PendingOrchestratedEvent}
      {a : Arrival} :
      claimOne rowId now w = some (w', row) → resumedArrival site row = some a →
      Activates now w (rowId :: rowIds) a w'
  | later {w w' : World} {rowId : ℕ} {rowIds : List ℕ} {a : Arrival} :
      Activates now (activateOne site now w rowId) rowIds a w' →
      Activates now w (rowId :: rowIds) a w'

/-- The calls of `_upsert_alert` in a step, each with the state it starts from. -/
inductive Calls (w : World) : Label → Arrival → Instant → World → Prop where
  | upsert {alertData : Dict} {now : Instant} {a : Arrival} :
      incoming site alertData = some a → Calls w (.upsert alertData now) a now w
  | activation {limit : ℕ} {now : Instant} {a : Arrival} {w' : World} :
      Activates site now (requeueStale site now w)
        (dueIds limit now (requeueStale site now w).pending.rows) a w' →
      Calls w (.processDue limit now) a now w'

/-- Every call of the step touches the rows of the tenant of its route only. -/
def StepIsolated (w : World) (label : Label) : Prop :=
  ∀ a now w', Calls site w label a now w' →
    Isolated site.orc.db a.tenant w'.store (deliver site a now w').store

/-- No call of the step takes an open alert of another tenant. -/
def StepTakesOwn (w : World) (label : Label) : Prop :=
  ∀ a now w', Calls site w label a now w' → ¬TakesForeign site a now w'

variable {site} {now : Instant} {w : World}

/-- Claiming a pending row writes no alert and no group. -/
theorem claimOne_store {rowId : ℕ} {w' : World} {row : PendingOrchestratedEvent}
    (h : claimOne rowId now w = some (w', row)) : w'.store = w.store := by
  obtain ⟨found, -, heq⟩ := Option.map_eq_some_iff.mp h
  cases heq
  rfl

/-- The activation of a row leaves the alerts, or it leaves what its call left. -/
theorem activateOne_store (site : Site L) (now : Instant) (w : World) (rowId : ℕ) :
    (activateOne site now w rowId).store = w.store ∨
      ∃ w' row a, claimOne rowId now w = some (w', row) ∧ resumedArrival site row = some a ∧
        (activateOne site now w rowId).store = (deliver site a now w').store := by
  unfold activateOne
  split
  · exact .inl rfl
  · rename_i w' row hclaim
    have hstore := claimOne_store hclaim
    split
    · rename_i w'' hactivate
      obtain ⟨a, ha, hcommit⟩ := Option.bind_eq_some_iff.mp hactivate
      refine .inr ⟨w', row, a, hclaim, ha, ?_⟩
      unfold deliver
      split at hcommit
      · rename_i t groupId alertId created hrouted
        rw [hrouted]
        split_ifs at hcommit
        cases hcommit
        rfl
      · cases hcommit
    -- the activation fails, and only the claim is left
    · exact .inl hstore

/-- The same of one activation, which delivers what it restored. -/
theorem activateOne_homogeneous {rowId : ℕ} (h : Homogeneous site.orc.db w.store)
    (hown : ∀ w' row a, claimOne rowId now w = some (w', row) →
      resumedArrival site row = some a → ¬TakesForeign site a now w') :
    Homogeneous site.orc.db (activateOne site now w rowId).store := by
  rcases activateOne_store site now w rowId with hsame |
    ⟨w', row, a, hclaim, ha, hdelivered⟩
  · rw [hsame]
    exact h
  · rw [hdelivered]
    refine deliver_homogeneous (resumedArrival_route_mem site ha) ?_ (hown w' row a hclaim ha)
    rw [claimOne_store hclaim]
    exact h

/-- By induction on the rows that are due. -/
theorem activations_iff (site : Site L) (now : Instant) {w : World} (rowIds : List ℕ)
    (h : Homogeneous site.orc.db w.store) :
    (∀ a w', Activates site now w rowIds a w' →
        Isolated site.orc.db a.tenant w'.store (deliver site a now w').store) ↔
      ∀ a w', Activates site now w rowIds a w' → ¬TakesForeign site a now w' := by
  -- by induction on the rows; after each claim the store is the one the next claim finds
  induction rowIds generalizing w with
  | nil =>
    constructor
    · intro _ a w' hcall
      cases hcall
    · intro _ a w' hcall
      cases hcall
  | cons rowId rowIds ih =>
    have hcall : ∀ {w' row a}, claimOne rowId now w = some (w', row) →
        resumedArrival site row = some a →
        (Isolated site.orc.db a.tenant w'.store (deliver site a now w').store ↔
          ¬TakesForeign site a now w') := by
      intro w' row a hclaim ha
      refine deliver_isolated_iff (resumedArrival_route_mem site ha) ?_
      rw [claimOne_store hclaim]
      exact h
    constructor
    -- a call that is isolated takes no foreign alert, so the routes and groups stay homogeneous
    -- behind it
    · intro hisolated
      have hown : ∀ w' row a, claimOne rowId now w = some (w', row) →
          resumedArrival site row = some a → ¬TakesForeign site a now w' :=
        fun w' row a hclaim ha => (hcall hclaim ha).mp (hisolated a w' (.here hclaim ha))
      have hrest := (ih (activateOne_homogeneous h hown)).mp
        fun a w' hlater => hisolated a w' (.later hlater)
      intro a w' hcalls
      cases hcalls with
      | here hclaim ha => exact hown w' _ a hclaim ha
      | later hlater => exact hrest a w' hlater
    · intro htakes
      have hown : ∀ w' row a, claimOne rowId now w = some (w', row) →
          resumedArrival site row = some a → ¬TakesForeign site a now w' :=
        fun w' row a hclaim ha => htakes a w' (.here hclaim ha)
      have hrest := (ih (activateOne_homogeneous h hown)).mpr
        fun a w' hlater => htakes a w' (.later hlater)
      intro a w' hcalls
      cases hcalls with
      | here hclaim ha => exact (hcall hclaim ha).mpr (hown w' _ a hclaim ha)
      | later hlater => exact hrest a w' hlater

/-- **One step.** It stays within the tenants that it delivers to, if and only if each delivery
takes an alert of its own tenant. -/
theorem step_isolated_iff (label : Label) (h : Homogeneous site.orc.db w.store) :
    StepIsolated site w label ↔ StepTakesOwn site w label := by
  unfold StepIsolated StepTakesOwn
  -- an upsert delivers once, a due batch once for each row, a follow-up never
  cases label with
  | upsert alertData now =>
    constructor
    · intro hisolated a now' w' hcall
      have hcalled := hisolated a now' w' hcall
      cases hcall with
      | upsert ha => exact (deliver_isolated_iff (incoming_route_mem site ha) h).mp hcalled
    · intro hown a now' w' hcall
      have hcalled := hown a now' w' hcall
      cases hcall with
      | upsert ha => exact (deliver_isolated_iff (incoming_route_mem site ha) h).mpr hcalled
  | processDue limit now =>
    have hrows := activations_iff site now
      (dueIds limit now (requeueStale site now w).pending.rows) (w := requeueStale site now w) h
    constructor
    · intro hisolated a now' w' hcall
      cases hcall with
      | activation hactivates =>
        exact hrows.mp (fun a w' hlater => hisolated a now w' (.activation hlater)) a w' hactivates
    · intro hown a now' w' hcall
      cases hcall with
      | activation hactivates =>
        exact hrows.mpr (fun a w' hlater => hown a now w' (.activation hlater)) a w' hactivates
  | followUp route action dedupKey now =>
    constructor
    · intro _ a now' w' hcall
      cases hcall
    · intro _ a now' w' hcall
      cases hcall

/-- A follow-up stays in the group it finds. -/
theorem followUp_homogeneous (route : Route) (action : FollowUp) (dedupKey : String)
    (h : Homogeneous site.orc.db w.store) :
    Homogeneous site.orc.db (processFollowUp route action dedupKey now w).store := by
  unfold processFollowUp
  split_ifs
  · exact h
  · split
    · exact h
    -- the group that a follow-up looks up is written under its own team
    · rename_i g hg
      obtain ⟨alert, -, hgroup⟩ := Option.bind_eq_some_iff.mp hg
      obtain ⟨n, -, hget⟩ := Option.bind_eq_some_iff.mp hgroup
      have hheld : Held site.orc.db (tenantOf site.orc.db g.team) w.store w.store g :=
        .found (.refl _) h (IdTable.get_eq_some.mp hget).1 rfl
      cases action with
      | acknowledge =>
        dsimp only
        unfold acknowledgeAlert Store.acknowledgeAlertGroup
        split_ifs
        · exact h
        · refine Held.homogeneous (hheld.saveGroup ?_ ?_) <;> rfl
      | resolve =>
        dsimp only
        unfold resolveAlert Store.resolveAlertGroup
        split_ifs
        · exact h
        · refine Held.homogeneous (Held.saveGroup (g := g) (hheld.updateAlerts _ ?_ ?_) ?_ ?_)
          · intro r hr
            exact (Bool.and_eq_true_iff.mp hr).1
          · exact fun r => ⟨rfl, rfl⟩
          · rfl
          · rfl

/-- By induction on the rows of a batch. -/
theorem activations_homogeneous (rowIds : List ℕ) (h : Homogeneous site.orc.db w.store)
    (hown : ∀ a w', Activates site now w rowIds a w' → ¬TakesForeign site a now w') :
    Homogeneous site.orc.db (rowIds.foldl (activateOne site now) w).store := by
  induction rowIds generalizing w with
  | nil => exact h
  | cons rowId rowIds ih =>
    rw [List.foldl_cons]
    refine ih (activateOne_homogeneous h ?_) fun a w' hlater => hown a w' (.later hlater)
    exact fun w' row a hclaim ha => hown a w' (.here hclaim ha)

/-- A step that takes its own keeps every group within a tenant. -/
theorem step_homogeneous (label : Label) (h : Homogeneous site.orc.db w.store)
    (hown : StepTakesOwn site w label) : Homogeneous site.orc.db (step site w label).store := by
  cases label with
  | upsert alertData now =>
    show Homogeneous site.orc.db (upsertAlert site alertData now w).store
    unfold upsertAlert
    split
    · rename_i a ha
      exact deliver_homogeneous (incoming_route_mem site ha) h (hown a now w (.upsert ha))
    · exact h
  | processDue limit now =>
    exact activations_homogeneous _ h fun a w' hactivates =>
      hown a now w' (.activation hactivates)
  | followUp route action dedupKey now => exact followUp_homogeneous route action dedupKey h

/-- **In a run every call of `upsert_alert` is isolated exactly when no call takes an
open alert of another tenant.** -/
theorem intake_isolated_iff (h : Homogeneous site.orc.db w.store) (labels : List Label) :
    Along (step site) (StepIsolated site) w labels ↔
      Along (step site) (StepTakesOwn site) w labels :=
  along_iff (I := fun w => Homogeneous site.orc.db w.store)
    (fun _ label h => step_isolated_iff label h)
    (fun _ label h hown => step_homogeneous label h hown) h labels

end Runs

/-! ## Two tenants with one key -/

def netTeam : TeamRow :=
  { id := 2, group := some 2, active := true, deleted := false, slug := "net", name := "Net" }

def netRoute : Route :=
  { id := 2, team := netTeam, service := none, name := "net", source := "webhook", enabled := true,
    deleted := false }

/-- Two groups with a team and a route each. -/
def twoTenants : Entities where
  groups := [{ id := 1, active := true, deleted := false },
    { id := 2, active := true, deleted := false }]
  teams := [opsTeam, netTeam]
  services := []
  routes := [opsRoute, netRoute]
  escalationPolicies := []
  priorityPolicies := []
  notificationPolicies := []
  teams_key := by decide
  services_key := List.nodup_nil
  routes_key := by decide
  escalation_key := List.nodup_nil
  priority_key := List.nodup_nil
  notification_key := List.nodup_nil
  route_team := by simp [opsRoute, netRoute]
  route_service := by simp [opsRoute, netRoute]
  service_team := by simp

/-- Without services, silences and maintenance; the group key is the key of the event. -/
def plainServices : Services where
  sha256 := id
  accepts := fun _ _ => true
  resolveAlertService := fun _ _ => none
  buildGroupKey := fun _ alertData _ => (textIn alertData "dedup_key").getD ""
  maintenanceWindow := fun _ _ _ => none
  shouldApplyWindow := fun _ _ _ _ => false
  activeBehaviors := fun _ _ _ => []
  originalStatus := fun _ g => g.status
  isSilenced := fun _ _ _ => false
  preserveAcknowledgement := fun _ _ _ _ _ => false

def twoTenantSite : Site plainLanguage :=
  { plainServices with
    orc := { opsEnv with db := twoTenants, orchestrations := [] }
    chars := asciiClasses
    settings := {}
    activationError := fun _ => "RuntimeError"
    service_mem := by simp [plainServices] }

/-- A firing webhook event under the key `disk`. -/
def diskOn (route : Id) : Dict :=
  [("source", .str "webhook"), ("title", .str "Disk full"), ("status", .str "firing"),
    ("forced_route_id", .int route), ("dedup_key", .str "disk")]

/-- The alert of the first tenant is there when the event of the second comes. -/
def opsAlertOpen : World := step twoTenantSite World.init (.upsert (diskOn 1) 0)

/-- The event of the second tenant takes the alert of the first. -/
theorem foreign_alert_rewritten :
    ¬StepIsolated twoTenantSite opsAlertOpen (.upsert (diskOn 2) 60) := by
  have hbefore : opsAlertOpen.store.alerts.rows ≠ [] ∧
      ∀ r ∈ opsAlertOpen.store.alerts.rows, tenantOf twoTenants r.team = some 1 := by decide +kernel
  obtain ⟨hrouted, hafter⟩ : (incoming twoTenantSite (diskOn 2)).isSome = true ∧
      ∀ a ∈ incoming twoTenantSite (diskOn 2), a.tenant = some 2 ∧
        ∀ r ∈ (deliver twoTenantSite a 60 opsAlertOpen).store.alerts.rows,
          tenantOf twoTenants r.team = some 2 := by decide +kernel
  intro hisolated
  obtain ⟨a, ha⟩ := Option.isSome_iff_exists.mp hrouted
  have hcall := (hisolated a 60 opsAlertOpen (.upsert ha)).alerts
  obtain ⟨r₀, hr₀⟩ := List.exists_mem_of_ne_nil _ hbefore.1
  obtain ⟨r, hr, hid⟩ := hcall.kept r₀ hr₀
  have htaken := (hafter a ha).2 r hr
  rcases hcall.touched r hr with hkept | ⟨-, hown⟩
  · rw [hbefore.2 r hkept] at htaken
    cases htaken
  · have howner := hown r₀ hr₀ hid.symm
    rw [show tenantOf twoTenantSite.orc.db r₀.team = some 1 from hbefore.2 r₀ hr₀,
      (hafter a ha).1] at howner
    cases howner

/-- The same source, under a key that only the second tenant uses. -/
def linkDown : Dict :=
  [("source", .str "webhook"), ("title", .str "Link down"), ("status", .str "firing"),
    ("forced_route_id", .int 2), ("dedup_key", .str "link")]

/-- An event whose open alert, if there is one, is its own takes no other. -/
theorem takesOwn_upsert {site : Site plainLanguage} {w : World} {alertData : Dict} {now : Instant}
    (h : ∀ a ∈ incoming site alertData, ∀ existing ∈ lookupExisting site.toServices a w.store,
      tenantOf site.orc.db existing.team = a.tenant) :
    StepTakesOwn site w (.upsert alertData now) := by
  rintro a now w' hcall
  cases hcall with
  | upsert ha =>
    rintro ⟨-, existing, hfound, hforeign⟩
    exact hforeign (h a ha existing hfound)

/-- Two tenants with keys of their own: every call is isolated, also the one that takes up the
alert of its tenant again. -/
theorem intake_isolated_sample :
    Along (step twoTenantSite) (StepIsolated twoTenantSite) World.init
      [.upsert (diskOn 1) 0, .upsert linkDown 30, .upsert (diskOn 1) 60] := by
  refine (intake_isolated_iff (by intro a ha; cases ha) _).mpr ⟨?_, ?_, ?_, trivial⟩
  · exact takesOwn_upsert (by decide +kernel)
  · exact takesOwn_upsert (by decide +kernel)
  · exact takesOwn_upsert (by decide +kernel)

end IncidentRelay.Alerts
