import IncidentRelay.Alerts.Actions
import IncidentRelay.Alerts.Merge

/-!
# The cleanup of alert history

`cleanup_alert_history` as its database statements: the batch of finished groups is
selected in one, their alerts are deleted in a second and the groups in a third, and so on
until nothing is selected; then the same for the alerts without a group. Events, resolves
and merges come between any two of them.

 * `frame_persistEvent`: an event writes one group and its alerts.
 * `Tracked.step`: a batch stays finished while nothing is stored in its groups or merged
   with them.
 * `remaining_next`: every statement of the cleanup makes what remains smaller.
 * `cleanup_lawful`: what is deleted is finished, in every run in which each batch is left
   alone until it is deleted; and the cleanup ends.
-/

namespace IncidentRelay.Alerts

/-! ## Statements -/

namespace Store

variable (s : Store)

/-- The condition on the groups of a batch. -/
def isFinished (cutoff : Instant) (g : AlertGroup) : Bool :=
  g.status = .resolved ∧ g.resolvedAt.any (· < cutoff) = true ∧
    (s.children g.id).all (·.status = .resolved) = true

/-- `_resolved_group_batch(cutoff, batch_size)`. -/
def resolvedGroupBatch (cutoff : Instant) (batchSize : ℕ) : List ℕ :=
  (((s.groups.rows.filter (s.isFinished cutoff)).insertionSort fun g h =>
    toLex (g.resolvedAt.getD 0, g.id) ≤ toLex (h.resolvedAt.getD 0, h.id)).take batchSize).map (·.id)

/-- The condition on the alerts of a batch. -/
def isStandalone (cutoff : Instant) (a : Alert) : Bool :=
  a.group = none ∧ a.status = .resolved ∧ a.resolvedAt.any (· < cutoff) = true

/-- `_standalone_alert_batch(cutoff, batch_size)`. -/
def standaloneAlertBatch (cutoff : Instant) (batchSize : ℕ) : List ℕ :=
  (((s.alerts.rows.filter (isStandalone cutoff)).insertionSort fun a b =>
    toLex (a.resolvedAt.getD 0, a.id) ≤ toLex (b.resolvedAt.getD 0, b.id)).take batchSize).map (·.id)

/-- `Alert.delete().where(…)` -/
def deleteAlerts (guard : Alert → Bool) : Store := { s with alerts := s.alerts.delete guard }

/-- `AlertGroup.delete().where(AlertGroup.id.in_(group_ids))`: what refers to the groups is
set to null. -/
def deleteGroups (ids : List ℕ) : Store where
  alerts := s.alerts.update (fun a => a.group.any (· ∈ ids)) (fun a => { a with group := none })
    (fun _ => rfl)
  groups := (s.groups.delete (·.id ∈ ids)).update (fun g => g.mergedInto.any (· ∈ ids))
    (fun g => { g with mergedInto := none }) (fun _ => rfl)

end Store

/-! ## The cleanup -/

inductive CleanupPhase where
  | selectGroups
  | deleteChildren (ids : List ℕ)
  | deleteGroups (ids : List ℕ)
  | selectAlerts
  | deleteAlerts (ids : List ℕ)
  | finished
  deriving DecidableEq

/-- The arguments of `cleanup_alert_history`, normalized. -/
structure Retention where
  cutoff : Instant
  batchSize : ℕ

/-- The counters that `cleanup_alert_history` returns. -/
structure CleanupResult where
  groupsDeleted : ℕ := 0
  alertsDeleted : ℕ := 0
  standaloneAlertsDeleted : ℕ := 0
  batches : ℕ := 0
  deriving DecidableEq

structure CleanupState where
  store : Store
  phase : CleanupPhase
  result : CleanupResult

/-- What comes before the first statement; the cleanup is over where the retention is
zero. -/
def startCleanup (retentionDays batchSize : Int) (now : Instant) :
    Except String (Retention × CleanupPhase) :=
  if retentionDays < 0 then .error "retention_days must be greater than or equal to 0"
  else if batchSize ≤ 0 then .error "batch_size must be greater than 0"
  else .ok (⟨now - seconds (86400 * retentionDays), batchSize.toNat⟩,
    if retentionDays = 0 then .finished else .selectGroups)

namespace CleanupState

variable (r : Retention) (s : CleanupState)

/-- The next statement of the cleanup. -/
def next : CleanupState :=
  match s.phase with
  | .selectGroups =>
    let ids := s.store.resolvedGroupBatch r.cutoff r.batchSize
    { s with phase := if ids = [] then .selectAlerts else .deleteChildren ids }
  | .deleteChildren ids =>
    let deleted := s.store.alerts.rows.countP fun a => a.group.any (· ∈ ids)
    { store := s.store.deleteAlerts fun a => a.group.any (· ∈ ids)
      phase := .deleteGroups ids
      result := { s.result with alertsDeleted := s.result.alertsDeleted + deleted } }
  | .deleteGroups ids =>
    let deleted := s.store.groups.rows.countP (·.id ∈ ids)
    { store := s.store.deleteGroups ids
      phase := if deleted = 0 then .selectAlerts else .selectGroups
      result := { s.result with
        groupsDeleted := s.result.groupsDeleted + deleted
        batches := s.result.batches + 1 } }
  | .selectAlerts =>
    let ids := s.store.standaloneAlertBatch r.cutoff r.batchSize
    { s with phase := if ids = [] then .finished else .deleteAlerts ids }
  | .deleteAlerts ids =>
    let deleted := s.store.alerts.rows.countP (·.id ∈ ids)
    { store := s.store.deleteAlerts (·.id ∈ ids)
      phase := if deleted = 0 then .finished else .selectAlerts
      result := { s.result with
        standaloneAlertsDeleted := s.result.standaloneAlertsDeleted + deleted
        alertsDeleted := s.result.alertsDeleted + deleted
        batches := s.result.batches + 1 } }
  | .finished => s

end CleanupState

/-! ## Runs -/

/-- A statement of the cleanup, or a transaction of somebody else. -/
inductive CleanupLabel where
  | cleanup
  | request (r : Request)
  | acknowledge (groupId : ℕ) (userId : Option ℕ) (now : Instant)
  | resolve (groupId : ℕ) (userId : Option ℕ) (now : Instant)

def cleanupStep (r : Retention) (s : CleanupState) : CleanupLabel → CleanupState
  | .cleanup => s.next r
  | .request request => { s with store := s.store.handle request }
  | .acknowledge groupId userId now =>
    { s with store := acknowledgeGroup s.store groupId userId now }
  | .resolve groupId userId now => { s with store := resolveGroup s.store groupId userId now }

/-- What the next statement deletes is finished. -/
def Lawful (r : Retention) (s : CleanupState) : CleanupLabel → Prop
  | .cleanup =>
    match s.phase with
    | .deleteChildren ids =>
      ∀ a ∈ s.store.alerts.rows, a.group.any (· ∈ ids) = true → a.status = .resolved
    | .deleteGroups ids =>
      ∀ g ∈ s.store.groups.rows, g.id ∈ ids → s.store.isFinished r.cutoff g = true
    | .deleteAlerts ids => ∀ a ∈ s.store.alerts.rows, a.id ∈ ids → a.status = .resolved
    | _ => True
  | _ => True

/-- The groups that are selected and not deleted yet. -/
def CleanupPhase.batch : CleanupPhase → List ℕ
  | .deleteChildren ids | .deleteGroups ids => ids
  | .selectGroups | .selectAlerts | .deleteAlerts _ | .finished => []

/-- The request stores nothing in the groups, merges none of them into another one, and
merges nothing unresolved into one of them. -/
def Request.Spares (s : Store) (ids : List ℕ) : Request → Prop
  | .event env a now => ∀ group alert created,
      (persistEvent env a now s).2 = .completed group alert created → group ∉ ids
  | .merge _ target sourceIds _ => (∀ n ∈ sourceIds, n ≠ target → n ∉ ids) ∧
      (target ∈ ids → ∀ n ∈ sourceIds, ∀ a ∈ s.children n, a.status = .resolved)

/-- A batch is left alone. -/
def Spares (s : CleanupState) : CleanupLabel → Prop
  | .request request => request.Spares s.store s.phase.batch
  | .cleanup | .acknowledge _ _ _ | .resolve _ _ _ => True

/-! ## What an event writes -/

/-- Only the group, and alerts that are or become its children, are written; a resolved
alert of another group is not. -/
structure Frame (n : ℕ) (s t : Store) : Prop where
  groups : ∀ r : AlertGroup, r.id ≠ n → (r ∈ t.groups.rows ↔ r ∈ s.groups.rows)
  kept : ∀ a ∈ s.alerts.rows, a.status = .resolved → a.group ≠ some n → a ∈ t.alerts.rows
  before : ∀ b ∈ t.alerts.rows, b.group ≠ some n → b ∈ s.alerts.rows

namespace Frame

variable {n : ℕ} {s t u : Store}

theorem refl (n : ℕ) (s : Store) : Frame n s s :=
  ⟨fun _ _ => Iff.rfl, fun _ ha _ _ => ha, fun _ hb _ => hb⟩

theorem trans (h : Frame n s t) (h' : Frame n t u) : Frame n s u where
  groups r hr := (h'.groups r hr).trans (h.groups r hr)
  kept a ha hresolved hn := h'.kept a (h.kept a ha hresolved hn) hresolved hn
  before b hb hn := h.before b (h'.before b hb hn) hn

theorem cast {m : ℕ} (h : Frame n s t) (hn : n = m) : Frame m s t := hn ▸ h

theorem saveGroup (s : Store) (g : AlertGroup) : Frame g.id s (s.saveGroup g) where
  groups _ hr := (RowOnly.save s g).mem_iff hr
  kept _ ha _ _ := ha
  before _ hb _ := hb

theorem saved (s : Store) {g : AlertGroup} (hid : g.id = n) : Frame n s (s.saveGroup g) :=
  (saveGroup s g).cast hid

/-- Work on a group concerns that group. -/
theorem of_works {P : Prop} {g g' : AlertGroup} (h : Works P s g t g') : Frame g.id s t where
  groups _ hr := h.groups.mem_iff hr
  kept a ha _ hn := by
    obtain ⟨b, hb, rfl | ⟨hchild, -⟩⟩ := Rows.exists_right h.alerts ha
    · exact hb
    · exact absurd hchild hn
  before b hb hn := by
    obtain ⟨a, ha, rfl | ⟨hchild, hab⟩⟩ := Rows.exists_left h.alerts hb
    · exact ha
    · exact absurd (hab.group.trans hchild) hn

/-- A new group concerns itself. -/
theorem insertGroup (s : Store) (g : AlertGroup) (hid : g.id = s.groups.next) :
    Frame g.id s { s with groups := s.groups.insert g hid } where
  groups r hr := by
    rw [IdTable.mem_insert]
    exact or_iff_left fun heq => hr (congrArg _ heq)
  kept _ ha _ _ := ha
  before _ hb _ := hb

/-- A new alert concerns the group that it is put into. -/
theorem insertAlert (s : Store) (a : Alert) (hid : a.id = s.alerts.next) (hgroup : a.group = some n) :
    Frame n s { s with alerts := s.alerts.insert a hid } where
  groups _ _ := Iff.rfl
  kept _ hb _ _ := List.mem_append_left _ hb
  before b hb hn := by
    rcases List.mem_append.mp hb with hb | hb
    · exact hb
    · rw [List.mem_singleton.mp hb] at hn
      exact absurd hgroup hn

/-- An alert that is not resolved is put into the group. -/
theorem saveAlert {s : Store} {a a' : Alert} (ha : a ∈ s.alerts.rows) (hopen : a.status ≠ .resolved)
    (hid : a'.id = a.id) (hgroup : a'.group = some n) : Frame n s (s.saveAlert a') where
  groups _ _ := Iff.rfl
  kept b hb hresolved _ := by
    refine IdTable.mem_save.mpr (.inl ⟨hb, fun heq => hopen ?_⟩)
    rw [← IdTable.eq_of_id hb ha (heq.trans hid)]
    exact hresolved
  before b hb hn := by
    rcases IdTable.mem_save.mp hb with ⟨hb, -⟩ | ⟨rfl, -⟩
    · exact hb
    · exact absurd hgroup hn

end Frame

section Event

variable (env : Services) (a : Arrival) (now : Instant) (s : Store)

theorem frame_reconcile (g : AlertGroup) :
    Frame g.id s (reconcileMaintenance env s g now).1 ∧
      (reconcileMaintenance env s g now).2.id = g.id :=
  ⟨.of_works (works_reconcile env s g now), (works_reconcile env s g now).id⟩

/-- The work on a group that ends an event. -/
theorem frame_work (g : AlertGroup) :
    Frame g.id s ((reconcileMaintenance env s g now).1.recalculateAlertGroup
        (reconcileMaintenance env s g now).2 now).1 ∧
      ((reconcileMaintenance env s g now).1.recalculateAlertGroup
        (reconcileMaintenance env s g now).2 now).2.id = g.id := by
  have hwork := (works_reconcile env s g now).trans (works_recalculate (P := env.RestoresOpen) _ _ now)
  exact ⟨.of_works hwork, hwork.id⟩

theorem frame_createGroup (status : Status) (firstSeenAt : Instant) (silenced : Bool) :
    Frame (createGroup env a now s status firstSeenAt silenced).2.id s
      (createGroup env a now s status firstSeenAt silenced).1 :=
  .insertGroup s _ rfl

/-- An alert that is there concerns the group that the answer names. -/
theorem frame_handleExistingAlert {existing : Alert} (hexisting : existing ∈ s.alerts.rows)
    (hopen : existing.status ≠ .resolved) (status : Status) (openGroup : Option AlertGroup) :
    ∃ n, (handleExistingAlert env a now s status existing openGroup).2 =
        .completed n existing.id false ∧
      Frame n s (handleExistingAlert env a now s status existing openGroup).1 := by
  -- the group is there, or it is created, and no alert is written yet
  have hgroup : Frame (groupForExisting env a now s status existing openGroup).2.id s
      (groupForExisting env a now s status existing openGroup).1 ∧
      (groupForExisting env a now s status existing openGroup).1.alerts = s.alerts := by
    unfold groupForExisting
    split
    · exact ⟨.refl _ s, rfl⟩
    · exact ⟨frame_createGroup env a now s _ _ _, rfl⟩
  unfold handleExistingAlert
  generalize groupForExisting env a now s status existing openGroup = chosen at hgroup ⊢
  obtain ⟨t, g⟩ := chosen
  dsimp only at hgroup ⊢
  set marked := { g with
    orchestrationSuppressed := a.suppressed, orchestrationSuppressReason := a.suppressReason }
    with hmarked
  have hwritten : Frame g.id t
      ((t.saveGroup marked).saveAlert (refreshedAlert env a now existing status marked.id)) := by
    refine (Frame.saveGroup t marked).trans (Frame.saveAlert ?_ hopen rfl rfl)
    show existing ∈ t.alerts.rows
    rw [hgroup.2]
    exact hexisting
  have hwork := frame_work env now
    ((t.saveGroup marked).saveAlert (refreshedAlert env a now existing status marked.id)) marked
  exact ⟨_, rfl, hwork.2.symm ▸ (hgroup.1.trans hwritten).trans hwork.1⟩

/-- Choosing a group concerns the group that is chosen. -/
theorem frame_chooseGroup (status : Status) (silenced reopenEnabled : Bool)
    (openGroup : Option AlertGroup) :
    Frame (chooseGroup env a now s status silenced reopenEnabled openGroup).2.id s
      (chooseGroup env a now s status silenced reopenEnabled openGroup).1 := by
  refine chooseGroup_of env a now s (P := fun t g => Frame g.id s t) (frame_createGroup env a now s _ _ _)
    (fun g _ => .refl g.id s) (fun candidate _ _ => .saveGroup s (Store.restartResolvedGroup candidate now))
    (fun g _ => .refl g.id s) ?_
  intro t g hchosen g' hg'
  have hbefore : Frame g'.id s t := congrArg AlertGroup.id hg' ▸ hchosen
  exact hbefore.trans (.saveGroup t g')

/-- A new alert concerns the group that it goes into. -/
theorem frame_createAlertIn (g : AlertGroup) (status : Status) (silenced : Bool) :
    ∃ alert, (createAlertIn env a now s g status silenced).2 = .completed g.id alert true ∧
      Frame g.id s (createAlertIn env a now s g status silenced).1 := by
  unfold createAlertIn
  dsimp only
  set marked := { g with
    orchestrationSuppressed := a.suppressed, orchestrationSuppressReason := a.suppressReason }
    with hmarked
  have hfirst := frame_reconcile env now (s.saveGroup marked) marked
  generalize reconcileMaintenance env (s.saveGroup marked) marked now = first at hfirst ⊢
  obtain ⟨t, g'⟩ := first
  dsimp only at hfirst ⊢
  have hid : g'.id = g.id := hfirst.2
  -- the alert that is made is in the group that was marked
  have hinsert : Frame g'.id t { t with
      alerts := t.alerts.insert (newAlert env a now t.alerts.next g'.id status silenced) rfl } :=
    .insertAlert t _ rfl rfl
  have hwork := frame_work env now { t with
    alerts := t.alerts.insert (newAlert env a now t.alerts.next g'.id status silenced) rfl } g'
  have hsaved : Frame g.id s (s.saveGroup marked) := .saveGroup s marked
  have hall := (hsaved.trans hfirst.1).trans ((hinsert.trans hwork.1).cast hid)
  refine ⟨t.alerts.next, ?_, hall⟩
  rw [hwork.2, hid]
  rfl

/-- **What an event writes**: nothing, or the group that it is stored in. -/
theorem frame_persistEvent :
    (persistEvent env a now s).1 = s ∨ ∃ n alert created,
      (persistEvent env a now s).2 = .completed n alert created ∧
        Frame n s (persistEvent env a now s).1 := by
  unfold persistEvent
  dsimp only
  split
  · exact .inl rfl
  · split
    -- an alert that is there is refreshed in its own group
    · rename_i existing hexisting
      obtain ⟨hmem, -, -, hopen⟩ := lookupExisting_spec env a s hexisting
      obtain ⟨n, houtcome, hframe⟩ := frame_handleExistingAlert env a now s hmem hopen
        (statusUnder a (maintenanceDecision env a now ((lookupExisting env a s).bind s.groupOf <|>
          s.findOpenAlertGroup env.sha256 (a.identity env))))
        (s.findOpenAlertGroup env.sha256 (a.identity env))
      exact .inr ⟨n, _, _, houtcome, hframe⟩
    -- a resolve without an alert changes nothing
    · split
      · exact .inl rfl
      · unfold createForNew
        dsimp only
        split
        · exact .inl rfl
        · obtain ⟨alert, houtcome, hframe⟩ := frame_createAlertIn env a now _ _ _ _
          exact .inr ⟨_, alert, true, houtcome, (frame_chooseGroup env a now s _ _ _ _).trans hframe⟩

end Event

/-- Resolving a group writes it and its open children. -/
theorem frame_resolveAlertGroup (s : Store) (g : AlertGroup) (userId : Option ℕ) (now : Instant) :
    Frame g.id s (s.resolveAlertGroup g userId now) := by
  have hchildren : Frame g.id s (s.updateAlerts
      (fun a => Store.childOf g.id a && a.status ≠ .resolved)
      (fun a => { a with status := .resolved, resolvedAt := some now }) (fun _ => rfl)) := by
    refine ⟨fun _ _ => Iff.rfl, fun a ha hresolved _ => ?_, fun b hb hn => ?_⟩
    · exact mem_updateAlerts.mpr ⟨a, ha, .inr ⟨by simp [hresolved], rfl⟩⟩
    · obtain ⟨a, ha, ⟨hguard, rfl⟩ | ⟨-, rfl⟩⟩ := mem_updateAlerts.mp hb
      · exact absurd (childOf_iff.mp (Bool.and_eq_true_iff.mp hguard).1) hn
      · exact ha
  exact hchildren.trans (.saved _ rfl)

/-! ## Batches -/

/-- The groups of a batch, and their alerts, are finished. -/
def GroupsFinished (cutoff : Instant) (s : Store) (ids : List ℕ) : Prop :=
  ∀ n ∈ ids, (∀ g ∈ s.groups.rows, g.id = n →
      g.status = .resolved ∧ g.resolvedAt.any (· < cutoff) = true) ∧
    ∀ a ∈ s.alerts.rows, a.group = some n → a.status = .resolved

/-- The alerts of a batch are finished and have no group. -/
def AlertsFinished (s : Store) (ids : List ℕ) : Prop :=
  ∀ n ∈ ids, ∃ a ∈ s.alerts.rows, a.id = n ∧ a.group = none ∧ a.status = .resolved

section Batches

variable {cutoff : Instant} {s t : Store} {ids : List ℕ} {n : ℕ}

/-- Finished groups stay finished through what concerns another group. -/
theorem GroupsFinished.frame (h : GroupsFinished cutoff s ids) (hframe : Frame n s t)
    (hn : n ∉ ids) : GroupsFinished cutoff t ids := by
  intro m hm
  have hne : m ≠ n := fun heq => hn (heq ▸ hm)
  refine ⟨fun g hg hid => ?_, fun a ha hgroup => ?_⟩
  · exact (h m hm).1 g ((hframe.groups g (hid ▸ hne)).mp hg) hid
  · refine (h m hm).2 a (hframe.before a ha fun hn' => hne ?_) hgroup
    exact Option.some.inj (hgroup.symm.trans hn')

/-- Alerts without a group stay finished: no frame concerns them. -/
theorem AlertsFinished.frame (h : AlertsFinished s ids) (hframe : Frame n s t) :
    AlertsFinished t ids := by
  intro m hm
  obtain ⟨a, ha, hid, hgroup, hresolved⟩ := h m hm
  exact ⟨a, hframe.kept a ha hresolved (by simp [hgroup]), hid, hgroup, hresolved⟩

/-- A group that is not resolved is in no batch. -/
theorem GroupsFinished.not_mem (h : GroupsFinished cutoff s ids) {g : AlertGroup}
    (hg : g ∈ s.groups.rows) (hopen : g.status ≠ .resolved) : g.id ∉ ids :=
  fun hmem => hopen ((h g.id hmem).1 g hg rfl).1

/-- A recalculation leaves the statuses of the alerts. -/
theorem recalculate_alerts {g : AlertGroup} {now : Instant} {a : Alert}
    (ha : a ∈ (s.recalculateAlertGroup g now).1.alerts.rows) :
    ∃ a₀ ∈ s.alerts.rows, a.group = a₀.group ∧ a.status = a₀.status := by
  unfold Store.recalculateAlertGroup at ha
  dsimp only at ha
  split_ifs at ha
  · -- the open children are stamped
    obtain ⟨a₀, ha₀, ⟨-, rfl⟩ | ⟨-, rfl⟩⟩ := (@mem_updateAlerts s
      (fun a => Store.childOf g.id a && a.resolvedAt.isNone)
      (fun a => { a with resolvedAt := some now }) (fun _ => rfl) a).mp ha
    · exact ⟨a₀, ha₀, rfl, rfl⟩
    · exact ⟨a, ha₀, rfl, rfl⟩
  · exact ⟨a, ha, rfl, rfl⟩

/-- A finished group with resolved children stays so when it is recalculated. -/
theorem recalculated_finished (alerts : List Alert) (now : Instant) {g : AlertGroup}
    (hstatus : g.status = .resolved) (hold : g.resolvedAt.any (· < cutoff) = true)
    (hchildren : ∀ a ∈ alerts, a.status = .resolved) :
    (Store.recalculated alerts now g).status = .resolved ∧
      (Store.recalculated alerts now g).resolvedAt.any (· < cutoff) = true := by
  -- a group that is resolved stays so, with the time that it had
  have hkeeps : ∀ g' : AlertGroup, g'.status = g.status → g'.resolvedAt = g.resolvedAt →
      (Store.effectiveStatus alerts now g').status = .resolved ∧
        (Store.effectiveStatus alerts now g').resolvedAt.any (· < cutoff) = true := by
    intro g' hstatus' hold'
    unfold Store.effectiveStatus
    by_cases hempty : alerts.isEmpty = true
    · rw [if_pos hempty, hstatus', hold']
      exact ⟨hstatus, hold⟩
    · have hall : Store.allResolved alerts = true := (allResolved_iff _).mpr
        ⟨fun hnil => hempty (by simp [hnil]), hchildren⟩
      rw [if_neg hempty, if_pos hall]
      obtain ⟨at_, hat⟩ : ∃ at_, g.resolvedAt = some at_ := by
        cases hresolved : g.resolvedAt with
        | none => simp [hresolved] at hold
        | some at_ => exact ⟨at_, rfl⟩
      refine ⟨rfl, ?_⟩
      rw [hold', hat]
      rwa [hat] at hold
  refine hkeeps _ ?_ ?_
  · unfold Store.summarize
    split <;> rfl
  · unfold Store.summarize
    split <;> rfl

/-- A merge that spares the batch. -/
theorem finished_merge {target : ℕ} {sourceIds : List ℕ} {now : Instant} {u : Store}
    (h : mergeAlertGroups s target sourceIds now = some u)
    (hsources : ∀ n ∈ sourceIds, n ≠ target → n ∉ ids)
    (htarget : target ∈ ids → ∀ n ∈ sourceIds, ∀ a ∈ s.children n, a.status = .resolved)
    (hgroups : GroupsFinished cutoff s ids) : GroupsFinished cutoff u ids := by
  obtain ⟨g, hg, rfl, t, hloop, hgt, rfl⟩ := mergeAlertGroups_cases h
  have hwork := works_recalculate (P := True) t g now
  have hframe : Frame g.id t (t.recalculateAlertGroup g now).1 := .of_works hwork
  -- after the loop, a group of the batch is the same one, and its alerts are resolved
  have hloopGroups : ∀ m ∈ ids, ∀ k ∈ t.groups.rows, k.id = m → k ∈ s.groups.rows := by
    intro m hm k hk hid
    obtain ⟨f, hf, hpointed⟩ := Rows.exists_left hloop.groups hk
    have hnot : ¬Absorbed g.id sourceIds f.id := by
      rintro ⟨hmem, hne⟩
      exact hsources f.id hmem hne (by rwa [← hpointed.id, hid])
    rwa [hpointed.kept hnot]
  have hloopAlerts : ∀ m ∈ ids, ∀ a ∈ t.alerts.rows, a.group = some m → a.status = .resolved := by
    intro m hm a ha hgroup
    obtain ⟨b, hb, hmoved⟩ := Rows.exists_left hloop.alerts ha
    rw [hmoved.status]
    by_cases habsorbed : ∃ n, b.group = some n ∧ Absorbed g.id sourceIds n
    · -- it came from a source, so the target is in the batch
      obtain ⟨n, hn, habs⟩ := habsorbed
      obtain rfl := Option.some.inj (hgroup.symm.trans (hmoved.absorbed n hn habs))
      exact htarget hm n habs.1 b (mem_children.mpr ⟨hb, hn⟩)
    · have hkept := hmoved.kept fun n hn habs => habsorbed ⟨n, hn, habs⟩
      exact (hgroups m hm).2 b hb (hkept.symm.trans hgroup)
  intro m hm
  refine ⟨fun k hk hid => ?_, fun a ha hgroup => ?_⟩
  · by_cases heq : m = g.id
    · obtain ⟨hstatus, hold⟩ := (hgroups m hm).1 g hg heq.symm
      have hfinished := recalculated_finished (t.children g.id) now hstatus hold
        fun a ha => hloopAlerts m hm a (mem_children.mp ha).1 (heq ▸ (mem_children.mp ha).2)
      have hsame : k = Store.recalculated (t.children g.id) now g :=
        IdTable.eq_of_id hk (hwork.stored hgt) ((hid.trans heq).trans (recalculated_id _ now g).symm)
      rw [hsame]
      exact hfinished
    · exact (hgroups m hm).1 k
        (hloopGroups m hm k ((hframe.groups k (hid ▸ heq)).mp hk) hid) hid
  · obtain ⟨a₀, ha₀, hgroup₀, hstatus₀⟩ := recalculate_alerts ha
    rw [hstatus₀]
    exact hloopAlerts m hm a₀ ha₀ (hgroup₀.symm.trans hgroup)

/-- A merge moves no alert without a group. -/
theorem alertsFinished_merge {target : ℕ} {sourceIds : List ℕ} {now : Instant} {u : Store}
    (h : mergeAlertGroups s target sourceIds now = some u) (halerts : AlertsFinished s ids) :
    AlertsFinished u ids := by
  obtain ⟨g, -, rfl, t, hloop, -, rfl⟩ := mergeAlertGroups_cases h
  have hmoved : AlertsFinished t ids := by
    intro m hm
    obtain ⟨a, ha, hid, hgroup, hresolved⟩ := halerts m hm
    obtain ⟨b, hb, hab⟩ := Rows.exists_right hloop.alerts ha
    refine ⟨b, hb, (congrArg Prod.fst hab.occurrence).trans hid, ?_, hab.status.trans hresolved⟩
    rw [hab.kept (by simp [hgroup])]
    exact hgroup
  exact hmoved.frame (.of_works (works_recalculate (P := True) t g now))

/-- A batch consists of groups that are finished when it is read. -/
theorem mem_resolvedGroupBatch {batchSize : ℕ} (hn : n ∈ s.resolvedGroupBatch cutoff batchSize) :
    ∃ g ∈ s.groups.rows, g.id = n ∧ s.isFinished cutoff g = true := by
  obtain ⟨g, hg, rfl⟩ := List.mem_map.mp hn
  obtain ⟨hmem, hfinished⟩ :=
    List.mem_filter.mp ((List.mem_insertionSort _).mp (List.mem_of_mem_take hg))
  exact ⟨g, hmem, rfl, hfinished⟩

/-- A group is finished when it was resolved before the cutoff and no child of it is open. -/
theorem isFinished_iff {g : AlertGroup} : s.isFinished cutoff g = true ↔
    (g.status = .resolved ∧ g.resolvedAt.any (· < cutoff) = true) ∧
      ∀ a ∈ s.alerts.rows, a.group = some g.id → a.status = .resolved := by
  unfold Store.isFinished
  rw [decide_eq_true_iff, List.all_eq_true, and_assoc]
  simp only [mem_children, decide_eq_true_iff, and_imp]

/-- What is selected is finished. -/
theorem groupsFinished_select (s : Store) (cutoff : Instant) (batchSize : ℕ) :
    GroupsFinished cutoff s (s.resolvedGroupBatch cutoff batchSize) := by
  intro n hn
  obtain ⟨g, hg, rfl, hfinished⟩ := mem_resolvedGroupBatch hn
  obtain ⟨hrow, hchildren⟩ := isFinished_iff.mp hfinished
  refine ⟨fun g' hg' hid => ?_, hchildren⟩
  rw [IdTable.eq_of_id hg' hg hid]
  exact hrow

/-- The batch of alerts is finished when it is read. -/
theorem alertsFinished_select (s : Store) (cutoff : Instant) (batchSize : ℕ) :
    AlertsFinished s (s.standaloneAlertBatch cutoff batchSize) := by
  intro n hn
  obtain ⟨a, ha, rfl⟩ := List.mem_map.mp hn
  obtain ⟨hmem, hstandalone⟩ :=
    List.mem_filter.mp ((List.mem_insertionSort _).mp (List.mem_of_mem_take ha))
  obtain ⟨hgroup, hresolved, -⟩ := of_decide_eq_true hstandalone
  exact ⟨a, hmem, rfl, hgroup, hresolved⟩

end Batches

/-! ## Every run -/

/-- The alerts that are selected and not deleted yet. -/
def CleanupPhase.alertBatch : CleanupPhase → List ℕ
  | .deleteAlerts ids => ids
  | .selectGroups | .deleteChildren _ | .deleteGroups _ | .selectAlerts | .finished => []

/-- What is selected is finished still. -/
structure Tracked (r : Retention) (s : CleanupState) : Prop where
  groups : GroupsFinished r.cutoff s.store s.phase.batch
  alerts : AlertsFinished s.store s.phase.alertBatch

section Runs

variable {r : Retention} {s : CleanupState}

theorem groupsFinished_nil (cutoff : Instant) (s : Store) : GroupsFinished cutoff s [] := nofun

theorem alertsFinished_nil (s : Store) : AlertsFinished s [] := nofun

theorem Tracked.frame {n : ℕ} {t : Store} (h : Tracked r s) (hframe : Frame n s.store t)
    (hn : n ∉ s.phase.batch) : Tracked r { s with store := t } :=
  ⟨h.groups.frame hframe hn, h.alerts.frame hframe⟩

/-- What is deleted is finished. -/
theorem Tracked.lawful (h : Tracked r s) (l : CleanupLabel) : Lawful r s l := by
  obtain ⟨store, phase, result⟩ := s
  cases l with
  | request | acknowledge | resolve => trivial
  | cleanup =>
    cases phase with
    | selectGroups | selectAlerts | finished => trivial
    | deleteChildren ids =>
      intro a ha hgroup
      obtain ⟨n, hn, hmem⟩ := (Option.any_eq_true _ _).mp hgroup
      exact (h.groups n (of_decide_eq_true hmem)).2 a ha hn
    | deleteGroups ids =>
      intro g hg hmem
      exact isFinished_iff.mpr ⟨(h.groups g.id hmem).1 g hg rfl, (h.groups g.id hmem).2⟩
    | deleteAlerts ids =>
      intro a ha hmem
      obtain ⟨b, hb, hid, -, hresolved⟩ := h.alerts a.id hmem
      rwa [IdTable.eq_of_id ha hb hid.symm]

/-- A statement of the cleanup. -/
theorem Tracked.next (h : Tracked r s) : Tracked r (s.next r) := by
  obtain ⟨store, phase, result⟩ := s
  cases phase with
  | selectGroups =>
    refine ⟨?_, ?_⟩ <;> dsimp only [CleanupState.next]
    · split_ifs
      · exact groupsFinished_nil _ _
      · exact groupsFinished_select store r.cutoff r.batchSize
    · split_ifs <;> exact alertsFinished_nil _
  | deleteChildren ids =>
    -- there are fewer alerts
    refine ⟨fun n hn => ⟨(h.groups n hn).1, fun a ha => ?_⟩, alertsFinished_nil _⟩
    exact (h.groups n hn).2 a (IdTable.mem_delete.mp ha).1
  | deleteGroups ids =>
    refine ⟨?_, ?_⟩ <;> dsimp only [CleanupState.next]
    · split_ifs <;> exact groupsFinished_nil _ _
    · split_ifs <;> exact alertsFinished_nil _
  | selectAlerts =>
    refine ⟨?_, ?_⟩ <;> dsimp only [CleanupState.next]
    · split_ifs <;> exact groupsFinished_nil _ _
    · split_ifs
      · exact alertsFinished_nil _
      · exact alertsFinished_select store r.cutoff r.batchSize
  | deleteAlerts ids =>
    refine ⟨?_, ?_⟩ <;> dsimp only [CleanupState.next]
    · split_ifs <;> exact groupsFinished_nil _ _
    · split_ifs <;> exact alertsFinished_nil _
  | finished => exact h

/-- A merge is refused, or done. -/
theorem handle_merge (canRespond : Id → Bool) (s : Store) (target : ℕ) (sourceIds : List ℕ)
    (now : Instant) : s.handle (.merge canRespond target sourceIds now) = s ∨
      ∃ t, mergeAlertGroups s target sourceIds now = some t ∧
        s.handle (.merge canRespond target sourceIds now) = t := by
  unfold Store.handle
  dsimp only
  split
  · rename_i t hview
    exact .inr ⟨t, view_ok hview, rfl⟩
  · exact .inl rfl

/-- A request that spares the batch. -/
theorem Tracked.request (h : Tracked r s) {request : Request}
    (hspares : request.Spares s.store s.phase.batch) :
    Tracked r { s with store := s.store.handle request } := by
  cases request with
  | event env a now =>
    rcases frame_persistEvent env a now s.store with heq | ⟨n, alert, created, houtcome, hframe⟩
    · show Tracked r { s with store := (persistEvent env a now s.store).1 }
      rw [heq]
      exact h
    · exact h.frame hframe (hspares n alert created houtcome)
  | merge canRespond target sourceIds now =>
    rcases handle_merge canRespond s.store target sourceIds now with heq | ⟨t, hmerge, heq⟩
    · rw [heq]
      exact h
    · rw [heq]
      exact ⟨finished_merge hmerge hspares.1 hspares.2 h.groups, alertsFinished_merge hmerge h.alerts⟩

/-- Only a group that is open is acknowledged. -/
theorem Tracked.acknowledge (h : Tracked r s) (groupId : ℕ) (userId : Option ℕ) (now : Instant) :
    Tracked r { s with store := acknowledgeGroup s.store groupId userId now } := by
  unfold acknowledgeGroup
  split
  · exact h
  · rename_i g hget
    split_ifs with hclosed
    · exact h
    · have hspared : g.id ∉ s.phase.batch := h.groups.not_mem (IdTable.get_eq_some.mp hget).1
        fun hresolved => hclosed (.inr (.inl hresolved))
      exact h.frame (.saved s.store rfl) hspared

/-- Only a group that is open is resolved. -/
theorem Tracked.resolve (h : Tracked r s) (groupId : ℕ) (userId : Option ℕ) (now : Instant) :
    Tracked r { s with store := resolveGroup s.store groupId userId now } := by
  unfold resolveGroup
  split
  · exact h
  · rename_i g hget
    split_ifs with hclosed
    · exact h
    · have hspared : g.id ∉ s.phase.batch := h.groups.not_mem (IdTable.get_eq_some.mp hget).1
        fun hresolved => hclosed (.inl hresolved)
      exact h.frame (frame_resolveAlertGroup s.store g userId now) hspared

/-- One step keeps track of the batch, as long as it spares it. -/
theorem Tracked.step (h : Tracked r s) {l : CleanupLabel} (hspares : Spares s l) :
    Tracked r (cleanupStep r s l) := by
  cases l with
  | cleanup => exact h.next
  | request request => exact h.request hspares
  | acknowledge groupId userId now => exact h.acknowledge groupId userId now
  | resolve groupId userId now => exact h.resolve groupId userId now

end Runs

/-! ## The end of the cleanup -/

/-- The place of a phase in its round. -/
def CleanupPhase.rank : CleanupPhase → ℕ
  | .selectGroups => 5
  | .deleteChildren _ => 4
  | .deleteGroups _ => 3
  | .selectAlerts => 2
  | .deleteAlerts _ => 1
  | .finished => 0

/-- What every statement makes smaller. -/
def CleanupState.remaining (s : CleanupState) : ℕ ×ₗ ℕ ×ₗ ℕ :=
  toLex (s.store.groups.rows.length, toLex (s.store.alerts.rows.length, s.phase.rank))

section Termination

variable (r : Retention)

/-- The measure is lexicographic: groups, then alerts, then what is left of the round. -/
theorem remaining_lt_iff {s t : CleanupState} : s.remaining < t.remaining ↔
    s.store.groups.rows.length < t.store.groups.rows.length ∨
      s.store.groups.rows.length = t.store.groups.rows.length ∧
        (s.store.alerts.rows.length < t.store.alerts.rows.length ∨
          s.store.alerts.rows.length = t.store.alerts.rows.length ∧ s.phase.rank < t.phase.rank) := by
  unfold CleanupState.remaining
  rw [Prod.Lex.toLex_lt_toLex, Prod.Lex.toLex_lt_toLex]

/-- **Every step of the cleanup takes something away**, so it comes to an end. -/
theorem remaining_next {s : CleanupState} (h : s.phase ≠ .finished) :
    (s.next r).remaining < s.remaining := by
  rw [remaining_lt_iff]
  -- the store and the phase shrink in turn: what is deleted is counted, else the phase moves on
  obtain ⟨store, phase, result⟩ := s
  cases phase with
  | selectGroups =>
    refine .inr ⟨rfl, .inr ⟨rfl, ?_⟩⟩
    dsimp only [CleanupState.next]
    split_ifs <;> simp [CleanupPhase.rank]
  | deleteChildren ids =>
    refine .inr ⟨rfl, ?_⟩
    have hlength := IdTable.length_delete store.alerts fun a => a.group.any (· ∈ ids)
    show (store.alerts.delete _).rows.length < store.alerts.rows.length ∨
      (store.alerts.delete _).rows.length = store.alerts.rows.length ∧ 3 < 4
    omega
  | deleteGroups ids =>
    have hlength := IdTable.length_delete store.groups fun g => decide (g.id ∈ ids)
    have hgroups : (store.deleteGroups ids).groups.rows.length =
        (store.groups.delete fun g => decide (g.id ∈ ids)).rows.length :=
      List.length_map _
    have halerts : (store.deleteGroups ids).alerts.rows.length = store.alerts.rows.length :=
      List.length_map _
    dsimp only [CleanupState.next]
    -- another batch is only selected when one was deleted
    split_ifs with hdeleted
    · exact .inr ⟨by omega, .inr ⟨halerts, by simp [CleanupPhase.rank]⟩⟩
    · exact .inl (by omega)
  | selectAlerts =>
    refine .inr ⟨rfl, .inr ⟨rfl, ?_⟩⟩
    dsimp only [CleanupState.next]
    split_ifs <;> simp [CleanupPhase.rank]
  | deleteAlerts ids =>
    refine .inr ⟨rfl, ?_⟩
    have hlength := IdTable.length_delete store.alerts fun a => decide (a.id ∈ ids)
    dsimp only [CleanupState.next, Store.deleteAlerts]
    split_ifs with hdeleted
    · exact .inr ⟨by omega, by simp [CleanupPhase.rank]⟩
    · exact .inl (by omega)
  | finished => exact absurd rfl h

/-- The statements of the cleanup come to an end. -/
theorem cleanup_ends (s : CleanupState) :
    ∃ k, ((CleanupState.next r)^[k] s).phase = .finished := by
  induction s using (InvImage.wf CleanupState.remaining wellFounded_lt).induction
  rename_i s ih
  by_cases h : s.phase = .finished
  · exact ⟨0, h⟩
  · obtain ⟨k, hk⟩ := ih (s.next r) (remaining_next r h)
    exact ⟨k + 1, hk⟩

/-- Where nothing qualifies, the cleanup ends and deletes nothing. -/
theorem cleanup_idle {s : CleanupState} (hphase : s.phase = .selectGroups)
    (hgroups : s.store.resolvedGroupBatch r.cutoff r.batchSize = [])
    (halerts : s.store.standaloneAlertBatch r.cutoff r.batchSize = []) :
    (s.next r).next r = { s with phase := .finished } := by
  obtain ⟨store, phase, result⟩ := s
  obtain rfl : phase = .selectGroups := hphase
  simp only [CleanupState.next, hgroups, halerts, if_pos]

end Termination

/-! ## What a cleanup deletes -/

/-- A cleanup starts with nothing selected. -/
theorem tracked_start {retentionDays batchSize : Int} {now : Instant} {r : Retention}
    {phase : CleanupPhase} (h : startCleanup retentionDays batchSize now = .ok (r, phase))
    (store : Store) : Tracked r ⟨store, phase, {}⟩ := by
  unfold startCleanup at h
  split_ifs at h
  all_goals
    cases h
    exact ⟨groupsFinished_nil _ _, alertsFinished_nil _⟩

/-- **Only finished groups and resolved alerts are deleted** in a run in which every batch
is left alone until it is deleted; from wherever the run is, the cleanup ends, and at once
where nothing qualifies. -/
theorem cleanup_lawful {retentionDays batchSize : Int} {now : Instant} {r : Retention}
    {phase : CleanupPhase} (hstart : startCleanup retentionDays batchSize now = .ok (r, phase))
    (store : Store) {ls : List CleanupLabel}
    (h : Along (cleanupStep r) Spares ⟨store, phase, {}⟩ ls) :
    Along (cleanupStep r) (Lawful r) ⟨store, phase, {}⟩ ls ∧
      (∃ k, ((CleanupState.next r)^[k] (ls.foldl (cleanupStep r) ⟨store, phase, {}⟩)).phase =
        .finished) ∧
      ∀ t : CleanupState, t.phase = .selectGroups →
        t.store.resolvedGroupBatch r.cutoff r.batchSize = [] →
        t.store.standaloneAlertBatch r.cutoff r.batchSize = [] →
        (t.next r).next r = { t with phase := .finished } := by
  refine ⟨?_, cleanup_ends r _, fun t => cleanup_idle r⟩
  exact along_of (I := Tracked r) (fun s l htracked hspares => ⟨htracked.lawful l, htracked.step hspares⟩)
    (tracked_start hstart store) h

/-- Where the deletion of the children is lawful, each of them is resolved. -/
theorem Lawful.of_children {r : Retention} {s : CleanupState} (h : Lawful r s .cleanup) {ids : List ℕ}
    (hphase : s.phase = .deleteChildren ids) :
    ∀ a ∈ s.store.alerts.rows, a.group.any (· ∈ ids) = true → a.status = .resolved := by
  unfold Lawful at h
  dsimp only at h
  rwa [hphase] at h

/-- A day of retention, two days after the first alert. -/
def dayRetention : Retention := ⟨seconds 86400, 500⟩

/-- The group is finished and selected; a firing group is merged into it; the batch is
deleted. -/
def mergedWhileSelected : List CleanupLabel :=
  [.request (.event plainServices (firingArrival "disk") 0), .resolve 1 none 60,
    .request (.event plainServices (firingArrival "cpu") 120), .cleanup,
    .request (.merge (fun _ => true) 1 [2] 180), .cleanup, .cleanup]

/-- The alert of a finished group is deleted, and then the group. -/
theorem cleanup_lawful_once :
    Along (cleanupStep dayRetention) (Lawful dayRetention) ⟨Store.empty, .selectGroups, {}⟩
      [.request (.event plainServices (firingArrival "disk") 0), .resolve 1 none 60,
        .cleanup, .cleanup, .cleanup] :=
  (@cleanup_lawful 1 500 (seconds 172800) dayRetention .selectGroups rfl Store.empty
    [.request (.event plainServices (firingArrival "disk") 0), .resolve 1 none 60,
      .cleanup, .cleanup, .cleanup]
    (And.intro (fun _ _ _ _ => List.not_mem_nil) ⟨trivial, trivial, trivial, trivial, trivial⟩)).1

/-- **A firing alert is deleted**, with its group. -/
theorem cleanup_deletes_firing : ¬∀ (retentionDays batchSize : Int) (now : Instant)
    (r : Retention) (phase : CleanupPhase), startCleanup retentionDays batchSize now = .ok (r, phase) →
    ∀ (store : Store) (ls : List CleanupLabel),
      Along (cleanupStep r) (Lawful r) ⟨store, phase, {}⟩ ls := by
  intro h
  obtain ⟨-, -, -, -, -, hdeleted, -⟩ :=
    h 1 500 (seconds 172800) dayRetention .selectGroups rfl Store.empty mergedWhileSelected
  have hphase : ((mergedWhileSelected.take 5).foldl (cleanupStep dayRetention)
      ⟨Store.empty, .selectGroups, {}⟩).phase = .deleteChildren [1] := by decide +kernel
  have hfiring : ¬∀ a ∈ ((mergedWhileSelected.take 5).foldl (cleanupStep dayRetention)
      ⟨Store.empty, .selectGroups, {}⟩).store.alerts.rows,
      a.group.any (· ∈ [1]) = true → a.status = .resolved := by decide +kernel
  exact hfiring (hdeleted.of_children hphase)

end IncidentRelay.Alerts
