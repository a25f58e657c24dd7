import IncidentRelay.Alerts.Upsert

/-!
# What writing an event does to the alerts

The maintenance and the recalculation of a group touch only the status of its
children, and a resolved child stays resolved (`Touches`). Writing an event beyond
that rewrites the alert it found, or inserts one under its own key.
-/

namespace IncidentRelay.Alerts

/-- The status of an alert is touched; a resolved alert stays resolved. -/
def Touches (a a' : Alert) : Prop :=
  (∃ status previousStatus resolvedAt, a' = { a with
    status := status, previousStatus := previousStatus, resolvedAt := resolvedAt }) ∧
  (a.status = .resolved → a'.status = .resolved)

/-- A property that no touch brings about. -/
def Stable (P : Alert → Prop) : Prop := ∀ a a', Touches a a' → P a' → P a

/-- The alerts after a computation that only touches them. -/
def TouchesOnly (s t : Store) : Prop := ∀ P, Stable P → IdTable.Shrinks P s.alerts t.alerts

namespace TouchesOnly

variable {s t u : Store}

theorem refl (s : Store) : TouchesOnly s s := fun _ _ => .refl _

theorem trans (h : TouchesOnly s t) (h' : TouchesOnly t u) : TouchesOnly s u :=
  fun P hP => (h P hP).trans (h' P hP)

theorem saveGroup (s : Store) (g : AlertGroup) : TouchesOnly s (s.saveGroup g) := fun _ _ => .refl _

theorem updateAlerts {guard : Alert → Bool} {set : Alert → Alert} {hset : ∀ a, (set a).id = a.id}
    (h : ∀ a, guard a = true → Touches a (set a)) :
    TouchesOnly s (s.updateAlerts guard set hset) := by
  intro P hP
  exact IdTable.Shrinks.update hset fun a _ hg => hP a (set a) (h a hg)

end TouchesOnly

/-! ## The group's work -/

section Group

variable (env : Services) (s : Store) (g : AlertGroup) (now : Instant)

/-- A recalculation writes the row of its group. -/
theorem touches_recalculate : TouchesOnly s (s.recalculateAlertGroup g now).1 := by
  unfold Store.recalculateAlertGroup
  dsimp only
  split_ifs
  · refine TouchesOnly.trans ?_ (.saveGroup _ _)
    exact .updateAlerts fun a _ => ⟨⟨a.status, a.previousStatus, some now, rfl⟩, id⟩
  · exact .saveGroup _ _

/-- Children are given back the status they had before they were silenced. -/
theorem touches_restoreChildren (groupId : ℕ) : TouchesOnly s (restoreChildren s groupId) := by
  unfold restoreChildren
  dsimp only
  refine TouchesOnly.trans ?_ (.updateAlerts ?_)
  · refine .updateAlerts fun a hg => ⟨⟨_, _, a.resolvedAt, rfl⟩, ?_⟩
    intro hresolved
    simp [hresolved] at hg
  · refine fun a hg => ⟨⟨_, a.previousStatus, a.resolvedAt, rfl⟩, ?_⟩
    intro hresolved
    simp [hresolved] at hg

/-- The maintenance of a group touches its children only where it silences or restores them. -/
theorem touches_recompute (behaviors : List Behavior) :
    TouchesOnly s (recomputeGroupEffects env s g behaviors now).1 := by
  unfold recomputeGroupEffects
  dsimp only
  split
  · refine TouchesOnly.trans ?_ (.saveGroup _ _)
    refine .updateAlerts fun a hg => ⟨⟨_, _, a.resolvedAt, rfl⟩, ?_⟩
    intro hresolved
    simp [hresolved] at hg
  · split
    · exact (((touches_restoreChildren s g.id).trans (TouchesOnly.saveGroup _ _)).trans
        (touches_recalculate _ _ _)).trans (.saveGroup _ _)
    · exact .saveGroup _ _

/-- By induction on the windows that apply. -/
theorem touches_reconcile : TouchesOnly s (reconcileMaintenance env s g now).1 := by
  unfold reconcileMaintenance
  generalize env.activeBehaviors s g now = windows
  induction windows generalizing s g with
  | nil => exact .refl s
  | cons behaviors windows ih =>
    rw [List.foldl_cons]
    exact (touches_recompute env s g now behaviors).trans (ih _ _)

/-- A resolve touches the children of its group. -/
theorem touches_resolve (userId : Option ℕ) :
    TouchesOnly s (s.resolveAlertGroup g userId now) := by
  unfold Store.resolveAlertGroup
  refine TouchesOnly.trans ?_ (.saveGroup _ _)
  exact .updateAlerts fun a _ => ⟨⟨.resolved, a.previousStatus, some now, rfl⟩, fun _ => rfl⟩

end Group

/-! ## The event -/

section Event

variable (env : Services) (a : Arrival) (now : Instant) (s : Store)

/-- Looking for the group of an alert that is there writes no alert. -/
theorem groupForExisting_alerts (status : Status) (existing : Alert)
    (openGroup : Option AlertGroup) :
    (groupForExisting env a now s status existing openGroup).1.alerts = s.alerts := by
  unfold groupForExisting
  split
  · rfl
  · rfl

/-- The existing alert is rewritten, and the rest are touches. -/
theorem handleExisting_touches (status : Status) (existing : Alert)
    (openGroup : Option AlertGroup) :
    ∃ groupId t, t.alerts = s.alerts.save (refreshedAlert env a now existing status groupId) ∧
      TouchesOnly t (handleExistingAlert env a now s status existing openGroup).1 := by
  unfold handleExistingAlert
  dsimp only
  rw [← groupForExisting_alerts env a now s status existing openGroup]
  exact ⟨_, _, rfl, (touches_reconcile env _ _ now).trans (touches_recalculate _ _ now)⟩

/-- Only the existing alert is rewritten beyond a touch. -/
theorem shrinks_handleExisting {P : Alert → Prop} (hP : Stable P) (status : Status)
    (existing : Alert) (openGroup : Option AlertGroup)
    (hrow : ∀ groupId, ¬P (refreshedAlert env a now existing status groupId)) :
    IdTable.Shrinks P s.alerts
      (handleExistingAlert env a now s status existing openGroup).1.alerts := by
  obtain ⟨groupId, t, ht, htouches⟩ :=
    handleExisting_touches env a now s status existing openGroup
  refine IdTable.Shrinks.trans ?_ (htouches P hP)
  rw [ht]
  exact .save fun hrefreshed => absurd hrefreshed (hrow _)

/-- What holds of a new group, of the groups that can be found, and of one as it fires again, holds
of the group that is chosen. -/
theorem chooseGroup_of {P : Store → AlertGroup → Prop} {status : Status}
    {silenced reopenEnabled : Bool} {openGroup : Option AlertGroup}
    (hcreated : P (createGroup env a now s status now silenced).1
      (createGroup env a now s status now silenced).2)
    (hexact : ∀ g, s.findExactOpenGroup env.sha256 (a.identity env) = some g → P s g)
    (hrestarted : ∀ candidate, reopenEnabled = true →
      s.findResolvedReopenCandidate env.sha256 (a.identity env) now
        a.runtime.groupingReopenWindowSeconds = some candidate →
      P (s.saveGroup (Store.restartResolvedGroup candidate now))
        (Store.restartResolvedGroup candidate now))
    (hopen : ∀ g ∈ openGroup, P s g)
    (hfires : ∀ t g, P t g → ∀ g', g' = { g with
      previousStatus := some g.status
      status := .firing
      acknowledgedBy := none
      acknowledgedAt := none
      updatedAt := now } → P (t.saveGroup g') g') :
    P (chooseGroup env a now s status silenced reopenEnabled openGroup).1
      (chooseGroup env a now s status silenced reopenEnabled openGroup).2 := by
  unfold chooseGroup
  dsimp only
  split
  · exact hcreated
  · rename_i t g hchoice
    have hchosen : P t g := by
      split_ifs at hchoice with henabled
      · split at hchoice
        · rename_i found hfound
          cases hchoice
          exact hexact _ hfound
        · obtain ⟨candidate, hcandidate, heq⟩ := Option.map_eq_some_iff.mp hchoice
          cases heq
          exact hrestarted candidate henabled hcandidate
      · obtain ⟨found, hfound, heq⟩ := Option.map_eq_some_iff.mp hchoice
        cases heq
        exact hopen _ hfound
    unfold reopenAcknowledged
    split_ifs
    · exact hchosen
    · exact hfires t g hchosen _ rfl
    · exact hchosen

/-- The choice of a group leaves the alerts. -/
theorem chooseGroup_alerts (status : Status) (silenced reopenEnabled : Bool)
    (openGroup : Option AlertGroup) :
    (chooseGroup env a now s status silenced reopenEnabled openGroup).1.alerts = s.alerts :=
  chooseGroup_of env a now s (P := fun t _ => t.alerts = s.alerts) rfl (fun _ _ => rfl)
    (fun _ _ _ => rfl) (fun _ _ => rfl) fun _ _ h _ _ => h

/-- Only the new alert is more than a touch. -/
theorem shrinks_createForNew {P : Alert → Prop} (hP : Stable P) (status : Status)
    (reopenEnabled : Bool) (openGroup : Option AlertGroup)
    (hrow : ∀ id groupId status silenced, ¬P (newAlert env a now id groupId status silenced)) :
    IdTable.Shrinks P s.alerts
      (createForNew env a now s status reopenEnabled openGroup).1.alerts := by
  unfold createForNew
  dsimp only
  split
  · exact .refl _
  · unfold createAlertIn
    dsimp only
    refine IdTable.Shrinks.trans ?_ (((touches_reconcile env _ _ now).trans
      (touches_recalculate _ _ now)) P hP)
    refine IdTable.Shrinks.trans ?_ (IdTable.Shrinks.insert rfl (hrow _ _ _ _))
    refine IdTable.Shrinks.trans ?_ (touches_reconcile env _ _ now P hP)
    show IdTable.Shrinks P s.alerts (chooseGroup env a now s _ _ reopenEnabled openGroup).1.alerts
    rw [chooseGroup_alerts]
    exact .refl _

/-- The alert that is found is open and has the source and the key of the event. -/
theorem lookupExisting_spec {existing : Alert} (h : lookupExisting env a s = some existing) :
    existing ∈ s.alerts.rows ∧ existing.source = a.source ∧ existing.dedupKey = a.dedupKey ∧
      existing.status ≠ .resolved := by
  obtain ⟨hfound, -⟩ := Option.mem_filter_iff.mp h
  obtain ⟨hmem, hopen⟩ := IdTable.latest_spec hfound
  simp only [Store.isOpenFor, decide_eq_true_eq] at hopen
  exact ⟨hmem, hopen.1, hopen.2.1, hopen.2.2.1⟩

/-- **Writing an event brings nothing about in the alerts of other keys.** -/
theorem shrinks_persistEvent {P : Alert → Prop} (hP : Stable P)
    (hkey : ∀ alert, P alert → alert.dedupKey ≠ a.dedupKey) :
    IdTable.Shrinks P s.alerts (persistEvent env a now s).1.alerts := by
  unfold persistEvent
  dsimp only
  split
  · exact .refl _
  · cases hexisting : lookupExisting env a s with
    | some existing =>
      refine shrinks_handleExisting env a now s hP _ existing _ fun groupId hrow => ?_
      exact hkey _ hrow (lookupExisting_spec env a s hexisting).2.2.1
    | none =>
      dsimp only
      split
      · exact .refl _
      · exact shrinks_createForNew env a now s hP _ _ _ fun _ _ _ _ hrow => hkey _ hrow rfl

end Event

end IncidentRelay.Alerts
