import IncidentRelay.Alerts.Isolation
import IncidentRelay.Alerts.Priority

/-!
# The priority of a group over a run

While no operator sets it and events may raise it, the priority of a group is the most urgent
of those that it started with and that were resolved for its children.

 * `event_cases`: what an event does to the priority of a group that is there.
 * `priority_kept_iff`: the most urgent of all in every state of a run iff every event is heeded.
-/

namespace IncidentRelay.Alerts

open Json Orchestration

/-! ## Groups that are there -/

def Store.groupIds (s : Store) : List ℕ := s.groups.rows.map (·.id)

section Kept

/-- A store that differs in one row has the same ids. -/
theorem RowOnly.ids {n : ℕ} {gs hs : List AlertGroup} (h : RowOnly n gs hs) :
    hs.map (·.id) = gs.map (·.id) := by
  induction h with
  | nil => rfl
  | cons hab _ ih => rw [List.map_cons, List.map_cons, hab.1, ih]

theorem saveGroup_groupIds (s : Store) (g : AlertGroup) : (s.saveGroup g).groupIds = s.groupIds :=
  (RowOnly.save s g).ids

theorem Works.groupIds {P : Prop} {s t : Store} {g g' : AlertGroup} (h : Works P s g t g') :
    t.groupIds = s.groupIds := h.groups.ids

variable (env : Services) (a : Arrival) (now : Instant) (s : Store)

/-- The maintenance and the recalculation that end an event. -/
theorem works_event (g : AlertGroup) : Works env.RestoresOpen s g
    ((reconcileMaintenance env s g now).1.recalculateAlertGroup
      (reconcileMaintenance env s g now).2 now).1
    ((reconcileMaintenance env s g now).1.recalculateAlertGroup
      (reconcileMaintenance env s g now).2 now).2 :=
  (works_reconcile env s g now).trans (works_recalculate _ _ now)

/-- A creation adds an id. -/
theorem createGroup_groupIds (status : Status) (firstSeenAt : Instant) (silenced : Bool) :
    s.groupIds ⊆ (createGroup env a now s status firstSeenAt silenced).1.groupIds := by
  intro n hn
  show n ∈ (s.groups.rows ++ [newGroup env a now s.groups.next status firstSeenAt silenced]).map (·.id)
  rw [List.map_append]
  exact List.mem_append_left _ hn

/-- The group of an existing alert is there, or it is a new one. -/
theorem groupForExisting_spec (status : Status) (existing : Alert) (openGroup : Option AlertGroup) :
    s.groupIds ⊆ (groupForExisting env a now s status existing openGroup).1.groupIds ∧
      (groupForExisting env a now s status existing openGroup).2.id =
        ((s.groupOf existing <|> openGroup).map (·.id)).getD s.groups.next := by
  unfold groupForExisting
  cases s.groupOf existing <|> openGroup with
  | some g => exact ⟨List.Subset.refl _, rfl⟩
  | none => exact ⟨createGroup_groupIds env a now s _ _ _, rfl⟩

/-- An alert that is there completes in its own group, in the open one, or in a new one. -/
theorem handleExistingAlert_groups (status : Status) (existing : Alert)
    (openGroup : Option AlertGroup) :
    s.groupIds ⊆ (handleExistingAlert env a now s status existing openGroup).1.groupIds ∧
      (handleExistingAlert env a now s status existing openGroup).2 = .completed
        (((s.groupOf existing <|> openGroup).map (·.id)).getD s.groups.next) existing.id false := by
  obtain ⟨hids, hid⟩ := groupForExisting_spec env a now s status existing openGroup
  unfold handleExistingAlert
  dsimp only
  rw [← hid]
  generalize groupForExisting env a now s status existing openGroup = chosen at hids ⊢
  obtain ⟨t, g⟩ := chosen
  dsimp only at hids ⊢
  set marked := { g with
    orchestrationSuppressed := a.suppressed, orchestrationSuppressReason := a.suppressReason }
    with hmarked
  -- what is written behind the choice keeps the ids of the groups
  have hworks := works_event env now
    ((t.saveGroup marked).saveAlert (refreshedAlert env a now existing status marked.id)) marked
  constructor
  · rw [hworks.groupIds]
    show s.groupIds ⊆ (t.saveGroup marked).groupIds
    rw [saveGroup_groupIds]
    exact hids
  · rw [hworks.id]

/-- A new alert goes into the group that was found, or into a new one. -/
theorem chooseGroup_groups (status : Status) (silenced reopenEnabled : Bool)
    (openGroup : Option AlertGroup) :
    s.groupIds ⊆ (chooseGroup env a now s status silenced reopenEnabled openGroup).1.groupIds ∧
      (chooseGroup env a now s status silenced reopenEnabled openGroup).2.id =
        ((foundGroup env a now s reopenEnabled openGroup).map (·.id)).getD s.groups.next := by
  have hreopen : ∀ (t : Store) g, (reopenAcknowledged env a now t g).1.groupIds = t.groupIds ∧
      (reopenAcknowledged env a now t g).2.id = g.id := by
    intro t g
    unfold reopenAcknowledged
    split_ifs
    · exact ⟨rfl, rfl⟩
    · exact ⟨saveGroup_groupIds t _, rfl⟩
  -- a group that was chosen is one of before, or started again under its id
  have hchosen : ∀ (t : Store) g, s.groupIds ⊆ t.groupIds →
      s.groupIds ⊆ (if g.status = .acknowledged ∧ status = .firing then
          reopenAcknowledged env a now t g else (t, g)).1.groupIds ∧
        (if g.status = .acknowledged ∧ status = .firing then
          reopenAcknowledged env a now t g else (t, g)).2.id = g.id := by
    intro t g ht
    split_ifs
    · exact ⟨(hreopen t g).1 ▸ ht, (hreopen t g).2⟩
    · exact ⟨ht, rfl⟩
  unfold chooseGroup foundGroup
  cases reopenEnabled with
  -- with reopening the identity of the event is looked up, without it the open group it was given
  | true =>
    simp only [if_true]
    cases s.findExactOpenGroup env.sha256 (a.identity env) with
    | some g => exact hchosen s g (List.Subset.refl _)
    | none =>
      dsimp only
      cases s.findResolvedReopenCandidate env.sha256 (a.identity env) now
          a.runtime.groupingReopenWindowSeconds with
      | some candidate =>
        refine hchosen _ (Store.restartResolvedGroup candidate now) ?_
        rw [saveGroup_groupIds]
        exact List.Subset.refl _
      | none => exact ⟨createGroup_groupIds env a now s _ _ _, rfl⟩
  | false =>
    simp only [Bool.false_eq_true, if_false]
    cases openGroup with
    | some g => exact hchosen s g (List.Subset.refl _)
    | none => exact ⟨createGroup_groupIds env a now s _ _ _, rfl⟩

/-- A new alert completes in the group it was given. -/
theorem createAlertIn_groups (g : AlertGroup) (status : Status) (silenced : Bool) :
    (createAlertIn env a now s g status silenced).1.groupIds = s.groupIds ∧
      ∃ alert, (createAlertIn env a now s g status silenced).2 = .completed g.id alert true := by
  unfold createAlertIn
  dsimp only
  set marked := { g with
    orchestrationSuppressed := a.suppressed, orchestrationSuppressReason := a.suppressReason }
    with hmarked
  have hfirst := works_reconcile env (s.saveGroup marked) marked now
  generalize reconcileMaintenance env (s.saveGroup marked) marked now = first at hfirst ⊢
  obtain ⟨t, g'⟩ := first
  dsimp only at hfirst ⊢
  have hworks := works_event env now { t with
    alerts := t.alerts.insert (newAlert env a now t.alerts.next g'.id status silenced) rfl } g'
  -- the alert is added to the group that was marked
  constructor
  · rw [hworks.groupIds]
    exact hfirst.groupIds.trans (saveGroup_groupIds s marked)
  · refine ⟨t.alerts.next, ?_⟩
    rw [hworks.id, hfirst.id]
    rfl

theorem next_not_known {n : ℕ} (hn : n ∈ s.groupIds) : n ≠ s.groups.next := by
  obtain ⟨g, hg, rfl⟩ := List.mem_map.mp hn
  exact (s.groups.lt g hg).ne

end Kept

/-! ## An event -/

section Event

variable (env : Services) (a : Arrival) (now : Instant) (resolution : PriorityResolution)
  {b : Triage} {n : ℕ}

/-- The group that a call ends with. -/
def Outcome.group : Outcome → Option ℕ
  | .stopped _ => none
  | .completed group _ _ => some group

/-- The event is taken for one that another intake has stored meanwhile, and is left. -/
def takenForConcurrent (s : Store) : Bool :=
  let existing := lookupExisting env a s
  let decision := maintenanceDecision env a now
    ((existing.bind s.groupOf) <|> s.findOpenAlertGroup env.sha256 (a.identity env))
  existing.isNone && (racedAlert env a s (reopenEnabledUnder a (statusUnder a decision))).isSome

/-- The group takes the resolution in, or it is left as it was. -/
inductive Taken (n : ℕ) (b b' : Triage) (outcome : Outcome) (taken : Bool) : Prop where
  | left (houtcome : outcome.group = some n → taken = true) (hgroup : b'.groups n = b.groups n)
  | applied (houtcome : outcome.group = some n) (htaken : taken = false) (active : List AlertPriority)
      (hgroup : b'.groups n =
        applyPriorityResolutionToGroup (b.groups n) b.catalog active resolution)

variable {resolution} in
/-- The priority of a stored event is applied to the group that it went into, and to no other.
-/
theorem taken_of_apply {m alert stored : ℕ} {kwargs : AlertPriority} {rows : Store} {created : Bool} :
    Taken resolution n b ((({ b with rows } : Triage).setAlert alert kwargs).applyToGroup m resolution)
      (.completed m stored created) false := by
  by_cases hnm : n = m
  · subst hnm
    refine .applied rfl rfl (({ b with rows } : Triage).setAlert alert kwargs |>.activeAlerts n) ?_
    unfold Triage.applyToGroup Triage.setGroup
    dsimp only
    rw [Function.update_self, restore_state]
    rfl
  · refine .left (fun h => absurd (Option.some.inj h).symm hnm) ?_
    exact Function.update_of_ne hnm _ _

theorem handleExistingPriority_taken (hn : n ∈ b.rows.groupIds) (status : Status) (existing : Alert)
    (openGroup : Option AlertGroup) :
    Taken resolution n b (handleExistingPriority env a now resolution b status existing openGroup).1
      (handleExistingAlert env a now b.rows status existing openGroup).2 false := by
  obtain ⟨-, houtcome⟩ := handleExistingAlert_groups env a now b.rows status existing openGroup
  rw [houtcome]
  unfold handleExistingPriority
  dsimp only
  cases b.rows.groupOf existing <|> openGroup with
  | some g => exact taken_of_apply
  | none =>
    have hnew := next_not_known b.rows hn
    exact .left (fun h => absurd (Option.some.inj h).symm hnew) (Function.update_of_ne hnew _ _)

/-- An alert that another request was faster with completes as that alert, without a write. -/
theorem createForNew_raced {s : Store} {status : Status} {reopenEnabled : Bool} {g : AlertGroup}
    {raced : Alert} (openGroup : Option AlertGroup)
    (h : racedAlert env a s reopenEnabled = some (g, raced)) :
    createForNew env a now s status reopenEnabled openGroup = (s, .completed g.id raced.id false) := by
  unfold racedAlert at h
  unfold createForNew
  dsimp only
  rw [h]

/-- The status of a new alert. -/
def statusSilenced (status : Status) : Status :=
  if env.isSilenced a.route.team.id a.alertData now ∧ status = .firing then .silenced else status

/-- Otherwise the alert is created in the group that is chosen. -/
theorem createForNew_new {s : Store} {status : Status} {reopenEnabled : Bool}
    (openGroup : Option AlertGroup) (h : racedAlert env a s reopenEnabled = none) :
    createForNew env a now s status reopenEnabled openGroup = createAlertIn env a now
      (chooseGroup env a now s (statusSilenced env a now status)
        (env.isSilenced a.route.team.id a.alertData now) reopenEnabled openGroup).1
      (chooseGroup env a now s (statusSilenced env a now status)
        (env.isSilenced a.route.team.id a.alertData now) reopenEnabled openGroup).2
      (statusSilenced env a now status) (env.isSilenced a.route.team.id a.alertData now) := by
  unfold racedAlert at h
  unfold createForNew
  dsimp only
  rw [h]
  rfl

/-- In which group a new alert completes. -/
theorem createForNew_groups (s : Store) (status : Status) (reopenEnabled : Bool)
    (openGroup : Option AlertGroup) :
    s.groupIds ⊆ (createForNew env a now s status reopenEnabled openGroup).1.groupIds ∧
      (racedAlert env a s reopenEnabled = none → ∃ alert,
        (createForNew env a now s status reopenEnabled openGroup).2 = .completed
          (((foundGroup env a now s reopenEnabled openGroup).map (·.id)).getD s.groups.next)
          alert true) := by
  cases hraced : racedAlert env a s reopenEnabled with
  | some raced =>
    rw [createForNew_raced env a now openGroup hraced]
    exact ⟨List.Subset.refl _, nofun⟩
  -- no alert came in between, so the group is chosen and the alert made in it
  | none =>
    rw [createForNew_new env a now openGroup hraced]
    obtain ⟨hids, hid⟩ := chooseGroup_groups env a now s (statusSilenced env a now status)
      (env.isSilenced a.route.team.id a.alertData now) reopenEnabled openGroup
    rw [← hid]
    generalize chooseGroup env a now s (statusSilenced env a now status)
      (env.isSilenced a.route.team.id a.alertData now) reopenEnabled openGroup = chosen at hids ⊢
    obtain ⟨hcreated, alert, houtcome⟩ := createAlertIn_groups env a now chosen.1 chosen.2
      (statusSilenced env a now status) (env.isSilenced a.route.team.id a.alertData now)
    rw [hcreated]
    exact ⟨hids, fun _ => ⟨alert, houtcome⟩⟩

/-- The priority follows it into that group, unless the other request was faster. -/
theorem createForNewPriority_taken (hn : n ∈ b.rows.groupIds) (status : Status)
    (reopenEnabled : Bool) (openGroup : Option AlertGroup) :
    Taken resolution n b
      (createForNewPriority env a now resolution b status reopenEnabled openGroup).1
      (createForNew env a now b.rows status reopenEnabled openGroup).2
      (racedAlert env a b.rows reopenEnabled).isSome := by
  obtain ⟨-, hcreated⟩ := createForNew_groups env a now b.rows status reopenEnabled openGroup
  unfold createForNewPriority
  dsimp only
  cases hraced : racedAlert env a b.rows reopenEnabled with
  | some raced => exact .left (fun _ => rfl) rfl
  | none =>
    obtain ⟨alert, houtcome⟩ := hcreated hraced
    rw [houtcome]
    dsimp only
    -- a group that was found takes the priority, a new one is made with it
    cases foundGroup env a now b.rows reopenEnabled openGroup with
    | some g => exact taken_of_apply
    | none =>
      have hnew := next_not_known b.rows hn
      exact .left (fun h => absurd (Option.some.inj h).symm hnew) (Function.update_of_ne hnew _ _)

/-- **What an event does to the priority of a group that is there.** -/
theorem event_cases (hn : n ∈ b.rows.groupIds) :
    n ∈ (persistPriority env a now resolution b).1.rows.groupIds ∧
      Taken resolution n b (persistPriority env a now resolution b).1
        (persistEvent env a now b.rows).2 (takenForConcurrent env a now b.rows) := by
  rw [(persistPriority_rows env a now resolution b).1]
  unfold persistPriority persistEvent takenForConcurrent
  dsimp only
  generalize maintenanceDecision env a now _ = decision
  -- an event of a maintenance that drops changes nothing
  split
  · exact ⟨hn, .left nofun rfl⟩
  · cases lookupExisting env a b.rows with
    | some existing =>
      exact ⟨(handleExistingAlert_groups env a now b.rows _ existing _).1 hn,
        handleExistingPriority_taken env a now resolution hn _ existing _⟩
    | none =>
      dsimp only
      split
      · exact ⟨hn, .left nofun rfl⟩
      · exact ⟨(createForNew_groups env a now b.rows _ _ _).1 hn,
          createForNewPriority_taken env a now resolution hn _ _ _⟩

end Event

/-! ## Steps -/

/-- A call that writes the groups. What maintenance, rules and policies decide is part of an
event, so that they may change in between. -/
inductive PriorityStep where
  | event (env : Services) (a : Arrival) (now : Instant) (resolution : PriorityResolution)
  | recalculate (group : ℕ) (now : Instant)
  | acknowledge (group : ℕ) (userId : Option ℕ) (now : Instant)
  | resolve (group : ℕ) (userId : Option ℕ) (now : Instant)
  | setPriority (group : ℕ) (slug : String)
  | resetPriority (group : ℕ) (automatic : Option IncidentPriority)
  | configure (catalog : List IncidentPriority)

def PriorityStep.isEvent : PriorityStep → Bool
  | .event .. => true
  | _ => false

namespace Triage

variable (b : Triage)

/-- A call on the row of a group, if there is one. -/
def onGroup (n : ℕ) (write : AlertGroup → Store) : Triage :=
  match b.rows.groups.get n with
  | none => b
  | some g => { b with rows := write g }

def next : PriorityStep → Triage
  | .event env a now resolution => (persistPriority env a now resolution b).1
  | .recalculate n now => b.onGroup n fun g => (b.rows.recalculateAlertGroup g now).1
  | .acknowledge n userId now => b.onGroup n fun g => b.rows.acknowledgeAlertGroup g userId now
  | .resolve n userId now => b.onGroup n fun g => b.rows.resolveAlertGroup g userId now
  | .setPriority n slug => (setIncidentPriority b n slug).toOption.getD b
  | .resetPriority n automatic => (resetIncidentPriority b n automatic).toOption.getD b
  | .configure catalog => { b with catalog }

variable (n : ℕ)

/-- The level that is resolved for a child of the group. -/
def levelFor : PriorityStep → Option ℤ
  | .event env a now resolution =>
    if (persistEvent env a now b.rows).2.group = some n then resolution.priority.map (·.level)
    else none
  | _ => none

/-- The levels that a run resolves for the children of the group. -/
def levels (n : ℕ) : Triage → List PriorityStep → List ℤ
  | _, [] => []
  | b, l :: ls => (b.levelFor n l).toList ++ levels n (b.next l) ls

/-- No operator sets or resets the priority of the group. -/
def NoOperator : PriorityStep → Prop
  | .setPriority m _ => m ≠ n
  | .resetPriority m _ => m ≠ n
  | _ => True

/-- Events of the group come in raise-only mode. -/
def RaiseOnly : PriorityStep → Prop
  | .event env a now resolution =>
    (persistEvent env a now b.rows).2.group = some n → resolution.updateMode = .raiseOnly
  | l => NoOperator n l

/-- An event that is taken for another one does not bring a more urgent priority, and none that
is taken in comes to a group of level 0, but for those outside of 1 to 998. -/
def Heeded : PriorityStep → Prop
  | .event env a now resolution => (persistEvent env a now b.rows).2.group = some n →
      ∀ priority ∈ resolution.priority,
        if takenForConcurrent env a now b.rows then (b.groups n).priorityOrder ≤ priority.level
        else ¬((b.groups n).priorityOrder = 0 ∧ 0 < priority.level ∧ priority.level < 999)
  | _ => True

end Triage

section Steps

variable {b : Triage} {n : ℕ} {l : PriorityStep}

/-- A write to the row of a group leaves the priorities alone. -/
theorem onGroup_keeps {m : ℕ} {write : AlertGroup → Store}
    (hwrite : ∀ g, (write g).groupIds = b.rows.groupIds) :
    (b.onGroup m write).rows.groupIds = b.rows.groupIds ∧ (b.onGroup m write).groups = b.groups := by
  unfold Triage.onGroup
  split
  · exact ⟨rfl, rfl⟩
  · exact ⟨hwrite _, rfl⟩

/-- The calls of operators write the columns of their own group. -/
theorem setIncidentPriority_other {m : ℕ} (hm : m ≠ n) (slug : String) :
    ((setIncidentPriority b m slug).toOption.getD b).rows = b.rows ∧
      ((setIncidentPriority b m slug).toOption.getD b).groups n = b.groups n := by
  unfold setIncidentPriority
  cases b.getPriorityBySlug slug with
  | none => split_ifs <;> exact ⟨rfl, rfl⟩
  | some priority =>
    dsimp only
    split_ifs
    · exact ⟨rfl, rfl⟩
    · exact ⟨rfl, rfl⟩
    · exact ⟨rfl, rfl⟩
    · exact ⟨rfl, Function.update_of_ne hm.symm _ _⟩

/-- A reset concerns the priority of its own group. -/
theorem resetIncidentPriority_other {m : ℕ} (hm : m ≠ n) (automatic : Option IncidentPriority) :
    ((resetIncidentPriority b m automatic).toOption.getD b).rows = b.rows ∧
      ((resetIncidentPriority b m automatic).toOption.getD b).groups n = b.groups n := by
  unfold resetIncidentPriority
  cases automatic with
  | none => split_ifs <;> exact ⟨rfl, rfl⟩
  | some priority =>
    dsimp only
    split_ifs
    · exact ⟨rfl, rfl⟩
    · exact ⟨rfl, rfl⟩
    · exact ⟨rfl, Function.update_of_ne hm.symm _ _⟩

/-- Without an event and an operator the group keeps its priority. -/
theorem next_of_noOperator (hl : Triage.NoOperator n l) (hevent : l.isEvent = false) :
    (b.next l).rows.groupIds = b.rows.groupIds ∧ (b.next l).groups n = b.groups n := by
  have hrow : ∀ {m : ℕ} {write : AlertGroup → Store},
      (∀ g, (write g).groupIds = b.rows.groupIds) →
      (b.onGroup m write).rows.groupIds = b.rows.groupIds ∧
        (b.onGroup m write).groups n = b.groups n := fun hwrite =>
    ⟨(onGroup_keeps hwrite).1, congrFun (onGroup_keeps hwrite).2 n⟩
  -- only an operator on this group writes its level; recounting and saving keep it
  cases l with
  | event env a now resolution => cases hevent
  | recalculate m now =>
    exact hrow fun g => (works_recalculate (P := True) b.rows g now).groupIds
  | acknowledge m userId now => exact hrow fun g => saveGroup_groupIds b.rows _
  | resolve m userId now => exact hrow fun g => saveGroup_groupIds _ _
  | setPriority m slug =>
    obtain ⟨hrows, hgroup⟩ := setIncidentPriority_other (b := b) hl slug
    exact ⟨congrArg Store.groupIds hrows, hgroup⟩
  | resetPriority m automatic =>
    obtain ⟨hrows, hgroup⟩ := resetIncidentPriority_other (b := b) hl automatic
    exact ⟨congrArg Store.groupIds hrows, hgroup⟩
  | configure catalog => exact ⟨rfl, rfl⟩

/-- **A priority that an operator has set stays**, whatever the mode of the events. -/
theorem next_of_manual (hn : n ∈ b.rows.groupIds) (hmanual : (b.groups n).prioritySetManually = true)
    (hl : Triage.NoOperator n l) :
    n ∈ (b.next l).rows.groupIds ∧ (b.next l).groups n = b.groups n := by
  have hquiet : l.isEvent = false → n ∈ (b.next l).rows.groupIds ∧ (b.next l).groups n = b.groups n := by
    intro hevent
    obtain ⟨hids, hgroup⟩ := next_of_noOperator (b := b) hl hevent
    exact ⟨hids ▸ hn, hgroup⟩
  cases l with
  | event env a now resolution =>
    obtain ⟨hids, htaken⟩ := event_cases env a now resolution hn
    refine ⟨hids, ?_⟩
    cases htaken with
    | left houtcome hgroup => exact hgroup
    | applied houtcome htaken active hgroup =>
      exact hgroup.trans (apply_of_manual hmanual _ active resolution)
  | recalculate | acknowledge | resolve | setPriority | resetPriority | configure => exact hquiet rfl

/-- The group is there, and its priority is not set by an operator. -/
structure Managed (n : ℕ) (b : Triage) : Prop where
  known : n ∈ b.rows.groupIds
  automatic : (b.groups n).prioritySetManually = false

/-- An event raises the priority to what it resolves exactly when it is heeded. -/
theorem event_managed (h : Managed n b) {env : Services} {a : Arrival} {now : Instant}
    {resolution : PriorityResolution} (hl : b.RaiseOnly n (.event env a now resolution)) :
    Managed n (b.next (.event env a now resolution)) ∧
      (((b.next (.event env a now resolution)).groups n).priorityOrder =
        (b.levelFor n (.event env a now resolution)).toList.foldl min (b.groups n).priorityOrder ↔
      b.Heeded n (.event env a now resolution)) := by
  obtain ⟨hids, htaken⟩ := event_cases env a now resolution h.known
  have hnext : b.next (.event env a now resolution) = (persistPriority env a now resolution b).1 := rfl
  rw [hnext]
  unfold Triage.levelFor Triage.Heeded
  dsimp only
  cases htaken with
  -- the event leaves the level: right if it completes elsewhere, or brings no priority
  | left houtcome hgroup =>
    refine ⟨⟨hids, hgroup ▸ h.automatic⟩, ?_⟩
    rw [hgroup]
    by_cases hown : (persistEvent env a now b.rows).2.group = some n
    · rw [if_pos hown, houtcome hown]
      cases resolution.priority with
      | none => exact iff_of_true rfl nofun
      | some priority =>
        simp only [hown, Option.map_some, Option.toList_some, List.foldl_cons, List.foldl_nil,
          if_true, Option.mem_some, forall_eq', true_imp_iff]
        exact left_eq_inf
    · rw [if_neg hown]
      exact iff_of_true rfl fun h => absurd h hown
  -- it applies its priority, which then is at least as urgent
  | applied hown htaken active hgroup =>
    obtain ⟨horder, hauto⟩ := apply_raiseOnly h.automatic b.catalog active (hl hown)
    refine ⟨⟨hids, hgroup ▸ hauto⟩, ?_⟩
    rw [hgroup, horder, htaken, if_pos hown]
    cases resolution.priority with
    | none => exact iff_of_true rfl nofun
    | some priority =>
      simp only [hown, Option.map_some, Option.toList_some, List.foldl_cons, List.foldl_nil,
        Bool.false_eq_true, if_false, Option.mem_some, forall_eq', true_imp_iff]
      exact raisedOrder_eq_min_iff _ priority

/-- A step raises the priority to what it resolves exactly when it is heeded. -/
theorem next_managed (h : Managed n b) (hl : b.RaiseOnly n l) :
    Managed n (b.next l) ∧ (((b.next l).groups n).priorityOrder =
      (b.levelFor n l).toList.foldl min (b.groups n).priorityOrder ↔ b.Heeded n l) := by
  have hquiet : Triage.NoOperator n l → l.isEvent = false →
      Managed n (b.next l) ∧ ((b.next l).groups n).priorityOrder = (b.groups n).priorityOrder := by
    intro hoperator hevent
    obtain ⟨hids, hgroup⟩ := next_of_noOperator (b := b) hoperator hevent
    exact ⟨⟨hids ▸ h.known, hgroup ▸ h.automatic⟩, by rw [hgroup]⟩
  cases l with
  | event env a now resolution => exact event_managed h hl
  | recalculate | acknowledge | resolve | setPriority | resetPriority | configure =>
    obtain ⟨hmanaged, horder⟩ := hquiet hl rfl
    exact ⟨hmanaged, iff_of_true horder trivial⟩

end Steps

/-! ## Runs -/

section Runs

variable {n : ℕ} {b : Triage} {ls : List PriorityStep}

/-- The order of the group after a run. -/
def orderAfter (n : ℕ) (b : Triage) (ls : List PriorityStep) : ℤ :=
  ((ls.foldl Triage.next b).groups n).priorityOrder

/-- The most urgent level, of the group at first and of what is resolved for its children. -/
def mostUrgent (n : ℕ) (b : Triage) (ls : List PriorityStep) : ℤ :=
  (Triage.levels n b ls).foldl min (b.groups n).priorityOrder

/-- In every state of the run the group has the most urgent level, and never a less urgent one
than before. -/
structure PriorityKept (n : ℕ) (b : Triage) (ls : List PriorityStep) : Prop where
  monotone : ∀ first second rest, ls = first ++ second ++ rest →
    orderAfter n b (first ++ second) ≤ orderAfter n b first
  mostUrgent : ∀ first rest, ls = first ++ rest → orderAfter n b first = mostUrgent n b first

/-- The levels that a group was given in two runs, one after the other. -/
theorem levels_append (ls ms : List PriorityStep) :
    Triage.levels n b (ls ++ ms) = Triage.levels n b ls ++ Triage.levels n (ls.foldl Triage.next b) ms := by
  induction ls generalizing b with
  | nil => rfl
  | cons l ls ih =>
    show _ ++ Triage.levels n (b.next l) (ls ++ ms) = (_ ++ _) ++ _
    rw [ih, List.append_assoc]
    rfl

theorem foldl_min_le (start : ℤ) (levels : List ℤ) : levels.foldl min start ≤ start := by
  induction levels generalizing start with
  | nil => exact le_rfl
  | cons level levels ih => exact (ih _).trans (min_le_left _ _)

/-- After a heeded step the rest of the run starts with what is most urgent so far. -/
theorem mostUrgent_cons {l : PriorityStep} (h : ((b.next l).groups n).priorityOrder =
    (b.levelFor n l).toList.foldl min (b.groups n).priorityOrder) (ls : List PriorityStep) :
    mostUrgent n b (l :: ls) = mostUrgent n (b.next l) ls := by
  unfold mostUrgent
  rw [h, ← List.foldl_append]
  rfl

/-- By induction on the run: its first step is heeded when it gives the level it should. -/
theorem mostUrgent_iff (h : Managed n b) (hls : Along Triage.next (Triage.RaiseOnly · n) b ls) :
    (∀ first rest, ls = first ++ rest → orderAfter n b first = mostUrgent n b first) ↔
      Along Triage.next (Triage.Heeded · n) b ls := by
  -- by induction on the run, each step of which leaves the group managed
  induction ls generalizing b with
  | nil =>
    refine iff_of_true ?_ trivial
    intro first rest hsplit
    obtain ⟨rfl, -⟩ := List.append_eq_nil_iff.mp hsplit.symm
    rfl
  | cons l ls ih =>
    obtain ⟨hl, hrest⟩ := hls
    obtain ⟨hmanaged, hstep⟩ := next_managed h hl
    constructor
    · intro hurgent
      have hfirst : ((b.next l).groups n).priorityOrder =
          (b.levelFor n l).toList.foldl min (b.groups n).priorityOrder := by
        have hsingle := hurgent [l] ls rfl
        unfold mostUrgent Triage.levels at hsingle
        rwa [Triage.levels, List.append_nil] at hsingle
      refine ⟨hstep.mp hfirst, (ih hmanaged hrest).mp fun first rest hsplit => ?_⟩
      have hlonger := hurgent (l :: first) rest (by rw [hsplit, List.cons_append])
      rwa [mostUrgent_cons hfirst] at hlonger
    -- every prefix is empty or begins with the first step
    · rintro ⟨hheeded, htail⟩ first rest hsplit
      have hfirst := hstep.mpr hheeded
      cases first with
      | nil => rfl
      | cons m first =>
        obtain ⟨rfl, htailsplit⟩ := List.cons.inj hsplit
        rw [mostUrgent_cons hfirst]
        exact (ih hmanaged hrest).mpr htail first rest htailsplit

/-- The most urgent level never grows. -/
theorem priorityKept_of_mostUrgent
    (h : ∀ first rest, ls = first ++ rest → orderAfter n b first = mostUrgent n b first) :
    PriorityKept n b ls where
  monotone first second rest hsplit := by
    have hshort := h first (second ++ rest) (by rw [hsplit, List.append_assoc])
    rw [h (first ++ second) rest hsplit, hshort]
    unfold mostUrgent
    rw [levels_append, List.foldl_append]
    exact foldl_min_le _ _
  mostUrgent := h

/-- What an operator has set stays over a run, by induction on it. -/
theorem manual_kept (hn : n ∈ b.rows.groupIds) (hmanual : (b.groups n).prioritySetManually = true)
    (hls : ∀ l ∈ ls, Triage.NoOperator n l) : (ls.foldl Triage.next b).groups n = b.groups n := by
  induction ls generalizing b with
  | nil => rfl
  | cons l ls ih =>
    obtain ⟨hids, hgroup⟩ := next_of_manual hn hmanual (hls l List.mem_cons_self)
    have hrest := ih hids (hgroup ▸ hmanual) fun m hm => hls m (List.mem_cons_of_mem _ hm)
    exact hrest.trans hgroup

/-- **Over a run in raise-only mode a group has the most urgent of all levels exactly when every
event of its own is heeded; what an operator has set stays in any mode.** -/
theorem priority_kept_iff (hn : n ∈ b.rows.groupIds) (ls : List PriorityStep) :
    ((b.groups n).prioritySetManually = false → Along Triage.next (Triage.RaiseOnly · n) b ls →
      (PriorityKept n b ls ↔ Along Triage.next (Triage.Heeded · n) b ls)) ∧
    ((b.groups n).prioritySetManually = true → (∀ l ∈ ls, Triage.NoOperator n l) →
      ∀ first rest, ls = first ++ rest → (first.foldl Triage.next b).groups n = b.groups n) := by
  constructor
  · intro hauto hls
    have hiff := mostUrgent_iff ⟨hn, hauto⟩ hls
    exact ⟨fun hkept => hiff.mp hkept.mostUrgent, fun hheeded =>
      priorityKept_of_mostUrgent (hiff.mpr hheeded)⟩
  · intro hmanual hls first rest hsplit
    refine manual_kept hn hmanual fun l hl => hls l ?_
    rw [hsplit]
    exact List.mem_append_left _ hl

end Runs

/-! ## Two routes with one key -/

def criticalPriority : IncidentPriority := { id := 1, slug := "p1", level := 1, enabled := true }

def mediumPriority : IncidentPriority := { id := 3, slug := "p3", level := 3, enabled := true }

/-- The reopen rules are active, and the routes share their keys. -/
def keyedArrival (route : Route) : Arrival where
  alertData := [("source", .str "webhook"), ("title", .str "Disk full"), ("status", .str "firing"),
    ("dedup_key", .str "disk")]
  route := route
  service := none
  runtime := { groupingReopenWindowSeconds := 3600 }

def keyedEvent (route : Route) (now : Instant) (priority : IncidentPriority) : PriorityStep :=
  .event plainServices (keyedArrival route) now ⟨some priority, .raiseOnly⟩

/-- The alert of the first route is open when the second route gets the key too. -/
def bothRoutesOpen : Triage :=
  [keyedEvent opsRoute 0 mediumPriority, keyedEvent netRoute 60 mediumPriority].foldl Triage.next
    { rows := .empty, groups := fun _ => ⟨incidentPriorityCreateKwargs none, false⟩,
      alerts := fun _ => incidentPriorityCreateKwargs none, catalog := [] }

/-- **The critical event of the first route is dropped**: it is taken for one that another intake
has stored meanwhile. -/
theorem critical_event_dropped : ¬∀ (b : Triage) (n : ℕ) (ls : List PriorityStep),
    n ∈ b.rows.groupIds → (b.groups n).prioritySetManually = false →
    Along Triage.next (Triage.RaiseOnly · n) b ls → PriorityKept n b ls := by
  intro h
  have hkept := h bothRoutesOpen 1 [keyedEvent opsRoute 120 criticalPriority] (by decide +kernel)
    (by decide +kernel) ⟨fun _ => rfl, trivial⟩
  have hurgent := hkept.mostUrgent [keyedEvent opsRoute 120 criticalPriority] [] rfl
  exact absurd hurgent (by decide +kernel)

/-- The critical event of the second route is taken in. -/
theorem critical_heeded :
    bothRoutesOpen.Heeded 2 (keyedEvent netRoute 120 criticalPriority) := by
  rintro - priority hpriority
  obtain rfl : criticalPriority = priority := Option.some.inj hpriority
  show if takenForConcurrent plainServices (keyedArrival netRoute) 120 bothRoutesOpen.rows then _
    else ¬_
  decide +kernel

/-- The group of the second route has the most urgent level. -/
theorem priority_kept_sample :
    PriorityKept 2 bothRoutesOpen [keyedEvent netRoute 120 criticalPriority] :=
  ((priority_kept_iff (n := 2) (b := bothRoutesOpen) (by decide +kernel)
    [keyedEvent netRoute 120 criticalPriority]).1 (by decide +kernel) ⟨fun _ => rfl, trivial⟩).mpr
      ⟨critical_heeded, trivial⟩

end IncidentRelay.Alerts
