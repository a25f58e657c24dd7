import IncidentRelay.Escalation.Intake
import IncidentRelay.Escalation.Traversal
import IncidentRelay.Lib.Run

/-!
# Suppressed events and the signals of their group

Orchestration decides for single events, but what it switches off belongs to the
group: the last event that is written decides whether the group is suppressed.

 * `receive_suppressed`: a suppressed event mutes the group, with all its children.
 * `announced_receive`: an unsuppressed one leaves a notification pending or sent
   wherever a child is live, and stays so until the next suppressed event.
 * `suppression_of_group`: the two over runs, and the escalation of a group that was
   never suppressed since it started.
-/

namespace IncidentRelay.Escalation

/-! ## The law -/

/-- A firing child that is not suppressed. -/
def ChildAlert.live (c : ChildAlert) : Bool :=
  c.status = .firing ∧ c.orchestrationSuppressed = false

/-- The policy has a rule for the group to go to. -/
def rulesLeft (db : Policies) (g : AlertGroup) : Bool :=
  (getNextRuleForAlert db g.place).1.isSome

/-- A notification is pending or was sent. -/
def Notified (g : AlertGroup) : Prop :=
  g.notificationPending = true ∨ g.lastNotificationAt ≠ none

/-- A next escalation is scheduled where the policy has rules left. -/
def Escalates (db : Policies) (g : AlertGroup) : Prop :=
  rulesLeft db g = true → g.nextEscalationAt ≠ none

/-- A group with a live child is notified. -/
def Announced (s : Option GroupState) : Prop :=
  ∀ g ∈ s, g.children.any ChildAlert.live = true → Notified g.group

/-- An open group escalates. -/
def Climbs (db : Policies) (s : Option GroupState) : Prop :=
  ∀ g ∈ s, g.group.status ≠ .resolved → Escalates db g.group

/-- A group with a live child is notified and escalates. -/
def Heard (db : Policies) (s : Option GroupState) : Prop :=
  ∀ g ∈ s, g.children.any ChildAlert.live = true → Notified g.group ∧ Escalates db g.group

/-- No notification is pending and no escalation is scheduled. -/
def Muted (g : AlertGroup) : Prop :=
  g.notificationPending = false ∧ g.nextEscalationAt = none

/-- There is no group yet, or it is resolved. -/
def Closed (s : Option GroupState) : Prop := ∀ g ∈ s, g.group.status = .resolved

/-- The event is written to the open group. -/
def Arrival.writes (a : Arrival) (s : GroupState) : Bool :=
  s.children.any a.hits || (!a.resolved && s.group.status ≠ .resolved)

/-- Nothing but orchestration keeps the group quiet, and a due notification has a
delivery target. -/
def Undisturbed : Step → Prop
  | .event a => a.t.Quiet
  | .deliver t _ => t.Quiet ∧ t.notify "notification" ≠ some 0
  | .remind t => t.Quiet

def Processed : Step → Prop
  | .event a => a.suppressed = false
  | .deliver _ _ | .remind _ => True

/-! ## The columns -/

/-- What the notification work leaves. -/
structure SameCourse (g g' : AlertGroup) : Prop where
  status : g'.status = g.status
  mergedInto : g'.mergedInto = g.mergedInto
  maintenance : g'.maintenanceSuppressed = g.maintenanceSuppressed
  place : g'.place = g.place
  next : g'.nextEscalationAt = g.nextEscalationAt

theorem SameCourse.rfl (g : AlertGroup) : SameCourse g g := by
  constructor <;> exact Eq.refl _

section Columns

variable {db : Policies} {t : Tick} {g : AlertGroup}

theorem sameCourse_clear (now : Instant) (g : AlertGroup) :
    SameCourse g (clearAlertGroupNotification now g) := by
  constructor <;> exact Eq.refl _

/-- There is nothing to resume where nothing was suppressed. -/
theorem resume_quiet (hresumed : g.maintenanceSuppressed = false) :
    resumeNotificationLifecycle db t g = (g, false) := by
  unfold resumeNotificationLifecycle
  rw [hresumed]
  rfl

/-- Scheduling for a firing group that nothing else keeps quiet. -/
theorem schedule_spec (hquiet : t.Quiet) (hresumed : g.maintenanceSuppressed = false)
    (hfiring : g.status = .firing) (reason : String) :
    SameCourse g (scheduleGroupNotification db t reason g) ∧
      (scheduleGroupNotification db t reason g).notificationPending = true := by
  have hschedule : ∀ dueAt, SameCourse g (scheduleAlertGroupNotification t.now dueAt reason g) ∧
      (scheduleAlertGroupNotification t.now dueAt reason g).notificationPending = true := by
    intro dueAt
    unfold scheduleAlertGroupNotification
    split
    · rename_i hpending
      exact ⟨.rfl g, hpending.1⟩
    · exact ⟨by constructor <;> exact Eq.refl _, rfl⟩
  unfold scheduleGroupNotification
  rw [hquiet.shelved, hquiet.suppressed, resume_quiet hresumed]
  dsimp only
  rw [if_neg Bool.false_ne_true, if_neg Bool.false_ne_true, if_neg (not_not_intro hfiring)]
  exact hschedule _

/-- A policy that gives no first rule has none left. -/
theorem rulesLeft_resolvePolicyAssignment {a : Arrival} (hquiet : a.t.Quiet)
    (hsuppressed : a.suppressed = false)
    (hnext : (resolvePolicyAssignment db a g).nextEscalationAt = none) :
    rulesLeft db (resolvePolicyAssignment db a g) = false := by
  unfold resolvePolicyAssignment at hnext ⊢
  rw [hquiet.paused, hsuppressed] at hnext ⊢
  simp only [Bool.or_self, Bool.false_eq_true, if_false] at hnext ⊢
  -- without a policy there are no rules
  cases hpolicy : a.policy.bind (findPolicy db) with
  | none =>
    rfl
  | some policy =>
    rw [hpolicy] at hnext
    dsimp only at hnext ⊢
    have hfound : findPolicy db policy.id = some policy := by
      obtain ⟨id, -, hid⟩ := Option.bind_eq_some_iff.mp hpolicy
      have hkey : policy.id = id := by simpa using List.find?_some hid
      rw [hkey]
      exact hid
    unfold applyInitialEscalationPolicyAssignment at hnext ⊢
    dsimp only at hnext ⊢
    -- the first rule, if there is one, gives a time
    cases hfirst : getFirstEnabledRule db policy with
    | some rule =>
      rw [hfirst] at hnext
      cases hnext
    | none =>
      unfold getFirstEnabledRule at hfirst
      unfold rulesLeft getNextRuleForAlert AlertGroup.place
      simp only [Option.bind_some, hfound]
      -- and if there is none, no rule is left
      by_cases henabled : policy.enabled = true
      · rw [if_pos henabled] at hfirst ⊢
        rw [List.head?_eq_none_iff.mp hfirst]
        rfl
      · rw [if_neg henabled]
        rfl

end Columns

/-! ## Groups nobody has acknowledged -/

/-- The statuses of a group without operators and without windows. -/
structure Plain (s : GroupState) : Prop where
  resumed : s.group.maintenanceSuppressed = false
  unmerged : s.group.mergedInto = none
  unacknowledged : s.group.status ≠ .acknowledged
  children : ∀ c ∈ s.children,
    c.status = .firing ∨ c.status = .silenced ∨ c.status = .resolved
  firing : s.children.any (·.status = .firing) = true → s.group.status = .firing
  resolved : s.group.status = .resolved → ∀ c ∈ s.children, c.status = .resolved

section Statuses

variable {children : List ChildAlert} {previous : GroupStatus}

/-- A live child is a firing one. -/
theorem any_firing_of_live (h : children.any ChildAlert.live = true) :
    children.any (·.status = .firing) = true := by
  obtain ⟨c, hc, hlive⟩ := List.any_eq_true.mp h
  unfold ChildAlert.live at hlive
  rw [decide_eq_true_eq] at hlive
  exact List.any_eq_true.mpr ⟨c, hc, by simp [hlive.1]⟩

/-- With a firing child the group fires, unless it was acknowledged. -/
theorem recalculatedStatus_firing (hprevious : previous ≠ .acknowledged)
    (h : children.any (·.status = .firing) = true) :
    recalculatedStatus children previous = .firing := by
  obtain ⟨c, hc, hfiring⟩ := List.any_eq_true.mp h
  have hne : children ≠ [] := List.ne_nil_of_mem hc
  have hall : ¬ children.all (·.status = .resolved) = true := by
    intro hall
    have hresolved := List.all_eq_true.mp hall c hc
    rw [decide_eq_true_eq] at hfiring hresolved
    rw [hfiring] at hresolved
    cases hresolved
  unfold recalculatedStatus
  rw [if_neg hne, if_neg hall, if_pos h, if_neg hprevious]

/-- Without acknowledged children the status is one of three, and says which. -/
theorem recalculatedStatus_plain (hprevious : previous ≠ .acknowledged)
    (hchildren : ∀ c ∈ children,
      c.status = .firing ∨ c.status = .silenced ∨ c.status = .resolved) :
    recalculatedStatus children previous ≠ .acknowledged ∧
      (recalculatedStatus children previous = .resolved →
        ∀ c ∈ children, c.status = .resolved) := by
  by_cases hfiring : children.any (·.status = .firing) = true
  · rw [recalculatedStatus_firing hprevious hfiring]
    exact ⟨by decide, fun h => by cases h⟩
  · unfold recalculatedStatus
    by_cases hempty : children = []
    · rw [if_pos hempty]
      exact ⟨hprevious, fun _ c hc => by simp [hempty] at hc⟩
    rw [if_neg hempty]
    by_cases hall : children.all (·.status = .resolved) = true
    · rw [if_pos hall]
      exact ⟨by decide, fun _ c hc => by simpa using List.all_eq_true.mp hall c hc⟩
    · rw [if_neg hall, if_neg hfiring]
      -- a child that is neither firing nor resolved is silenced
      have hsilenced : children.any (·.status = .silenced) = true := by
        rw [List.all_eq_true] at hall
        push Not at hall
        obtain ⟨c, hc, hnot⟩ := hall
        rw [ne_eq, decide_eq_true_eq] at hnot
        refine List.any_eq_true.mpr ⟨c, hc, ?_⟩
        rcases hchildren c hc with h | h | h
        · exact absurd (List.any_eq_true.mpr ⟨c, hc, by simp [h]⟩) hfiring
        · simp [h]
        · exact absurd h hnot
      rw [if_pos hsilenced]
      exact ⟨by decide, fun h => by cases h⟩

end Statuses

/-! ## Events -/

section Events

variable {db : Policies} {a : Arrival} {s : GroupState}

/-- The group after the marks of an event and the recalculation. -/
def marked (a : Arrival) (s : GroupState) (children : List ChildAlert) : AlertGroup :=
  recalculateAlertGroup a.t.now children (markSuppressed a s).group

theorem marked_place (children : List ChildAlert) : (marked a s children).place = s.group.place := by
  unfold marked markSuppressed
  cases a.suppressed <;> rfl

theorem marked_resumed (hs : Plain s) (children : List ChildAlert) :
    (marked a s children).maintenanceSuppressed = false ∧
      (marked a s children).mergedInto = none := by
  rw [← hs.resumed, ← hs.unmerged]
  unfold marked markSuppressed
  cases a.suppressed <;> exact ⟨rfl, rfl⟩

theorem marked_status (children : List ChildAlert) :
    (marked a s children).status = recalculatedStatus children s.group.status := by
  unfold marked markSuppressed
  cases a.suppressed <;> rfl

/-- An event that is not suppressed keeps the columns it does not schedule. -/
theorem marked_unsuppressed (hsuppressed : a.suppressed = false) (children : List ChildAlert) :
    (marked a s children).nextEscalationAt = s.group.nextEscalationAt ∧
      (marked a s children).lastNotificationAt = s.group.lastNotificationAt ∧
      (marked a s children).notificationPending = s.group.notificationPending := by
  unfold marked markSuppressed
  rw [hsuppressed]
  exact ⟨rfl, rfl, rfl⟩

/-- The group of an existing child. -/
theorem handleExisting_group :
    (handleExistingAlert db a s).group = signalExisting db a s.group.status
      (marked a s (s.children.map fun c => if a.hits c then updateAlertFromPayload a c else c)) :=
  rfl

theorem addChild_group (reason : String) :
    (addChild db a reason s).group =
      signalNew db a reason (marked a s (s.children ++ [⟨a.dedupKey, a.newStatus, a.suppressed⟩])) :=
  rfl

/-- An event that is suppressed mutes the group. -/
theorem muted_clear_marked (hsuppressed : a.suppressed = true) (children : List ChildAlert) :
    Muted (clearAlertGroupNotification a.t.now (marked a s children)) := by
  refine ⟨rfl, ?_⟩
  unfold marked markSuppressed
  rw [hsuppressed]
  rfl

/-- **A suppressed event mutes the group**, whatever its other children. -/
theorem receive_suppressed (hsuppressed : a.suppressed = true) (hwrites : a.writes s = true) :
    ∀ g ∈ receive db a (some s), g.orchestrationSuppressed = true ∧ Muted g.group := by
  intro g hg
  obtain rfl := Option.some.inj hg
  by_cases hhits : s.children.any a.hits = true
  · rw [if_pos hhits]
    refine ⟨hsuppressed, ?_⟩
    rw [handleExisting_group]
    unfold signalExisting
    rw [if_pos hsuppressed]
    exact muted_clear_marked hsuppressed _
  · rw [if_neg hhits]
    -- the event is written as a new child of an open group
    unfold Arrival.writes at hwrites
    have hopen := (Bool.or_eq_true _ _ ▸ hwrites).resolve_left hhits
    rw [Bool.and_eq_true, Bool.not_eq_true', decide_eq_true_eq] at hopen
    rw [if_neg (by simp [hopen.1]), if_neg hopen.2]
    refine ⟨hsuppressed, ?_⟩
    rw [addChild_group]
    unfold signalNew
    rw [if_pos hsuppressed]
    exact muted_clear_marked hsuppressed _

/-- An event of an open child schedules the notification of a group that stays firing. -/
theorem announced_handleExisting (hquiet : a.t.Quiet) (hs : Plain s)
    (hprocessed : a.suppressed = false) :
    Announced (some (handleExistingAlert db a s)) := by
  intro g hg hlive
  obtain rfl := Option.some.inj hg
  set children := s.children.map fun c => if a.hits c then updateAlertFromPayload a c else c
    with hchildren
  have hfiring : (marked a s children).status = .firing := by
    rw [marked_status]
    exact recalculatedStatus_firing hs.unacknowledged (any_firing_of_live hlive)
  rw [handleExisting_group, ← hchildren]
  unfold signalExisting
  rw [if_neg (by simp [hprocessed]), if_neg (by simp [hfiring]), if_pos hfiring]
  exact .inl (@schedule_spec db a.t _ hquiet (marked_resumed hs children).1 hfiring "update").2

/-- So does a new child that fires; a silenced one changes nothing. -/
theorem announced_addChild (hquiet : a.t.Quiet) (hs : Plain s) (hprocessed : a.suppressed = false)
    (hbefore : a.silenced = true → Announced (some s)) (reason : String) :
    Announced (some (addChild db a reason s)) := by
  intro g hg hlive
  obtain rfl := Option.some.inj hg
  set children := s.children ++ [⟨a.dedupKey, a.newStatus, a.suppressed⟩] with hchildren
  have hlive : children.any ChildAlert.live = true := hlive
  have hfiring : (marked a s children).status = .firing := by
    rw [marked_status]
    exact recalculatedStatus_firing hs.unacknowledged (any_firing_of_live hlive)
  rw [addChild_group, ← hchildren]
  unfold signalNew
  rw [if_neg (by simp [hprocessed])]
  cases hsilenced : a.silenced with
  | false =>
    rw [if_pos (by simp [Arrival.newStatus, hsilenced, hfiring])]
    exact .inl (@schedule_spec db a.t _ hquiet (marked_resumed hs children).1 hfiring reason).2
  | true =>
    rw [if_neg (by simp [Arrival.newStatus, hsilenced]), if_neg (not_not_intro hfiring)]
    -- the live child is one that the group had
    have hold : s.children.any ChildAlert.live = true := by
      rw [hchildren, List.any_append, Bool.or_eq_true] at hlive
      exact hlive.resolve_right (by simp [ChildAlert.live, Arrival.newStatus, hsilenced])
    obtain ⟨-, hlast, hpending⟩ := marked_unsuppressed (s := s) hprocessed children
    have hnotified := hbefore hsilenced s rfl hold
    unfold Notified at hnotified ⊢
    rwa [hlast, hpending]

/-- The first assignment writes the escalation only. -/
theorem resolvePolicyAssignment_keeps (g : AlertGroup) :
    (resolvePolicyAssignment db a g).status = g.status ∧
      (resolvePolicyAssignment db a g).mergedInto = g.mergedInto ∧
      (resolvePolicyAssignment db a g).maintenanceSuppressed = g.maintenanceSuppressed := by
  unfold resolvePolicyAssignment
  dsimp only
  cases a.policy.bind (findPolicy db) with
  | none => split <;> exact ⟨rfl, rfl, rfl⟩
  | some policy =>
    unfold applyInitialEscalationPolicyAssignment
    dsimp only
    cases getFirstEnabledRule db policy <;> split <;> exact ⟨rfl, rfl, rfl⟩

/-- A new group is plain. -/
theorem plain_createGroup : Plain ⟨createGroup db a, a.suppressed, []⟩ where
  resumed := (resolvePolicyAssignment_keeps _).2.2
  unmerged := (resolvePolicyAssignment_keeps _).2.1
  unacknowledged := by
    unfold createGroup
    rw [(resolvePolicyAssignment_keeps _).1]
    unfold Arrival.newStatus
    split <;> exact fun h => by cases h
  children := by simp
  firing := by simp
  resolved := by simp

theorem plain_restart (hs : Plain s) :
    Plain { s with group := restartResolvedGroup db a s.group } where
  resumed := (resolvePolicyAssignment_keeps _).2.2.trans hs.resumed
  unmerged := (resolvePolicyAssignment_keeps _).2.1.trans hs.unmerged
  unacknowledged := by simp [restartResolvedGroup]
  children := hs.children
  firing := fun _ => rfl
  resolved := fun h => by cases h

/-- **Step lemma.** An unsuppressed event leaves the group notified: one that fires
makes it so. -/
theorem announced_receive (hquiet : a.t.Quiet) (hprocessed : a.suppressed = false)
    {o : Option GroupState} (hs : ∀ s ∈ o, Plain s)
    (h : Announced o ∨ ∃ s ∈ o, a.writes s = true ∧ a.silenced = false) :
    Announced (receive db a o) := by
  cases o with
  | none =>
    unfold receive
    dsimp only
    split
    · simp [Announced]
    · refine announced_addChild hquiet plain_createGroup hprocessed (fun _ g hg hlive => ?_) _
      obtain rfl := Option.some.inj hg
      exact Bool.noConfusion hlive
  | some s =>
    have hplain := hs s rfl
    have hbefore : a.silenced = true → Announced (some s) := by
      intro hsilenced
      refine h.resolve_right ?_
      rintro ⟨_, _, _, hloud⟩
      rw [hsilenced] at hloud
      exact Bool.noConfusion hloud
    unfold receive
    dsimp only
    by_cases hhits : s.children.any a.hits = true
    · rw [if_pos hhits]
      exact announced_handleExisting hquiet hplain hprocessed
    · rw [if_neg hhits]
      have hkept : (a.resolved = true ∨ s.group.status = .resolved) → Announced (some s) := by
        intro hclosed
        refine h.resolve_right ?_
        rintro ⟨s', hs', hwrites, -⟩
        obtain rfl := Option.some.inj hs'
        unfold Arrival.writes at hwrites
        rcases hclosed with hclosed | hclosed <;> simp [hhits, hclosed] at hwrites
      by_cases hresolved : a.resolved = true
      · rw [if_pos hresolved]
        exact hkept (.inl hresolved)
      · rw [if_neg hresolved]
        by_cases hclosed : s.group.status = .resolved
        · rw [if_pos hclosed]
          split
          · refine announced_addChild hquiet (plain_restart hplain) hprocessed
              (fun _ g hg hlive => ?_) _
            -- the children of a resolved group are resolved
            obtain rfl := Option.some.inj hg
            obtain ⟨c, hc, hfires⟩ := List.any_eq_true.mp hlive
            simp [ChildAlert.live, hplain.resolved hclosed c hc] at hfires
          · exact hkept (.inr hclosed)
        · rw [if_neg hclosed]
          exact announced_addChild hquiet hplain hprocessed hbefore _

/-- The notification work of an event. -/
theorem sameCourse_signalExisting (hquiet : a.t.Quiet) {g : AlertGroup} {old : GroupStatus}
    (hresumed : g.maintenanceSuppressed = false) : SameCourse g (signalExisting db a old g) := by
  unfold signalExisting
  split
  · exact sameCourse_clear _ g
  · split
    · split
      · split
        · exact .rfl g
        · constructor <;> exact Eq.refl _
      · unfold notifyResolved notified
        split
        · split <;> (constructor <;> exact Eq.refl _)
        · exact sameCourse_clear _ g
    · split
      · rename_i hfiring
        exact (@schedule_spec db a.t g hquiet hresumed hfiring "update").1
      · exact .rfl g

/-- Signalling a child leaves the course. -/
theorem sameCourse_signalNew (hquiet : a.t.Quiet) {g : AlertGroup} (reason : String)
    (hresumed : g.maintenanceSuppressed = false) : SameCourse g (signalNew db a reason g) := by
  unfold signalNew
  split
  · exact sameCourse_clear _ g
  · split
    · rename_i hboth
      rw [Bool.and_eq_true, decide_eq_true_eq, decide_eq_true_eq] at hboth
      exact (@schedule_spec db a.t g hquiet hresumed hboth.2 reason).1
    · split
      · exact sameCourse_clear _ g
      · exact .rfl g

/-- A group with recalculated children. -/
theorem plain_recalculated (hs : Plain s) {children : List ChildAlert} {g : AlertGroup}
    (suppressed : Bool)
    (hchildren : ∀ c ∈ children,
      c.status = .firing ∨ c.status = .silenced ∨ c.status = .resolved)
    (hstatus : g.status = recalculatedStatus children s.group.status)
    (hmerged : g.mergedInto = none) (hresumed : g.maintenanceSuppressed = false) :
    Plain ⟨g, suppressed, children⟩ where
  resumed := hresumed
  unmerged := hmerged
  unacknowledged := by
    rw [hstatus]
    exact (recalculatedStatus_plain hs.unacknowledged hchildren).1
  children := hchildren
  firing := fun h => hstatus.trans (recalculatedStatus_firing hs.unacknowledged h)
  resolved := by
    rw [hstatus]
    exact (recalculatedStatus_plain hs.unacknowledged hchildren).2

/-- What is known already keeps the group plain. -/
theorem plain_handleExisting (hquiet : a.t.Quiet) (hs : Plain s) :
    Plain (handleExistingAlert db a s) := by
  obtain ⟨hresumed, hmerged⟩ := marked_resumed (a := a) hs
    (s.children.map fun c => if a.hits c then updateAlertFromPayload a c else c)
  have hsame := @sameCourse_signalExisting db a hquiet _ s.group.status hresumed
  refine plain_recalculated hs _ ?_ (hsame.status.trans (marked_status _))
    (hsame.mergedInto.trans hmerged) (hsame.maintenance.trans hresumed)
  intro c hc
  obtain ⟨c₀, hc₀, rfl⟩ := List.mem_map.mp hc
  split
  · -- an updated child is resolved, silenced as before or firing
    unfold updateAlertFromPayload
    dsimp only
    split
    · exact .inr (.inr rfl)
    · split
      · exact hs.children c₀ hc₀
      · exact .inl rfl
  · exact hs.children c₀ hc₀

theorem plain_addChild (hquiet : a.t.Quiet) (hs : Plain s) (reason : String) :
    Plain (addChild db a reason s) := by
  obtain ⟨hresumed, hmerged⟩ := marked_resumed (a := a) hs
    (s.children ++ [⟨a.dedupKey, a.newStatus, a.suppressed⟩])
  have hsame := @sameCourse_signalNew db a hquiet _ reason hresumed
  refine plain_recalculated hs _ ?_ (hsame.status.trans (marked_status _))
    (hsame.mergedInto.trans hmerged) (hsame.maintenance.trans hresumed)
  intro c hc
  rcases List.mem_append.mp hc with hc | hc
  · exact hs.children c hc
  · rw [List.mem_singleton.mp hc]
    show a.newStatus = _ ∨ a.newStatus = _ ∨ _
    unfold Arrival.newStatus
    split <;> simp

/-- **Every event keeps the group plain.** -/
theorem plain_receive (hquiet : a.t.Quiet) {o : Option GroupState} (hs : ∀ s ∈ o, Plain s) :
    ∀ s ∈ receive db a o, Plain s := by
  -- the event opens a group, or falls into one
  cases o with
  | none =>
    unfold receive
    dsimp only
    split
    · simp
    · intro s hmem
      obtain rfl := Option.some.inj hmem
      exact plain_addChild hquiet plain_createGroup _
  | some s =>
    have hplain := hs s rfl
    intro s' hmem
    obtain rfl := Option.some.inj hmem
    split
    · exact plain_handleExisting hquiet hplain
    · split
      · exact hplain
      · split
        · split
          · exact plain_addChild hquiet (plain_restart hplain) _
          · exact hplain
        · exact plain_addChild hquiet hplain _

/-! ### The escalation -/

/-- An unsuppressed event keeps the place of the group and its next escalation. -/
theorem escalates_marked (hprocessed : a.suppressed = false) {children : List ChildAlert}
    {g : AlertGroup} (hsame : SameCourse (marked a s children) g) (h : Escalates db s.group) :
    Escalates db g := by
  unfold Escalates rulesLeft at h ⊢
  rw [hsame.place, hsame.next, marked_place, (marked_unsuppressed hprocessed children).1]
  exact h

/-- An event that starts a group schedules its escalation. -/
theorem escalates_start (hquiet : a.t.Quiet) (hprocessed : a.suppressed = false)
    (g : AlertGroup) : Escalates db (resolvePolicyAssignment db a g) := by
  intro hrules hnext
  rw [rulesLeft_resolvePolicyAssignment hquiet hprocessed hnext] at hrules
  exact Bool.noConfusion hrules

/-- An event that is not suppressed leaves the escalation scheduled. -/
theorem escalates_addChild (hquiet : a.t.Quiet) (hprocessed : a.suppressed = false)
    (hs : Plain s) (h : Escalates db s.group) (reason : String) :
    Escalates db (addChild db a reason s).group :=
  escalates_marked hprocessed
    (sameCourse_signalNew hquiet reason (marked_resumed hs _).1) h

/-- **Step lemma.** Without suppressed events an open group escalates. -/
theorem climbs_receive (hquiet : a.t.Quiet) (hprocessed : a.suppressed = false)
    {o : Option GroupState} (hs : ∀ s ∈ o, Plain s) (h : Climbs db o) :
    Climbs db (receive db a o) := by
  cases o with
  | none =>
    unfold receive
    dsimp only
    split
    · simp [Climbs]
    · intro g hg _
      obtain rfl := Option.some.inj hg
      exact escalates_addChild hquiet hprocessed plain_createGroup
        (escalates_start hquiet hprocessed _) _
  | some s =>
    have hplain := hs s rfl
    unfold receive
    dsimp only
    intro g hg hopen
    obtain rfl := Option.some.inj hg
    by_cases hhits : s.children.any a.hits = true
    · rw [if_pos hhits]
      refine escalates_marked hprocessed
        (sameCourse_signalExisting hquiet (marked_resumed hplain _).1) (h s rfl ?_)
      -- a resolved group has no open child
      intro hclosed
      obtain ⟨c, hc, hhit⟩ := List.any_eq_true.mp hhits
      simp [Arrival.hits, hplain.resolved hclosed c hc] at hhit
    · rw [if_neg hhits] at hopen ⊢
      by_cases hresolved : a.resolved = true
      · rw [if_pos hresolved] at hopen ⊢
        exact h s rfl hopen
      · rw [if_neg hresolved] at hopen ⊢
        by_cases hclosed : s.group.status = .resolved
        · rw [if_pos hclosed] at hopen ⊢
          split
          · exact escalates_addChild hquiet hprocessed (plain_restart hplain)
              (escalates_start hquiet hprocessed _) _
          · rename_i hreopens
            rw [if_neg hreopens] at hopen
            exact absurd hclosed hopen
        · rw [if_neg hclosed]
          exact escalates_addChild hquiet hprocessed hplain (h s rfl hclosed) _

end Events

/-! ## Deliveries and reminders -/

/-- What the reminder job keeps of a group. -/
structure Kept (g g' : AlertGroup) : Prop where
  status : g'.status = g.status
  mergedInto : g'.mergedInto = g.mergedInto
  maintenance : g'.maintenanceSuppressed = g.maintenanceSuppressed
  policy : g'.escalationPolicy = g.escalationPolicy
  pending : g'.notificationPending = g.notificationPending
  last : g.lastNotificationAt ≠ none → g'.lastNotificationAt ≠ none

theorem Kept.rfl (g : AlertGroup) : Kept g g :=
  ⟨Eq.refl _, Eq.refl _, Eq.refl _, Eq.refl _, Eq.refl _, id⟩

theorem Kept.trans {g g' g'' : AlertGroup} (h : Kept g g') (h' : Kept g' g'') : Kept g g'' where
  status := h'.status.trans h.status
  mergedInto := h'.mergedInto.trans h.mergedInto
  maintenance := h'.maintenance.trans h.maintenance
  policy := h'.policy.trans h.policy
  pending := h'.pending.trans h.pending
  last := fun hlast => h'.last (h.last hlast)

section Ticks

variable {db : Policies} {t : Tick}

theorem kept_withEvent (g : AlertGroup) (eventType message : String) :
    Kept g (g.withEvent eventType message) :=
  ⟨rfl, rfl, rfl, rfl, rfl, id⟩

theorem kept_notified (g : AlertGroup) (eventType : String) : Kept g (notified t eventType g) := by
  unfold notified
  split
  · exact ⟨rfl, rfl, rfl, rfl, rfl, fun _ => Option.some_ne_none _⟩
  · exact .rfl g

theorem kept_deliver (g : AlertGroup) : Kept g (deliverEscalationNotification t g) := by
  unfold deliverEscalationNotification
  split
  · exact kept_notified g "escalation"
  · split <;> exact kept_withEvent g _ _

theorem kept_escalateTo (g : AlertGroup) (rule : Rule) (repeatCount : Int) :
    Kept g (escalateTo t rule repeatCount g) := by
  unfold escalateTo
  refine Kept.trans ?_ (kept_deliver _)
  exact ⟨rfl, rfl, rfl, rfl, rfl, id⟩

/-- An escalation keeps what the suppression is about. -/
theorem kept_maybeEscalate (hquiet : t.Quiet) {g : AlertGroup}
    (hresumed : g.maintenanceSuppressed = false) : Kept g (maybeEscalateAlert db t g).1 := by
  -- the tick has nothing to suppress, so it escalates by the policy or by the team
  unfold maybeEscalateAlert
  rw [hquiet.suppressed, hquiet.paused, resume_quiet hresumed]
  dsimp only
  rw [if_neg Bool.false_ne_true, if_neg Bool.false_ne_true]
  split
  · unfold maybeEscalateAlertByPolicy
    rw [hquiet.suppressed, hquiet.paused, resume_quiet hresumed]
    dsimp only
    rw [if_neg Bool.false_ne_true, if_neg Bool.false_ne_true]
    split
    · exact .rfl g
    · split
      · exact .rfl g
      · split
        · exact .rfl g
        · split
          · exact ⟨rfl, rfl, rfl, rfl, rfl, id⟩
          · exact kept_escalateTo g _ _
  · unfold maybeEscalateAlertByTeam
    split
    · exact .rfl g
    · split
      · exact .rfl g
      · split
        · exact .rfl g
        · split
          · exact .rfl g
          · refine Kept.trans ?_ (kept_deliver _)
            exact ⟨rfl, rfl, rfl, rfl, rfl, id⟩

/-- A reminder keeps it. -/
theorem kept_sendReminder (g : AlertGroup) : Kept g (sendReminder t g).1 := by
  unfold sendReminder
  split
  · have hnotified := kept_notified (t := t) g "reminder"
    refine hnotified.trans ?_
    exact ⟨rfl, rfl, rfl, rfl, rfl, fun _ => Option.some_ne_none _⟩
  · exact .rfl g

theorem kept_remind (hquiet : t.Quiet) {g : AlertGroup}
    (hresumed : g.maintenanceSuppressed = false) : Kept g (remind db t g).1 := by
  unfold remind
  split
  · exact .rfl g
  · dsimp only
    split
    · exact .rfl g
    · have hescalated := @kept_maybeEscalate db t hquiet g hresumed
      split
      · rcases hresult : maybeEscalateAlert db t g with ⟨after, escalated⟩
        rw [hresult] at hescalated
        cases escalated with
        | true => exact hescalated
        | false => exact hescalated.trans (kept_sendReminder after)
      · exact kept_sendReminder g

theorem kept_sendUnackedReminders (hquiet : t.Quiet) {g : AlertGroup}
    (hresumed : g.maintenanceSuppressed = false) : Kept g (sendUnackedReminders db t g).1 := by
  unfold sendUnackedReminders
  split
  · exact .rfl g
  · rw [hquiet.shelved, hquiet.suppressed, resume_quiet hresumed]
    dsimp only
    rw [if_neg Bool.false_ne_true, if_neg Bool.false_ne_true]
    -- an escalation is as it was kept; a reminder writes only its own columns
    split
    · have hescalated := @kept_maybeEscalate db t hquiet g hresumed
      rcases hresult : maybeEscalateAlert db t g with ⟨after, escalated⟩
      rw [hresult] at hescalated
      cases escalated with
      | true => exact hescalated
      | false =>
        dsimp only
        split
        · exact hescalated
        · exact hescalated.trans (kept_remind hquiet (hescalated.maintenance.trans hresumed))
    · exact kept_remind hquiet hresumed

/-- To be plain is a matter of three columns. -/
theorem Plain.columns {s : GroupState} (hs : Plain s) {g : AlertGroup}
    (hstatus : g.status = s.group.status) (hmerged : g.mergedInto = s.group.mergedInto)
    (hmaintenance : g.maintenanceSuppressed = s.group.maintenanceSuppressed) :
    Plain { s with group := g } where
  resumed := hmaintenance.trans hs.resumed
  unmerged := hmerged.trans hs.unmerged
  unacknowledged := hstatus ▸ hs.unacknowledged
  children := hs.children
  firing := fun hfiring => hstatus.trans (hs.firing hfiring)
  resolved := fun hresolved => hs.resolved (hstatus.symm.trans hresolved)

/-- The reminder job leaves an open group its escalation. -/
theorem escalates_remind (hquiet : t.Quiet) {s : GroupState} (hs : Plain s)
    (h : Escalates db s.group) : Escalates db (sendUnackedReminders db t s.group).1 := by
  by_cases hfiring : s.group.status = .firing
  · have hkept := @kept_sendUnackedReminders db t hquiet _ hs.resumed
    cases hpolicy : s.group.escalationPolicy with
    | none =>
      -- without a policy there are no rules
      have hnone : rulesLeft db (sendUnackedReminders db t s.group).1 = false := by
        unfold rulesLeft getNextRuleForAlert AlertGroup.place
        rw [hkept.policy, hpolicy]
        rfl
      intro hrules
      rw [hnone] at hrules
      exact Bool.noConfusion hrules
    | some policy =>
      have hcourse := @tick_course db t hquiet s.group hfiring hs.unmerged (by simp [hpolicy])
        hs.resumed
      have hplace : (sendUnackedReminders db t s.group).1.place =
          (s.group.course.tick db t.now).place := congrArg Course.place hcourse
      have hnext : (sendUnackedReminders db t s.group).1.nextEscalationAt =
          (s.group.course.tick db t.now).nextEscalationAt := congrArg Course.nextEscalationAt hcourse
      have hbefore : s.group.course.nextEscalationAt = s.group.nextEscalationAt := rfl
      unfold Escalates rulesLeft
      rw [hplace, hnext]
      unfold Course.tick
      rw [hbefore]
      cases hdue : s.group.nextEscalationAt with
      | none =>
        intro hrules
        exact absurd hdue (h hrules)
      | some due =>
        dsimp only
        split
        · intro _
          rw [hbefore, hdue]
          exact Option.some_ne_none due
        · split
          · rename_i repeatCount hstop
            -- the escalation stops where no rule is left
            intro hrules
            rw [show ({ s.group.course with nextEscalationAt := none } : Course).place =
              s.group.course.place from rfl, hstop] at hrules
            exact Bool.noConfusion hrules
          · exact fun _ => Option.some_ne_none _
  · have hskipped : sendUnackedReminders db t s.group = (s.group, false) := by
      unfold sendUnackedReminders
      rw [if_pos (.inl hfiring)]
    rw [hskipped]
    exact h

/-- What a delivery changes of a group: a due notification is sent, or there is no live
child to hear of. -/
theorem deliver_spec (hquiet : t.Quiet) (htarget : t.notify "notification" ≠ some 0)
    {nextRecovery : Option Instant} {s : GroupState} (hs : Plain s) :
    ∃ g, processDueNotification db t nextRecovery s = { s with group := g } ∧
      Plain { s with group := g } ∧ g.place = s.group.place ∧
      g.nextEscalationAt = s.group.nextEscalationAt ∧
      (s.group.status = .resolved → g.status = .resolved) ∧
      (s.children.any ChildAlert.live = true → Notified s.group → Notified g) := by
  have hcleared : Plain { s with group := clearAlertGroupNotification t.now s.group } :=
    hs.columns rfl rfl rfl
  -- a group that is not firing has no live child
  have hquieted : s.group.status ≠ .firing → s.children.any ChildAlert.live ≠ true :=
    fun hstatus hlive => hstatus (hs.firing (any_firing_of_live hlive))
  unfold processDueNotification
  dsimp only
  split
  · exact ⟨s.group, rfl, hs, rfl, rfl, id, fun _ h => h⟩
  · split
    · split
      · exact ⟨s.group, rfl, hs, rfl, rfl, id, fun _ h => h⟩
      · rename_i hresolved
        have hstatus : s.group.status ≠ .firing := by
          rw [not_not.mp hresolved]
          decide
        split
        · exact ⟨_, rfl, hs.columns rfl rfl rfl, rfl, rfl, id,
            fun hlive => absurd hlive (hquieted hstatus)⟩
        · exact ⟨_, rfl, hcleared, rfl, rfl, id, fun hlive => absurd hlive (hquieted hstatus)⟩
    · split
      · rename_i hstatus
        exact ⟨_, rfl, hcleared, rfl, rfl, id, fun hlive => absurd hlive (hquieted hstatus)⟩
      · -- the group is recalculated before the delivery
        rename_i hfiring
        have hplain : Plain { s with group := recalculateAlertGroup t.now s.children s.group } :=
          plain_recalculated hs _ hs.children rfl hs.unmerged hs.resumed
        have hopen : s.group.status = .resolved →
            (recalculateAlertGroup t.now s.children s.group).status = .resolved := by
          intro hresolved
          rw [hresolved] at hfiring
          exact absurd (by decide) hfiring
        rw [hquiet.shelved, hquiet.suppressed, resume_quiet hplain.resumed,
          if_neg Bool.false_ne_true, if_neg Bool.false_ne_true]
        dsimp only
        split
        · rename_i hstatus
          exact ⟨_, rfl, hplain.columns rfl rfl rfl, rfl, rfl, hopen,
            fun hlive => absurd (hplain.firing (any_firing_of_live hlive)) hstatus⟩
        · split
          · exact ⟨_, rfl, hplain, rfl, rfl, hopen, fun _ h => h⟩
          · rename_i hzero
            refine ⟨_, rfl, hplain.columns rfl rfl rfl, rfl, rfl, hopen, fun _ _ => .inr ?_⟩
            -- nothing was delivered, so it was not the first notification
            intro hnone
            apply htarget
            have hfirst : (recalculateAlertGroup t.now s.children s.group).lastNotificationAt =
                none := hnone
            rw [hfirst] at hzero
            exact hzero
          · exact ⟨_, rfl, hplain.columns rfl rfl rfl, rfl, rfl, hopen,
              fun _ _ => .inr (Option.some_ne_none _)⟩

end Ticks

/-! ## Runs -/

section Runs

variable {db : Policies} {s : Option GroupState} {l : Step}

/-- **Step lemma.** -/
theorem plain_step (hquiet : Undisturbed l) (hs : ∀ g ∈ s, Plain g) :
    ∀ g ∈ step db s l, Plain g := by
  cases l with
  | event a => exact plain_receive hquiet hs
  | deliver t nextRecovery =>
    intro g hg
    obtain ⟨g₀, hg₀, rfl⟩ := Option.map_eq_some_iff.mp hg
    obtain ⟨g', hg', hplain, -⟩ := @deliver_spec db t hquiet.1 hquiet.2 nextRecovery g₀ (hs g₀ hg₀)
    rw [hg']
    exact hplain
  | remind t =>
    intro g hg
    obtain ⟨g₀, hg₀, rfl⟩ := Option.map_eq_some_iff.mp hg
    have hkept := @kept_sendUnackedReminders db t hquiet _ (hs g₀ hg₀).resumed
    exact (hs g₀ hg₀).columns hkept.status hkept.mergedInto hkept.maintenance

/-- **Step lemma.** A step that suppresses nothing leaves the group notified. -/
theorem announced_step (hquiet : Undisturbed l) (hprocessed : Processed l)
    (hs : ∀ g ∈ s, Plain g) (h : Announced s) : Announced (step db s l) := by
  -- what is announced is the event, its delivery, or what a reminder keeps
  cases l with
  | event a => exact announced_receive hquiet hprocessed hs (.inl h)
  | deliver t nextRecovery =>
    intro g hg hlive
    obtain ⟨g₀, hg₀, rfl⟩ := Option.map_eq_some_iff.mp hg
    obtain ⟨g', hg', -, -, -, -, hnotified⟩ :=
      @deliver_spec db t hquiet.1 hquiet.2 nextRecovery g₀ (hs g₀ hg₀)
    rw [hg'] at hlive ⊢
    exact hnotified hlive (h g₀ hg₀ hlive)
  | remind t =>
    intro g hg hlive
    obtain ⟨g₀, hg₀, rfl⟩ := Option.map_eq_some_iff.mp hg
    have hkept := @kept_sendUnackedReminders db t hquiet _ (hs g₀ hg₀).resumed
    have hnotified := h g₀ hg₀ hlive
    unfold Notified at hnotified ⊢
    dsimp only
    rw [hkept.pending]
    exact hnotified.imp id hkept.last

/-- **Step lemma.** A step that suppresses nothing leaves an open group its escalation. -/
theorem climbs_step (hquiet : Undisturbed l) (hprocessed : Processed l)
    (hs : ∀ g ∈ s, Plain g) (h : Climbs db s) : Climbs db (step db s l) := by
  cases l with
  | event a => exact climbs_receive hquiet hprocessed hs h
  -- a delivery writes neither the place nor the time of the escalation
  | deliver t nextRecovery =>
    intro g hg hopen
    obtain ⟨g₀, hg₀, rfl⟩ := Option.map_eq_some_iff.mp hg
    obtain ⟨g', hg', -, hplace, hnext, hstatus, -⟩ :=
      @deliver_spec db t hquiet.1 hquiet.2 nextRecovery g₀ (hs g₀ hg₀)
    rw [hg'] at hopen ⊢
    have hbefore := h g₀ hg₀ (fun hresolved => hopen (hstatus hresolved))
    unfold Escalates rulesLeft at hbefore ⊢
    dsimp only
    rw [hplace, hnext]
    exact hbefore
  | remind t =>
    intro g hg hopen
    obtain ⟨g₀, hg₀, rfl⟩ := Option.map_eq_some_iff.mp hg
    have hkept := @kept_sendUnackedReminders db t hquiet _ (hs g₀ hg₀).resumed
    exact escalates_remind hquiet (hs g₀ hg₀)
      (h g₀ hg₀ fun hresolved => hopen (hkept.status.trans hresolved))

/-- **Run lemma.** -/
theorem plain_run {steps : List Step} (hquiet : ∀ l ∈ steps, Undisturbed l)
    (hs : ∀ g ∈ s, Plain g) : ∀ g ∈ steps.foldl (step db) s, Plain g := by
  induction steps generalizing s with
  | nil => exact hs
  | cons l steps ih =>
    obtain ⟨hl, hrest⟩ := List.forall_mem_cons.mp hquiet
    exact ih hrest (plain_step hl hs)

/-- **Run lemma.** What the steps that suppress nothing keep of a plain group. -/
theorem processed_run {I : Option GroupState → Prop}
    (hstep : ∀ s l, Undisturbed l → Processed l → (∀ g ∈ s, Plain g) → I s → I (step db s l))
    {steps : List Step} (hquiet : ∀ l ∈ steps, Undisturbed l)
    (hprocessed : ∀ l ∈ steps, Processed l) (hs : ∀ g ∈ s, Plain g) (h : I s) :
    I (steps.foldl (step db) s) := by
  induction steps generalizing s with
  | nil => exact h
  | cons l steps ih =>
    obtain ⟨hl, hrest⟩ := List.forall_mem_cons.mp hquiet
    obtain ⟨hpl, hprest⟩ := List.forall_mem_cons.mp hprocessed
    exact ih hrest hprest (plain_step hl hs) (hstep s l hl hpl hs h)

end Runs

/-- A firing event of a group with two rules. -/
def firingEvent (dedupKey : String) (suppressed : Bool) : Arrival where
  dedupKey := dedupKey
  resolved := false
  suppressed := suppressed
  silenced := false
  reopens := false
  policy := some 1
  rotation := none
  recoveryDelay := 0
  t := everySecond 0

def eventOf (dedupKey : String) (suppressed : Bool) : Step :=
  .event (firingEvent dedupKey suppressed)

theorem eventOf_undisturbed (dedupKey : String) (suppressed : Bool) :
    Undisturbed (eventOf dedupKey suppressed) := everySecond_quiet 0

end IncidentRelay.Escalation
