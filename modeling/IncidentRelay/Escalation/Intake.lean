import IncidentRelay.Escalation.Tick

/-!
# What an event does to the signals of a group

`_handle_existing_alert` and the second half of `_upsert_alert` on the columns that
decide whether anybody hears of a group: its pending notification, its next
escalation and the flag of orchestration. They are columns of the group, and each
event writes them by its own disposition; the children keep a flag each.

A group here has no operator: nobody acknowledges it. The due notification and the
reminder job are the other two steps.
-/

namespace IncidentRelay.Escalation

/-- A child of the group. -/
structure ChildAlert where
  dedupKey : String
  status : GroupStatus
  orchestrationSuppressed : Bool
  deriving DecidableEq

/-- A group with its children. -/
structure GroupState where
  group : AlertGroup
  orchestrationSuppressed : Bool
  children : List ChildAlert

/-- An event that is processed for the group, and what the rest of the system answers. -/
structure Arrival where
  dedupKey : String
  /-- The payload says `resolved`. -/
  resolved : Bool
  /-- `runtime.disposition == "suppress"` -/
  suppressed : Bool
  /-- A silence matches the event. -/
  silenced : Bool
  /-- The group is a candidate of the reopen policy of the event. -/
  reopens : Bool
  /-- The effective escalation policy and the rotation of the route. -/
  policy : Option Id
  rotation : Option Id
  /-- `recovery_notification_delay_seconds()` -/
  recoveryDelay : ℕ
  t : Tick

section Intake

variable (db : Policies) (a : Arrival)

/-- The status of a new child. -/
def Arrival.newStatus : GroupStatus := if a.silenced then .silenced else .firing

/-- `_resolve_policy_assignment`. -/
def resolvePolicyAssignment (g : AlertGroup) : AlertGroup :=
  let assigned := match a.policy.bind (findPolicy db) with
    | some policy =>
      applyInitialEscalationPolicyAssignment db a.t.onCall policy a.rotation a.t.now g
    | none =>
      { g with
        escalationPolicy := none, escalationRule := none, escalationRepeatCount := 0
        rotation := a.rotation
        assignee := a.rotation.bind a.t.onCall.currentOncallUser
        nextEscalationAt := none }
  if a.t.paused || a.suppressed then { assigned with nextEscalationAt := none } else assigned

/-- `_create_group`. -/
def createGroup : AlertGroup :=
  resolvePolicyAssignment db a
    { status := a.newStatus
      mergedInto := none
      escalationPolicy := none
      escalationRule := none
      rotation := none
      assignee := none
      escalationLevel := 0
      escalationRepeatCount := 0
      nextEscalationAt := none
      lastEscalatedAt := none
      reminderCount := 0
      lastNotificationAt := none
      notificationPending := false
      notificationDueAt := none
      notificationReason := none
      maintenanceSuppressed := false
      updatedAt := a.t.now
      events := [("created", "Incident created")] }

/-- `restart_resolved_group`. -/
def restartResolvedGroup (g : AlertGroup) : AlertGroup :=
  { resolvePolicyAssignment db a g with
    status := .firing
    lastEscalatedAt := none
    escalationLevel := 0
    reminderCount := 0
    lastNotificationAt := none
    notificationPending := false
    notificationDueAt := none
    notificationReason := none
    updatedAt := a.t.now }

/-- The status of `recalculate_alert_group`. -/
def recalculatedStatus (children : List ChildAlert) (previous : GroupStatus) : GroupStatus :=
  if children = [] then previous
  else if children.all (·.status = .resolved) then .resolved
  else if children.any (·.status = .firing) then
    if previous = .acknowledged then .acknowledged else .firing
  else if children.any (·.status = .silenced) then .silenced
  else if children.any (·.status = .acknowledged) then .acknowledged
  else previous

/-- `recalculate_alert_group`. -/
def recalculateAlertGroup (now : Instant) (children : List ChildAlert) (g : AlertGroup) :
    AlertGroup :=
  { g with status := recalculatedStatus children g.status, updatedAt := now }

/-- `schedule_recovery_notification`, where there is a delay. -/
def scheduleRecoveryNotification (g : AlertGroup) : AlertGroup :=
  { g with
    notificationPending := true
    notificationDueAt := some (a.t.now + seconds a.recoveryDelay)
    notificationReason := some "recovery"
    updatedAt := a.t.now }

/-- `notify_alert(group, event_type="resolved")`, where a notification was sent before. -/
def notifyResolved (g : AlertGroup) : AlertGroup :=
  if g.lastNotificationAt.isSome then notified a.t "resolved" g else g

/-- The columns that an event writes by its disposition. -/
def markSuppressed (s : GroupState) : GroupState :=
  { s with
    orchestrationSuppressed := a.suppressed
    group := if a.suppressed then { s.group with nextEscalationAt := none } else s.group }

/-- The child after an event with its key: an acknowledged or silenced child stays so. -/
def updateAlertFromPayload (c : ChildAlert) : ChildAlert :=
  { c with
    orchestrationSuppressed := a.suppressed
    status :=
      if a.resolved then .resolved
      else if c.status = .acknowledged ∨ c.status = .silenced then c.status
      else .firing }

/-- The event is one of the child: `find_existing_alert`. -/
def Arrival.hits (c : ChildAlert) : Bool :=
  c.dedupKey = a.dedupKey ∧ c.status ≠ .resolved

/-- The notification work that ends `_handle_existing_alert`. -/
def signalExisting (old : GroupStatus) (g : AlertGroup) : AlertGroup :=
  if a.suppressed then clearAlertGroupNotification a.t.now g
  else if a.resolved && g.status = .resolved then
    if a.recoveryDelay ≠ 0 then
      if old = .resolved then g else scheduleRecoveryNotification a g
    else notifyResolved a (clearAlertGroupNotification a.t.now g)
  else if g.status = .firing then scheduleGroupNotification db a.t "update" g
  else g

/-- `_handle_existing_alert`. -/
def handleExistingAlert (s : GroupState) : GroupState :=
  let marked := markSuppressed a s
  let children := s.children.map fun c => if a.hits c then updateAlertFromPayload a c else c
  let group := recalculateAlertGroup a.t.now children marked.group
  { marked with
    children := children
    group := signalExisting db a s.group.status group }

/-- The notification work that ends `_upsert_alert`. -/
def signalNew (reason : String) (g : AlertGroup) : AlertGroup :=
  if a.suppressed then clearAlertGroupNotification a.t.now g
  else if a.newStatus = .firing && g.status = .firing then
    scheduleGroupNotification db a.t reason g
  else if g.status ≠ .firing then clearAlertGroupNotification a.t.now g
  else g

/-- `_upsert_alert`, from the group of the new child on. -/
def addChild (reason : String) (s : GroupState) : GroupState :=
  let marked := markSuppressed a s
  let children := s.children ++ [⟨a.dedupKey, a.newStatus, a.suppressed⟩]
  let group := recalculateAlertGroup a.t.now children marked.group
  { marked with
    children := children
    group := signalNew db a reason group }

/-- An event of the group. A firing event creates the group or its child, or restarts a
resolved one; one that the group is closed for belongs to another group. -/
def receive : Option GroupState → Option GroupState
  | none =>
    if a.resolved then none
    else some (addChild db a "notification" ⟨createGroup db a, a.suppressed, []⟩)
  | some s =>
    some <|
      if s.children.any a.hits then handleExistingAlert db a s
      else if a.resolved then s
      else if s.group.status = .resolved then
        if a.reopens then
          addChild db a "update" { s with group := restartResolvedGroup db a s.group }
        else s
      else addChild db a "update" s

end Intake

/-! ## The due notification -/

/-- `process_due_alert_group_notifications` for the group, when the delivery of a
recovery ends it or leaves a next attempt. -/
def processDueNotification (db : Policies) (t : Tick) (nextRecovery : Option Instant)
    (s : GroupState) : GroupState :=
  let g := s.group
  if !g.notificationPending || g.notificationDueAt.all (t.now < ·) then s
  else if g.notificationReason = some "recovery" then
    if g.status ≠ .resolved then s
    else match nextRecovery with
      | some due => { s with group := { g with notificationDueAt := some due, updatedAt := t.now } }
      | none => { s with group := clearAlertGroupNotification t.now g }
  else if g.status ≠ .firing then { s with group := clearAlertGroupNotification t.now g }
  else
    let g := recalculateAlertGroup t.now s.children g
    if t.shelved then { s with group := clearAlertGroupNotification t.now g }
    else if t.suppressed then { s with group := pauseNotificationLifecycle t.now g }
    else
      let g := (resumeNotificationLifecycle db t g).1
      if g.status ≠ .firing then { s with group := clearAlertGroupNotification t.now g }
      else
        let eventType := if g.lastNotificationAt.isSome then "update" else "notification"
        match t.notify eventType with
        | none => { s with group := g }
        | some 0 =>
          { s with
            group := (clearAlertGroupNotification t.now g).withEvent (eventType ++ "_skipped")
              "Due alert group notification skipped: no delivery target" }
        | some _ =>
          { s with
            group := { clearAlertGroupNotification t.now g with
              lastNotificationAt := some t.now }.withEvent (eventType ++ "_sent")
                "Due alert group notification sent" }

/-! ## Runs -/

inductive Step where
  | event (a : Arrival)
  | deliver (t : Tick) (nextRecovery : Option Instant)
  | remind (t : Tick)

def step (db : Policies) (s : Option GroupState) : Step → Option GroupState
  | .event a => receive db a s
  | .deliver t nextRecovery => s.map (processDueNotification db t nextRecovery)
  | .remind t => s.map fun s => { s with group := (sendUnackedReminders db t s.group).1 }

end IncidentRelay.Escalation
