import IncidentRelay.Alerts.Store
import IncidentRelay.Lib.Process

/-!
# The scheduler and the operators

What `process_due_alert_group_notifications` and `send_unacked_reminders` do for one
AlertGroup, as programs of statements on its row and on its alerts, and
`acknowledge_alert` and `resolve_alert`, which lock the row and commit at once.
`save()` writes every column of the object in memory. The rest of the system answers
when it is asked: shelves, maintenance windows, the escalation policy, the providers,
the clock.
-/

namespace IncidentRelay.Alerts

/-! ## The row -/

/-- The row of an `AlertGroup`, with its escalation and its notifications. -/
structure GroupRow extends AlertGroup where
  rotation : Option ℕ := none
  assignee : Option ℕ := none
  escalationPolicy : Option ℕ := none
  escalationRule : Option ℕ := none
  escalationLevel : ℕ := 0
  escalationRepeatCount : ℕ := 0
  lastEscalatedAt : Option Instant := none
  nextEscalationAt : Option Instant := none
  reminderCount : ℕ := 0
  lastNotificationAt : Option Instant := none
  notificationPending : Bool := false
  notificationDueAt : Option Instant := none
  notificationReason : Option String := none
  maintenanceSuppressed : Bool := false
  deriving DecidableEq

def recoveryNotificationReason : String := "recovery"

def GroupRow.merged (g : GroupRow) : Bool := g.mergedInto.isSome

/-- Without a pending notification. -/
def GroupRow.cleared (g : GroupRow) (now : Instant) : GroupRow :=
  { g with
    notificationPending := false
    notificationDueAt := none
    notificationReason := none
    updatedAt := now }

/-- The row of a group and those of its alerts. -/
structure Board where
  group : GroupRow
  alerts : List Alert

/-! ## Statements -/

/-- A statement on the row of the group, or on those of its alerts. -/
inductive Action : Type → Type where
  /-- `AlertGroup.get_by_id(id)` -/
  | load : Action GroupRow
  /-- the alerts of the group -/
  | alerts : Action (List Alert)
  /-- `alert.resolved_at = now` of those without one -/
  | stampResolved (now : Instant) : Action Unit
  /-- `group.save()`: every column -/
  | save (g : GroupRow) : Action Unit
  /-- `group.save(only=[next_escalation_at])` -/
  | saveNextEscalation (nextEscalationAt : Option Instant) : Action Unit
  /-- the `UPDATE` of `resume_notification_lifecycle`, where the flag is set -/
  | resume (now : Instant) (nextEscalationAt : Option Instant) : Action Bool
  /-- the transaction of `_process_due_recovery`, which holds the row: with the next
  attempt, when a recipient is left -/
  | recover (selectedDueAt : Option Instant) (now : Instant) (nextDue : Option Instant) :
      Action Unit

/-- What `_process_due_recovery` leaves of the row that it reads. -/
def recovered (selectedDueAt : Option Instant) (now : Instant) (nextDue : Option Instant)
    (g : GroupRow) : GroupRow :=
  if g.merged || g.status ≠ .resolved || !g.notificationPending ||
      g.notificationReason ≠ some recoveryNotificationReason ||
      g.notificationDueAt.all (now < ·) || g.notificationDueAt ≠ selectedDueAt then g
  else match nextDue with
    | some due => { g with notificationDueAt := some due, updatedAt := now }
    | none => g.cleared now

def Action.exec : {β : Type} → Action β → Board → β × Board
  | _, .load, b => (b.group, b)
  | _, .alerts, b => (b.alerts, b)
  | _, .stampResolved now, b =>
    ((), { b with alerts := b.alerts.map fun a =>
      if a.resolvedAt.isNone then { a with resolvedAt := some now } else a })
  | _, .save g, b => ((), { b with group := g })
  | _, .saveNextEscalation nextEscalationAt, b =>
    ((), { b with group := { b.group with nextEscalationAt } })
  | _, .resume now nextEscalationAt, b =>
    if b.group.maintenanceSuppressed then
      (true, { b with group := { b.group with
        maintenanceSuppressed := false, reminderCount := 0, nextEscalationAt, updatedAt := now } })
    else (false, b)
  | _, .recover selectedDueAt now nextDue, b =>
    ((), { b with group := recovered selectedDueAt now nextDue b.group })

abbrev Job := Process Action

open Process (ask perform)

/-! ## What the rest of the system answers -/

def utcNow : Job Instant := ask

def isAlertGroupShelved : Job Bool := ask

def isNotificationLifecycleSuppressed : Job Bool := ask

def isEscalationLifecyclePaused : Job Bool := ask

/-! ## The functions of the repositories -/

def save (g : GroupRow) : Job Unit := perform (.save g)

/-- `clear_alert_group_notification(group)`. -/
def clearAlertGroupNotification (g : GroupRow) : Job GroupRow := do
  let now ← utcNow
  save (g.cleared now)
  return g.cleared now

/-- `schedule_alert_group_notification(group, due_at, reason)`. -/
def scheduleAlertGroupNotification (g : GroupRow) (dueAt : Instant) (reason : String) :
    Job GroupRow := do
  if g.notificationPending && g.notificationDueAt.any (· ≤ dueAt) then return g
  let now ← utcNow
  let g := { g with
    notificationPending := true
    notificationDueAt := some dueAt
    notificationReason := some reason
    updatedAt := now }
  save g
  return g

/-- `mark_alert_group_notification_sent(group, now=now)`. -/
def markAlertGroupNotificationSent (g : GroupRow) (now : Instant) : Job Unit :=
  save { g.cleared now with lastNotificationAt := some now }

/-- `increment_group_reminder(group, now)`. -/
def incrementGroupReminder (g : GroupRow) (now : Instant) : Job Unit :=
  save { g with reminderCount := g.reminderCount + 1, lastNotificationAt := some now }

/-- `recalculate_alert_group(group)`. -/
def recalculateAlertGroup (g : GroupRow) : Job GroupRow := do
  let now ← utcNow
  let alerts ← perform .alerts
  let g := { g with toAlertGroup := Store.recalculated alerts now g.toAlertGroup }
  if Store.allResolved alerts then perform (.stampResolved now)
  save g
  return g

/-! ## Maintenance -/

/-- `pause_notification_lifecycle(group)`. -/
def pauseNotificationLifecycle (g : GroupRow) : Job GroupRow := do
  if !g.maintenanceSuppressed || g.notificationPending || g.notificationDueAt.isSome ||
      g.notificationReason.isSome || g.nextEscalationAt.isSome then
    let now ← utcNow
    let g := { g.cleared now with maintenanceSuppressed := true, nextEscalationAt := none }
    save g
    return g
  else return g

/-- `resume_notification_lifecycle(group, now=now)`; the policy answers when the next
escalation is due. -/
def resumeNotificationLifecycle (g : GroupRow) (now : Instant) : Job (GroupRow × Bool) := do
  if !g.maintenanceSuppressed then return (g, false)
  let suppressed ← isNotificationLifecycleSuppressed
  if suppressed then return (g, false)
  let paused ← isEscalationLifecyclePaused
  let due : Option Instant ← ask
  let nextEscalationAt := if g.status = .firing && g.escalationPolicy.isSome &&
    g.escalationRule.isSome && !paused then due else none
  let updated ← perform (.resume now nextEscalationAt)
  if !updated then return (g, false)
  return ({ g with
    maintenanceSuppressed := false, reminderCount := 0, nextEscalationAt, updatedAt := now }, true)

/-! ## Delivery -/

/-- `notify_alert(group, event_type=…)` for the events of a firing group: it reads the row
again, and raises or counts what the providers have taken. -/
def notifyAlert : Job (Option ℕ) := do
  let fresh ← perform .load
  if fresh.status ≠ .firing || fresh.merged then return some 0
  ask

/-! ## Escalation -/

/-- A rule of an escalation policy, with its target and the time of the next one. -/
structure NextRule where
  rule : ℕ
  rotation : Option ℕ
  user : Option ℕ
  nextEscalationAt : Option Instant

/-- `maybe_escalate_alert_by_policy(group)`. -/
def maybeEscalateAlertByPolicy (g : GroupRow) : Job (GroupRow × Bool) := do
  let suppressed ← isNotificationLifecycleSuppressed
  if suppressed then
    let g ← pauseNotificationLifecycle g
    return (g, false)
  let paused ← isEscalationLifecyclePaused
  if paused then
    perform (.saveNextEscalation none)
    return ({ g with nextEscalationAt := none }, false)
  let resumedAt ← utcNow
  let (g, resumed) ← resumeNotificationLifecycle g resumedAt
  if resumed || g.escalationPolicy.isNone then return (g, false)
  let now ← utcNow
  if g.nextEscalationAt.all (now < ·) then return (g, false)
  let (nextRule, repeatCount) : Option NextRule × ℕ ← ask
  match nextRule with
  | none =>
    let g := { g with nextEscalationAt := none, updatedAt := now }
    save g
    return (g, false)
  | some next =>
    let g := { g with
      rotation := next.rotation
      assignee := next.user
      escalationRule := some next.rule
      escalationLevel := g.escalationLevel + 1
      escalationRepeatCount := repeatCount
      reminderCount := 0
      lastEscalatedAt := some now
      nextEscalationAt := next.nextEscalationAt
      updatedAt := now }
    save g
    let _ ← notifyAlert
    return (g, true)

/-- `maybe_escalate_alert(group)`; the answers of the team are whether it escalates and
after how many reminders, and the next user of the rotation. -/
def maybeEscalateAlert (g : GroupRow) : Job (GroupRow × Bool) := do
  let suppressed ← isNotificationLifecycleSuppressed
  if suppressed then
    let g ← pauseNotificationLifecycle g
    return (g, false)
  let paused ← isEscalationLifecyclePaused
  if paused then
    perform (.saveNextEscalation none)
    return ({ g with nextEscalationAt := none }, false)
  let resumedAt ← utcNow
  let (g, resumed) ← resumeNotificationLifecycle g resumedAt
  if resumed then return (g, false)
  if g.escalationPolicy.isSome then maybeEscalateAlertByPolicy g
  else
    let escalates : Bool ← ask
    let afterReminders : ℕ ← ask
    let nextUser : Option ℕ ← ask
    if !escalates || g.reminderCount < afterReminders || nextUser.isNone ||
        g.assignee = nextUser then
      return (g, false)
    let now ← utcNow
    let g := { g with
      assignee := nextUser
      escalationLevel := g.escalationLevel + 1
      reminderCount := 0
      lastEscalatedAt := some now
      updatedAt := now }
    save g
    let _ ← notifyAlert
    return (g, true)

/-! ## The two jobs -/

/-- The body of `process_due_alert_group_notifications` for a selected group. -/
def processDueNotification (selected : GroupRow) (now : Instant) : Job Unit :=
  if selected.notificationReason = some recoveryNotificationReason then do
    let nextDue : Option Instant ← ask
    perform (.recover selected.notificationDueAt now nextDue)
  else do
    let g ← perform .load
    if !g.notificationPending || g.status ≠ .firing || g.notificationDueAt.all (now < ·) ||
        g.notificationDueAt ≠ selected.notificationDueAt ||
        g.notificationReason ≠ selected.notificationReason then
      if g.notificationPending && g.status ≠ .firing &&
          g.notificationReason = selected.notificationReason &&
          g.notificationReason ≠ some recoveryNotificationReason then
        let _ ← clearAlertGroupNotification g
      return ()
    else
      let g ← recalculateAlertGroup g
      let shelved ← isAlertGroupShelved
      if shelved then
        let _ ← clearAlertGroupNotification g
        return ()
      let suppressed ← isNotificationLifecycleSuppressed
      if suppressed then
        let _ ← pauseNotificationLifecycle g
        return ()
      let (g, _) ← resumeNotificationLifecycle g now
      if g.status ≠ .firing then
        let _ ← clearAlertGroupNotification g
        return ()
      let sent ← notifyAlert
      match sent with
      | none => return ()
      | some 0 =>
        let _ ← clearAlertGroupNotification g
        return ()
      | some _ => markAlertGroupNotificationSent g now

/-- `schedule_group_notification(group, reason=…, now=now)`; the answers are the wait and
the interval of the groups. -/
def scheduleGroupNotification (g : GroupRow) (reason : String) (now : Instant) : Job Unit := do
  let shelved ← isAlertGroupShelved
  if shelved then
    let g ← clearAlertGroupNotification g
    if g.nextEscalationAt.isSome then
      save { g with nextEscalationAt := none, updatedAt := now }
    return ()
  let suppressed ← isNotificationLifecycleSuppressed
  if suppressed then
    let _ ← pauseNotificationLifecycle g
    return ()
  let (g, _) ← resumeNotificationLifecycle g now
  if g.status ≠ .firing then
    let _ ← clearAlertGroupNotification g
    return ()
  let wait : ℕ ← ask
  let interval : ℕ ← ask
  let dueAt := match g.lastNotificationAt with
    | none => now + seconds wait
    | some last => if last + seconds interval ≤ now then now else last + seconds interval
  let _ ← scheduleAlertGroupNotification g dueAt reason
  return ()

/-- The reminder at the end of the body; the answers are the interval and whether a
channel matches. -/
def remind (g : GroupRow) (now : Instant) (escalationPaused : Bool) : Job Unit := do
  if g.notificationPending || g.lastNotificationAt.isNone then return ()
  let interval : ℕ ← ask
  let hasChannel : Bool ← ask
  if interval = 0 || !hasChannel ||
      !(g.lastNotificationAt.any (· ≤ now - seconds interval)) then return ()
  let (g, escalated) ←
    if g.escalationPolicy.isNone && !escalationPaused then maybeEscalateAlert g
    else pure (g, false)
  if escalated then return ()
  let sent ← notifyAlert
  match sent with
  | none => return ()
  | some 0 => return ()
  | some _ => incrementGroupReminder g now

/-- The body of `send_unacked_reminders` for a selected group. -/
def sendUnackedReminder (now : Instant) : Job Unit := do
  let g ← perform .load
  if g.status ≠ .firing || g.merged then return ()
  else
    let shelved ← isAlertGroupShelved
    if shelved then
      let g ← clearAlertGroupNotification g
      if g.nextEscalationAt.isSome then
        save { g with nextEscalationAt := none, updatedAt := now }
      return ()
    let suppressed ← isNotificationLifecycleSuppressed
    if suppressed then
      let _ ← pauseNotificationLifecycle g
      return ()
    let (g, resumed) ← resumeNotificationLifecycle g now
    if resumed then scheduleGroupNotification g "maintenance_ended" now
    else
      let escalationPaused ← isEscalationLifecyclePaused
      if g.escalationPolicy.isSome && !escalationPaused then
        let (g, escalated) ← maybeEscalateAlert g
        if escalated || g.nextEscalationAt.isNone then return ()
        remind g now escalationPaused
      else remind g now escalationPaused

/-! ## The operators -/

inductive Operation where
  | acknowledge (userId : Option ℕ)
  | resolve (userId : Option ℕ)
  deriving DecidableEq, Repr

/-- The group is past the reach of the operation: nothing is written of it but its
notification. -/
def Operation.refused (op : Operation) (g : GroupRow) : Bool :=
  g.status = .resolved || g.status = .merged || g.merged ||
    match op with
    | .acknowledge _ => g.status = .acknowledged
    | .resolve _ => false

/-- `_cancel_acknowledged_notification_work(group)` on the row. -/
def cancelAcknowledged (g : GroupRow) (now : Instant) : GroupRow :=
  if g.notificationPending then g.cleared now else g

/-- `acknowledge_alert(alert_id, user_id=…)`. -/
def acknowledgeBoard (userId : Option ℕ) (now : Instant) (b : Board) : Board :=
  if b.group.status = .acknowledged then
    { b with group := cancelAcknowledged b.group now }
  else if (Operation.acknowledge userId).refused b.group then b
  else
    let g := { b.group with
      previousStatus := some b.group.status
      status := .acknowledged
      acknowledgedBy := userId
      acknowledgedAt := some now }
    { b with group := cancelAcknowledged g now }

/-- `resolve_alert(alert_id, user_id=…)`. -/
def resolveBoard (userId : Option ℕ) (now : Instant) (b : Board) : Board :=
  if (Operation.resolve userId).refused b.group then b
  else
    let alerts := b.alerts.map fun a =>
      if a.status ≠ .resolved then { a with status := .resolved, resolvedAt := some now } else a
    let g := { b.group with
      previousStatus := some b.group.status
      status := .resolved
      resolvedBy := userId
      resolvedAt := some now
      firingCount := 0
      acknowledgedCount := 0
      resolvedCount := alerts.length
      updatedAt := now }
    { group := g.cleared now, alerts }

/-- The committed operation. -/
def Operation.run (op : Operation) (now : Instant) (b : Board) : Board :=
  match op with
  | .acknowledge userId => acknowledgeBoard userId now b
  | .resolve userId => resolveBoard userId now b

end IncidentRelay.Alerts
