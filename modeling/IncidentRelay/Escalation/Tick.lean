import IncidentRelay.Escalation.Policy

/-!
# A tick of the reminder job

What `send_unacked_reminders` does to one group: the group is paused while it is shelved or
under maintenance, escalated when it is due, and reminded otherwise. What other parts of
the system answer during the tick are the fields of `Tick`.
-/

namespace IncidentRelay.Escalation

inductive GroupStatus where
  | firing
  | acknowledged
  | silenced
  | resolved
  | merged
  deriving DecidableEq, Repr

/-- `AlertGroup`, with its events. -/
structure AlertGroup where
  status : GroupStatus
  mergedInto : Option Id
  escalationPolicy : Option Id
  escalationRule : Option Id
  rotation : Option Id
  assignee : Option Id
  escalationLevel : ℕ
  escalationRepeatCount : Int
  nextEscalationAt : Option Instant
  lastEscalatedAt : Option Instant
  reminderCount : ℕ
  lastNotificationAt : Option Instant
  notificationPending : Bool
  notificationDueAt : Option Instant
  notificationReason : Option String
  maintenanceSuppressed : Bool
  updatedAt : Instant
  /-- the type and the message of each event -/
  events : List (String × String)

def AlertGroup.place (g : AlertGroup) : Place where
  escalationPolicy := g.escalationPolicy
  escalationRule := g.escalationRule
  escalationRepeatCount := g.escalationRepeatCount

/-- A tick, with what the rest of the system answers during it. -/
structure Tick where
  now : Instant
  /-- the team of the group and its group are active and not deleted -/
  live : Bool
  /-- `is_alert_group_shelved(group)` -/
  shelved : Bool
  /-- `is_notification_lifecycle_suppressed(group)` -/
  suppressed : Bool
  /-- `is_escalation_lifecycle_paused(group)` -/
  paused : Bool
  onCall : OnCall
  /-- `group.team.escalation_enabled` and `escalation_after_reminders` -/
  teamEscalation : Option ℕ
  /-- `rotation.reminder_interval_seconds` -/
  reminderInterval : Id → Int
  /-- `has_matching_notification_channel(group, event_type=…)`, or that it raises -/
  hasTarget : String → Option Bool
  /-- `notify_alert(group, event_type=…)`, or that it raises -/
  notify : String → Option ℕ
  /-- `ALERT_GROUP_WAIT_SECONDS` and `ALERT_GROUP_INTERVAL_SECONDS` -/
  groupWait : Int
  groupInterval : Int

section Pause

/-- `create_alert_event(group_id=group.id, …)` -/
def AlertGroup.withEvent (g : AlertGroup) (eventType message : String) : AlertGroup :=
  { g with events := g.events ++ [(eventType, message)] }

/-- `clear_alert_group_notification(group)` -/
def clearAlertGroupNotification (now : Instant) (g : AlertGroup) : AlertGroup :=
  { g with
    notificationPending := false, notificationDueAt := none, notificationReason := none,
    updatedAt := now }

/-- `schedule_alert_group_notification(group, due_at, reason)` -/
def scheduleAlertGroupNotification (now dueAt : Instant) (reason : String) (g : AlertGroup) :
    AlertGroup :=
  if g.notificationPending = true ∧ g.notificationDueAt.any (· ≤ dueAt) then g
  else
    { g with
      notificationPending := true, notificationDueAt := some dueAt,
      notificationReason := some reason, updatedAt := now }

def clearNextEscalation (now : Instant) (g : AlertGroup) : AlertGroup :=
  if g.nextEscalationAt.isSome then { g with nextEscalationAt := none, updatedAt := now } else g

/-- `pause_notification_lifecycle(group)` -/
def pauseNotificationLifecycle (now : Instant) (g : AlertGroup) : AlertGroup :=
  let queued := g.notificationPending || g.notificationDueAt.isSome ||
    g.notificationReason.any (· ≠ "")
  let paused := { g with
    maintenanceSuppressed := true
    notificationPending := if queued then false else g.notificationPending
    notificationDueAt := if queued then none else g.notificationDueAt
    notificationReason := if queued then none else g.notificationReason
    nextEscalationAt := none
    updatedAt := if !g.maintenanceSuppressed || queued || g.nextEscalationAt.isSome then now
      else g.updatedAt }
  if g.maintenanceSuppressed then paused
  else paused.withEvent "maintenance_notifications_paused"
    "Notification, reminder, and escalation processing paused by maintenance"

/-- `resume_notification_lifecycle(group)`, and whether it resumed. -/
def resumeNotificationLifecycle (db : Policies) (t : Tick) (g : AlertGroup) : AlertGroup × Bool :=
  if !g.maintenanceSuppressed || t.suppressed then (g, false)
  else
    let next :=
      if g.status = .firing ∧ g.escalationPolicy.isSome ∧ t.paused = false then
        (g.escalationRule.bind (findRule db)).map (getNextEscalationAt · t.now)
      else none
    ({ g with
        maintenanceSuppressed := false, reminderCount := 0, nextEscalationAt := next,
        updatedAt := t.now }.withEvent "maintenance_notifications_resumed"
      "Maintenance ended; notification and escalation processing resumed", true)

/-- `schedule_group_notification(group, reason=…)` -/
def scheduleGroupNotification (db : Policies) (t : Tick) (reason : String) (g : AlertGroup) :
    AlertGroup :=
  if t.shelved then clearNextEscalation t.now (clearAlertGroupNotification t.now g)
  else if t.suppressed then pauseNotificationLifecycle t.now g
  else
    let g := (resumeNotificationLifecycle db t g).1
    if g.status ≠ .firing then clearAlertGroupNotification t.now g
    else
      let dueAt := match g.lastNotificationAt with
        | none => t.now + seconds t.groupWait
        | some last => max t.now (last + seconds t.groupInterval)
      scheduleAlertGroupNotification t.now dueAt reason g

end Pause

section Escalate

variable (db : Policies) (t : Tick)

/-- What `notify_alert(group, event_type=…)` leaves of the group. -/
def notified (eventType : String) (g : AlertGroup) : AlertGroup :=
  if (t.notify eventType).any (· ≠ 0) then { g with lastNotificationAt := some t.now } else g

/-- `_deliver_escalation_notification(group)`: it raises nothing. -/
def deliverEscalationNotification (g : AlertGroup) : AlertGroup :=
  if (t.notify "escalation").any (· ≠ 0) then notified t "escalation" g
  else if t.hasTarget "escalation" = some false ∧ (t.notify "escalation").isSome then
    g.withEvent "escalation_notification_skipped"
      "Escalation completed, but no matching notification target was found."
  else
    g.withEvent "escalation_notification_failed"
      "Escalation completed, but notification delivery did not succeed."

/-- The rotation and the assignee of a rule. -/
def assignRule (w : OnCall) (rule : Rule) (g : AlertGroup) : AlertGroup :=
  { g with
    rotation := if rule.targetType = .rotation then rule.targetRotation else none
    assignee := resolveRuleUser w rule }

/-- The group at the next rule. -/
def escalateTo (rule : Rule) (repeatCount : Int) (g : AlertGroup) : AlertGroup :=
  let target := match resolveRuleUser t.onCall rule with
    | some user => t.onCall.username user
    | none => "no assignee"
  deliverEscalationNotification t <|
    { assignRule t.onCall rule g with
      escalationRule := some rule.id
      escalationLevel := g.escalationLevel + 1
      escalationRepeatCount := repeatCount
      reminderCount := 0
      lastEscalatedAt := some t.now
      nextEscalationAt := some (getNextEscalationAt rule t.now)
      updatedAt := t.now }.withEvent "escalated"
        ("Escalated by policy rule #" ++ toString rule.position ++ " to " ++ target)

/-- `maybe_escalate_alert_by_policy(group)` -/
def maybeEscalateAlertByPolicy (g : AlertGroup) : AlertGroup × Bool :=
  if t.suppressed then (pauseNotificationLifecycle t.now g, false)
  else if t.paused then ({ g with nextEscalationAt := none }, false)
  else
    match resumeNotificationLifecycle db t g with
    | (g, true) => (g, false)
    | (g, false) =>
      if g.escalationPolicy = none then (g, false)
      else match g.nextEscalationAt with
        | none => (g, false)
        | some due =>
          if t.now < due then (g, false)
          else match getNextRuleForAlert db g.place with
            | (none, _) =>
              ({ g with nextEscalationAt := none, updatedAt := t.now }.withEvent
                "escalation_stopped" "Escalation policy has no next rule", false)
            | (some rule, repeatCount) => (escalateTo t rule repeatCount g, true)

/-- The escalation of a group without a policy, along its rotation. -/
def maybeEscalateAlertByTeam (g : AlertGroup) : AlertGroup × Bool :=
  match t.teamEscalation with
  | none => (g, false)
  | some afterReminders =>
    if g.reminderCount < afterReminders then (g, false)
    else match t.onCall.nextRotationUser g.rotation g.assignee with
      | none => (g, false)
      | some user =>
        if g.assignee = some user then (g, false)
        else
          (deliverEscalationNotification t <|
            { g with
              assignee := some user, escalationLevel := g.escalationLevel + 1,
              reminderCount := 0, lastEscalatedAt := some t.now, updatedAt := t.now }.withEvent
                "escalated" ("Escalated to " ++ t.onCall.username user), true)

/-- `maybe_escalate_alert(group)` -/
def maybeEscalateAlert (g : AlertGroup) : AlertGroup × Bool :=
  if t.suppressed then (pauseNotificationLifecycle t.now g, false)
  else if t.paused then ({ g with nextEscalationAt := none }, false)
  else
    match resumeNotificationLifecycle db t g with
    | (g, true) => (g, false)
    | (g, false) =>
      if g.escalationPolicy.isSome then maybeEscalateAlertByPolicy db t g
      else maybeEscalateAlertByTeam t g

/-- `get_alert_reminder_interval(group)` -/
def getAlertReminderInterval (g : AlertGroup) : Int :=
  match g.escalationPolicy.bind (findPolicy db) with
  | some policy =>
    match g.escalationRule.bind (findRule db) with
    | some rule => max (getRuleDelaySeconds rule) 60
    | none =>
      match getFirstEnabledRule db policy with
      | some rule => max (getRuleDelaySeconds rule) 60
      | none => 0
  | none =>
    match g.rotation with
    | some rotation => t.reminderInterval rotation
    | none => 0

/-- The reminder itself, where nothing was escalated in its place. -/
def sendReminder (g : AlertGroup) : AlertGroup × Bool :=
  if (t.notify "reminder").any (· ≠ 0) then
    ({ notified t "reminder" g with
        reminderCount := g.reminderCount + 1, lastNotificationAt := some t.now }.withEvent
      "reminder_sent" ("Reminder count: " ++ toString (g.reminderCount + 1)), true)
  else (g, false)

/-- From `if group.notification_pending` on. -/
def remind (g : AlertGroup) : AlertGroup × Bool :=
  match g.lastNotificationAt with
  | none => (g, false)
  | some last =>
    let interval := getAlertReminderInterval db t g
    if g.notificationPending || interval = 0 || t.hasTarget "reminder" ≠ some true ||
      t.now - seconds interval < last then (g, false)
    else if g.escalationPolicy.isNone && !t.paused then
      match maybeEscalateAlert db t g with
      | (g, true) => (g, true)
      | (g, false) => sendReminder t g
    else sendReminder t g

/-- The body of `send_unacked_reminders()` for one group: the group, and whether it was
escalated or reminded. -/
def sendUnackedReminders (g : AlertGroup) : AlertGroup × Bool :=
  if g.status ≠ .firing ∨ g.mergedInto.isSome ∨ t.live = false then (g, false)
  else if t.shelved then (clearNextEscalation t.now (clearAlertGroupNotification t.now g), false)
  else if t.suppressed then (pauseNotificationLifecycle t.now g, false)
  else
    match resumeNotificationLifecycle db t g with
    | (g, true) => (scheduleGroupNotification db t "maintenance_ended" g, false)
    | (g, false) =>
      if g.escalationPolicy.isSome && !t.paused then
        match maybeEscalateAlert db t g with
        | (g, true) => (g, true)
        | (g, false) => if g.nextEscalationAt.isNone then (g, false) else remind db t g
      else remind db t g

end Escalate

/-! ## The first assignment -/

/-- `apply_initial_escalation_policy_assignment(policy, rotation)` to a group that is
created with it. -/
def applyInitialEscalationPolicyAssignment (db : Policies) (w : OnCall) (policy : Policy)
    (fallbackRotation : Option Id) (now : Instant) (g : AlertGroup) : AlertGroup :=
  let g := { g with escalationPolicy := some policy.id, escalationRepeatCount := 0 }
  match getFirstEnabledRule db policy with
  | none =>
    { g with
      escalationRule := none, rotation := fallbackRotation,
      assignee := fallbackRotation.bind w.currentOncallUser, nextEscalationAt := none }
  | some rule =>
    { assignRule w rule g with
      escalationRule := some rule.id
      nextEscalationAt := some (getNextEscalationAt rule now) }

end IncidentRelay.Escalation
