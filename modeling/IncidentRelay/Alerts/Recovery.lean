import IncidentRelay.Escalation.Tick
import IncidentRelay.Lib.IdTable
import IncidentRelay.Lib.PyText
import Mathlib.Data.List.Sort

/-!
# Delayed recovery notifications

A resolved group may wait for a grace time before its recovery is told. The first run of the
queue at its due time writes one row for every target, and from then on the rows say what is
left to do: every run tries the rows that are due, a failure is tried again later, and the
fifth failure is the last.

`calls` is what the proofs read: every attempt that was committed, with its answer. The
tables that other parts of the program own come in with the run (`Inputs`), as do the answers
of the providers. All times are in microseconds.
-/

namespace IncidentRelay.Recovery

open Escalation (GroupStatus)

/-! ## Rows -/

def seconds (n : ℕ) : ℕ := n * 1000000

/-- `AlertGroup`, the columns of the queue. -/
structure Group where
  id : ℕ
  status : GroupStatus
  resolvedAt : Option ℕ
  mergedInto : Option ℕ
  assignee : Option ℕ
  lastNotificationAt : Option ℕ
  notificationPending : Bool
  notificationDueAt : Option ℕ
  notificationReason : Option String
  updatedAt : ℕ
  deriving DecidableEq, Repr

inductive TargetKind where
  | channel
  | stakeholderEmail
  | stakeholderPush
  | userRules
  deriving DecidableEq, Repr

/-- The names of the kinds are in this order. -/
def TargetKind.rank : TargetKind → ℕ
  | .channel => 0
  | .stakeholderEmail => 1
  | .stakeholderPush => 2
  | .userRules => 3

structure Target where
  kind : TargetKind
  id : ℕ
  deriving DecidableEq, Repr

def Target.le (s t : Target) : Prop :=
  s.kind.rank < t.kind.rank ∨ (s.kind.rank = t.kind.rank ∧ s.id ≤ t.id)

instance decidableTargetLe : DecidableRel Target.le := fun _ _ =>
  inferInstanceAs (Decidable (_ ∨ _))

inductive DeliveryStatus where
  | pending
  | sent
  | skipped
  | failed
  | cancelled
  deriving DecidableEq, Repr

/-- One resolution of a group. -/
structure Cycle where
  group : ℕ
  resolvedAt : ℕ
  deriving DecidableEq, Repr

/-- `RecoveryNotificationDelivery`. -/
structure Delivery where
  id : ℕ
  cycle : Cycle
  target : Target
  status : DeliveryStatus := .pending
  attempts : ℕ := 0
  nextAttemptAt : ℕ
  deliveredCount : ℕ := 0
  deliveredAt : Option ℕ := none
  lastError : Option String := none
  updatedAt : ℕ
  deriving DecidableEq, Repr

/-- What the delivery of a target answered: a status with the number of messages, or the text
of the exception. -/
abbrev Answer := Except String (DeliveryStatus × Int)

/-- A committed attempt. -/
structure Call where
  delivery : ℕ
  cycle : Cycle
  target : Target
  time : ℕ
  answer : Answer

inductive AlertEvent where
  | recoveryNotificationScheduled (delay dueAt : ℕ)
  | recoveryDeliveryExhausted (target : Target) (attempts : ℕ)
  | recoveryNotificationRetryScheduled (nextDue : ℕ)
  | recoveryNotificationSent (sent failures skipped : ℕ)
  | recoveryNotificationSkipped (sent failures skipped : ℕ)
  | recoveryNotificationPartial (sent failures skipped : ℕ)
  | recoveryNotificationFailed (sent failures skipped : ℕ)
  | recoveryNotificationCancelled
  deriving DecidableEq, Repr

structure World where
  groups : IdTable Group Group.id
  deliveries : IdTable Delivery Delivery.id
  calls : List Call
  events : List (ℕ × AlertEvent)

def World.start : World := ⟨.empty, .empty, [], []⟩

/-! ## What a run of the queue reads -/

structure StakeholderUser where
  active : Bool
  deleted : Bool
  email : Option String

/-- `IncidentStakeholder`. -/
structure Stakeholder where
  id : ℕ
  group : ℕ
  active : Bool
  notifyOnResolved : Bool
  email : Option String
  user : Option StakeholderUser

inductive ChannelOutcome where
  | failed (error : Option String)
  | skipped
  | sent

structure Inputs where
  /-- The channels of the group's notification rows. -/
  notifications : List (Option ℕ)
  stakeholders : List Stakeholder
  /-- The report of `notify_alert` about the one channel it is asked for. -/
  notifyAlert : ℕ → Except String (Option ChannelOutcome)
  enqueueUserNotifications : Except String Int
  sendStakeholderEmail : ℕ → String → Except String Unit
  sendStakeholderPush : ℕ → Except String Int

def stakeholderUser (s : Stakeholder) : Option StakeholderUser :=
  s.user.filter fun u => !u.deleted && u.active

def nonBlank (text : Option String) : Option String :=
  let text := strip (text.getD "")
  if text = "" then none else some text

def stakeholderEmail (s : Stakeholder) : Option String :=
  match nonBlank s.email with
  | some email => some email
  | none => (stakeholderUser s).bind fun u => nonBlank u.email

def Inputs.listIncidentStakeholders (i : Inputs) (group : ℕ) : List Stakeholder :=
  i.stakeholders.filter fun s => s.group = group && s.active

def Inputs.getIncidentStakeholder (i : Inputs) (id : ℕ) : Option Stakeholder :=
  i.stakeholders.find? fun s => s.id = id

/-! ## Scheduling -/

def maxRecoveryDelaySeconds : ℕ := 86400
def recoveryMaxAttempts : ℕ := 5
def recoveryRetryBaseSeconds : ℕ := 30
def recoveryRetryMaxSeconds : ℕ := 3600
def recoveryNotificationReason : String := "recovery"

/-- `configured` is the setting as an integer, when it is one. -/
def recoveryNotificationDelaySeconds (configured : Option Int) : ℕ :=
  match configured with
  | none => 0
  | some n => min n.toNat maxRecoveryDelaySeconds

/-- A recovery that is waiting. -/
def Group.queued (g : Group) : Bool :=
  g.notificationPending && g.notificationReason = some recoveryNotificationReason

/-- The guard of the update; `group` is the row as the caller has it. -/
def Group.mayWait (group g : Group) : Bool :=
  g.id = group.id && g.status = .resolved && g.resolvedAt = group.resolvedAt &&
    g.mergedInto.isNone && !g.queued

def Group.waiting (g : Group) (dueAt now : ℕ) : Group :=
  { g with
    notificationPending := true
    notificationDueAt := some dueAt
    notificationReason := some recoveryNotificationReason
    updatedAt := now }

theorem Group.waiting_id (dueAt now : ℕ) (g : Group) : (g.waiting dueAt now).id = g.id := rfl

def World.scheduleRecoveryNotification (w : World) (group : Group) (delay now : ℕ) :
    World × Bool :=
  if delay = 0 ∨ group.status ≠ .resolved ∨ group.resolvedAt = none then (w, false)
  else
    let dueAt := now + seconds delay
    if w.groups.rows.any group.mayWait then
      ({ w with
        groups := w.groups.update group.mayWait (·.waiting dueAt now) (Group.waiting_id dueAt now)
        events := w.events ++ [(group.id, .recoveryNotificationScheduled delay dueAt)] }, true)
    else (w, false)

/-! ## Targets -/

/-- `_recovery_cycle_query`, in the order of the ids. -/
def World.cycleQuery (w : World) (cycle : Cycle) : List Delivery :=
  (w.deliveries.rows.filter fun d => d.cycle = cycle).insertionSort fun a b => a.id ≤ b.id

def recoveryTargets (g : Group) (i : Inputs) : List Target :=
  let channels := if g.lastNotificationAt.isSome
    then (i.notifications.filterMap fun channel => channel).map (Target.mk .channel)
    else []
  let rules := match g.assignee with
    | some user => if g.lastNotificationAt.isSome then [⟨.userRules, user⟩] else []
    | none => []
  let stakeholders := (i.listIncidentStakeholders g.id).flatMap fun s =>
    if s.active && s.notifyOnResolved then
      (if (stakeholderEmail s).isSome then [⟨.stakeholderEmail, s.id⟩] else []) ++
        (if (stakeholderUser s).isSome then [⟨.stakeholderPush, s.id⟩] else [])
    else []
  (channels ++ rules ++ stakeholders).dedup.insertionSort Target.le

/-- A row as it is created, to be tried at once. -/
def Delivery.fresh (cycle : Cycle) (now : ℕ) (id : ℕ) (target : Target) : Delivery :=
  { id := id, cycle := cycle, target := target, nextAttemptAt := now, updatedAt := now }

def addDelivery (cycle : Cycle) (now : ℕ) (t : IdTable Delivery Delivery.id) (target : Target) :
    IdTable Delivery Delivery.id := t.insert (.fresh cycle now t.next target) rfl

/-- A group that is resolved at no time has no rows, and its targets cannot be written. -/
def World.snapshotRecoveryTargets (w : World) (g : Group) (now : ℕ) (i : Inputs) : Option World :=
  match g.resolvedAt with
  | none => if recoveryTargets g i = [] then some w else none
  | some resolvedAt =>
    if w.cycleQuery ⟨g.id, resolvedAt⟩ ≠ [] then some w
    else some { w with
      deliveries := (recoveryTargets g i).foldl (addDelivery ⟨g.id, resolvedAt⟩ now) w.deliveries }

/-! ## Attempts -/

def deliverRecoveryTarget (g : Group) (d : Delivery) (i : Inputs) : Answer :=
  match d.target.kind with
  | .channel => do
    match ← i.notifyAlert d.target.id with
    | none => .ok (.skipped, 0)
    | some (.failed error) => .error ((error.filter (· ≠ "")).getD "provider delivery failed")
    | some .skipped => .ok (.skipped, 0)
    | some .sent => .ok (.sent, 1)
  | .userRules =>
    if g.assignee = some d.target.id then do .ok (.sent, ← i.enqueueUserNotifications)
    else .ok (.skipped, 0)
  | .stakeholderEmail =>
    match i.getIncidentStakeholder d.target.id with
    | none => .ok (.skipped, 0)
    | some s =>
      if s.group = g.id ∧ s.active = true ∧ s.notifyOnResolved = true then
        match stakeholderEmail s with
        | none => .ok (.skipped, 0)
        | some recipient => do
          i.sendStakeholderEmail s.id recipient
          .ok (.sent, 1)
      else .ok (.skipped, 0)
  | .stakeholderPush =>
    match i.getIncidentStakeholder d.target.id with
    | none => .ok (.skipped, 0)
    | some s =>
      if s.group = g.id ∧ s.active = true ∧ s.notifyOnResolved = true then
        if (stakeholderUser s).isSome then do
          let sent ← i.sendStakeholderPush s.id
          .ok (if sent = 0 then (.skipped, 0) else (.sent, sent))
        else .ok (.skipped, 0)
      else .ok (.skipped, 0)

/-- How long the attempt after the given number of attempts is put off. -/
def retrySeconds (attempts : ℕ) : ℕ :=
  min (recoveryRetryBaseSeconds * 2 ^ (attempts - 1)) recoveryRetryMaxSeconds

/-- The row after one more attempt. -/
def Delivery.tried (d : Delivery) (now : ℕ) (answer : Answer) : Delivery :=
  let d := { d with attempts := d.attempts + 1, updatedAt := now }
  match answer with
  | .error error =>
    let d := { d with lastError := some (takeText error 2000) }
    if recoveryMaxAttempts ≤ d.attempts then { d with status := .failed }
    else { d with nextAttemptAt := now + seconds (retrySeconds d.attempts) }
  | .ok (status, sent) =>
    { d with
      status := status
      deliveredCount := sent.toNat
      deliveredAt := if status = .sent then some now else none
      lastError := none }

/-- `_try_recovery_target`. -/
def World.tryRecoveryTarget (w : World) (g : Group) (now : ℕ) (i : Inputs) (d : Delivery) : World :=
  let answer := deliverRecoveryTarget g d i
  let tried := d.tried now answer
  { w with
    deliveries := w.deliveries.save tried
    calls := w.calls ++ [⟨d.id, d.cycle, d.target, now, answer⟩]
    events := w.events ++
      if tried.status = .failed then [(g.id, .recoveryDeliveryExhausted d.target tried.attempts)]
      else [] }

def Delivery.isDue (d : Delivery) (now : ℕ) : Bool := d.status = .pending && d.nextAttemptAt ≤ now

def World.tryDue (w : World) (g : Group) (now : ℕ) (i : Inputs) (rows : List Delivery) : World :=
  rows.foldl (fun w d => if d.isDue now then w.tryRecoveryTarget g now i d else w) w

/-! ## A run -/

/-- The row of the list of due groups, as it was read before the locks. -/
structure Selected where
  id : ℕ
  notificationDueAt : Option ℕ

inductive Outcome where
  | skipped
  | retrying
  | sent
  | partly
  | failed
  deriving DecidableEq, Repr

def Group.recoveryDue (g : Group) (selected : Selected) (now : ℕ) : Bool :=
  g.mergedInto.isNone && g.status = .resolved && g.queued &&
    g.notificationDueAt.any (· ≤ now) && g.notificationDueAt = selected.notificationDueAt

def Group.cleared (g : Group) (now : ℕ) : Group :=
  { g with
    notificationPending := false
    notificationDueAt := none
    notificationReason := none
    updatedAt := now }

def World.cycleRows (w : World) (g : Group) : List Delivery :=
  match g.resolvedAt with
  | none => []
  | some resolvedAt => w.cycleQuery ⟨g.id, resolvedAt⟩

/-- The end of a run: it waits for the next row, or it is over. -/
def World.finishRecovery (w : World) (g : Group) (now : ℕ) : World × Outcome :=
  let deliveries := w.cycleRows g
  match ((deliveries.filter fun d => d.status = .pending).map Delivery.nextAttemptAt).min? with
  | some nextDue =>
    ({ w with
      groups := w.groups.save { g with notificationDueAt := some nextDue, updatedAt := now }
      events := w.events ++ [(g.id, .recoveryNotificationRetryScheduled nextDue)] }, .retrying)
  | none =>
    let sent := (deliveries.map Delivery.deliveredCount).sum
    let failures := deliveries.countP fun d => d.status = .failed
    let skipped := deliveries.countP fun d => d.status = .skipped
    let (event, outcome) : AlertEvent × Outcome :=
      if failures ≠ 0 then
        if sent ≠ 0 then (.recoveryNotificationPartial sent failures skipped, .partly)
        else (.recoveryNotificationFailed sent failures skipped, .failed)
      else if sent ≠ 0 then (.recoveryNotificationSent sent failures skipped, .sent)
      else (.recoveryNotificationSkipped sent failures skipped, .skipped)
    ({ w with
      groups := w.groups.save (g.cleared now)
      events := w.events ++ [(g.id, event)] }, outcome)

/-- `_process_due_recovery`, or `none` when it raises and is rolled back. -/
def World.processDueRecovery (w : World) (selected : Selected) (now : ℕ) (i : Inputs) :
    Option (World × Outcome) :=
  match w.groups.get selected.id with
  | none => some (w, .skipped)
  | some g =>
    if g.recoveryDue selected now then
      (w.snapshotRecoveryTargets g now i).map fun w =>
        (w.tryDue g now i (w.cycleRows g)).finishRecovery g now
    else some (w, .skipped)

/-! ## Reopening -/

def Delivery.openFor (g : Group) (d : Delivery) : Bool :=
  d.cycle.group = g.id && some d.cycle.resolvedAt = g.resolvedAt && d.status = .pending

def Delivery.cancelled (d : Delivery) (now : ℕ) : Delivery :=
  { d with status := .cancelled, updatedAt := now }

theorem Delivery.cancelled_id (now : ℕ) (d : Delivery) : (d.cancelled now).id = d.id := rfl

/-- `restart_resolved_group`, or `none` when the group is resolved no more. -/
def World.restartResolvedGroup (w : World) (id : ℕ) (assignee : Option ℕ) (now : ℕ) :
    Option World :=
  match w.groups.get id with
  | none => none
  | some g =>
    if g.status ≠ .resolved ∨ g.mergedInto.isSome then none
    else
      let reopened := { g.cleared now with
        status := .firing
        resolvedAt := none
        assignee := assignee
        lastNotificationAt := none }
      let w' := { w with groups := w.groups.save reopened }
      if g.queued then
        some { w' with
          deliveries := w.deliveries.update (Delivery.openFor g) (·.cancelled now)
            (Delivery.cancelled_id now)
          events := w.events ++ [(g.id, .recoveryNotificationCancelled)] }
      else some w'

/-! ## The other writers -/

/-- A transaction on the tables. `edit` is any other write to the row of a group, and `remove`
the cleanup, which takes the deliveries of the group with it. -/
inductive Event where
  | create (g : Group)
  | edit (g : Group)
  | remove (group : ℕ)
  | schedule (group : Group) (configured : Option Int) (now : ℕ)
  | process (selected : Selected) (now : ℕ) (i : Inputs)
  | reopen (group : ℕ) (assignee : Option ℕ) (now : ℕ)

def World.next (w : World) : Event → World
  | .create g => { w with groups := w.groups.insert { g with id := w.groups.next } rfl }
  | .edit g => { w with groups := w.groups.save g }
  | .remove group => { w with
      groups := w.groups.delete fun g => g.id = group
      deliveries := w.deliveries.delete fun d => d.cycle.group = group }
  | .schedule group configured now =>
    (w.scheduleRecoveryNotification group (recoveryNotificationDelaySeconds configured) now).1
  | .process selected now i => ((w.processDueRecovery selected now i).map Prod.fst).getD w
  | .reopen group assignee now => (w.restartResolvedGroup group assignee now).getD w

end IncidentRelay.Recovery
