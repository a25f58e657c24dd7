import IncidentRelay.Alerts.GroupWork

/-!
# Silences

The rows of `Silence` and `SilenceAlertApplication` with the store, and the functions of
`silences.py` and `silences_repo.py` on them. Whether a silence matches an event or an
alert is a parameter (`alert_rule_matches`). The counts that the functions report, the
events, the audit and the jobs of the groups are left out.
-/

namespace IncidentRelay.Alerts

open Json

/-! ## Rows -/

structure Silence where
  id : ℕ
  team : Id
  matchers : Json
  startsAt : Instant
  endsAt : Instant
  applyToExisting : Bool
  reactivateOnEnd : Bool
  reconciledAt : Option Instant := none
  enabled : Bool := true
  deleted : Bool := false
  deriving DecidableEq

inductive ApplicationSource where
  | newAlert
  | retroactive
  deriving DecidableEq, Repr

inductive ReleaseReason where
  | disabled
  | expired
  | updated
  deriving DecidableEq, Repr

/-- `SilenceAlertApplication`. -/
structure Application where
  id : ℕ
  silence : ℕ
  alert : ℕ
  group : Option ℕ
  previousStatus : Status
  source : ApplicationSource
  active : Bool := true
  appliedAt : Instant
  releasedAt : Option Instant := none
  releaseReason : Option ReleaseReason := none
  deriving DecidableEq

/-- The alerts, and what holds them. -/
structure Desk where
  store : Store
  silences : IdTable Silence (·.id)
  applications : IdTable Application (·.id)

def Desk.empty : Desk where
  store := .empty
  silences := .empty
  applications := .empty

/-- The status that an application of the alert remembers. -/
def previousStatusOf (a : Alert) : Status :=
  if a.status = .firing ∨ a.status = .acknowledged then a.status
  else match a.previousStatus with
    | some .firing => .firing
    | some .acknowledged => .acknowledged
    | _ => .firing

/-- The status that a released alert gets. -/
def Application.restoredStatus (a : Application) : Status :=
  if a.previousStatus = .firing ∨ a.previousStatus = .acknowledged then a.previousStatus
  else .firing

/-- `release_application(application)` on the row. -/
def Application.released (a : Application) (reason : ReleaseReason) (now : Instant) : Application :=
  { a with active := false, releasedAt := some now, releaseReason := some reason }

/-- `alert_rule_matches(…, silence)` of an event and of an alert. -/
structure Matchers where
  event : Silence → Dict → Bool
  alert : Silence → Alert → Bool

/-- `_silence_is_active(silence, now)`. -/
def Silence.isActive (s : Silence) (now : Instant) : Bool :=
  s.enabled && !s.deleted && decide (s.startsAt ≤ now ∧ now < s.endsAt)

namespace Desk

variable (d : Desk)

def saveSilence (s : Silence) : Desk := { d with silences := d.silences.save s }

def saveApplication (a : Application) : Desk := { d with applications := d.applications.save a }

def saveAlert (a : Alert) : Desk := { d with store := d.store.saveAlert a }

/-- `has_other_active_application(alert_id)`. -/
def hasOtherActiveApplication (alertId : ℕ) : Bool :=
  d.applications.rows.any fun a => a.alert = alertId && a.active

/-- `list_active_applications_for_silence(silence_id)`. -/
def listActiveApplicationsForSilence (silenceId : ℕ) : List Application :=
  d.applications.rows.filter fun a => a.silence = silenceId && a.active

/-- `find_active_silences(team_id, …)`, the newest first. -/
def findActiveSilences (team : Option Id) (isMatch : Silence → Bool) (now : Instant) :
    List Silence :=
  match team with
  | none => []
  | some team =>
    ((d.silences.rows.filter fun s => s.team = team && s.isActive now).reverse).filter isMatch

/-- `get_or_create_application(…)`: the relation of the pair, and whether it was created or
made active again. -/
def getOrCreateApplication (silenceId alertId : ℕ) (group : Option ℕ) (previousStatus : Status)
    (source : ApplicationSource) (now : Instant) : Desk × Bool :=
  match d.applications.rows.find? fun a => a.silence = silenceId && a.alert = alertId with
  | none =>
    let application : Application :=
      { id := d.applications.next, silence := silenceId, alert := alertId, group, previousStatus,
        source, appliedAt := now }
    ({ d with applications := d.applications.insert application rfl }, true)
  | some application =>
    if application.active then (d, false)
    else (d.saveApplication { application with
      group, previousStatus, source, active := true, appliedAt := now, releasedAt := none
      releaseReason := none }, true)

/-- `record_new_alert_silences(alert, silences)`. -/
def recordNewAlertSilences (alertId : ℕ) (group : Option ℕ) (silences : List Silence)
    (now : Instant) : Desk :=
  silences.foldl
    (fun d s => (d.getOrCreateApplication s.id alertId group .firing .newAlert now).1) d

/-! ## Recalculating the groups that changed -/

/-- A group is recalculated, and stamped where the silencing changed it. -/
def recalculateGroup (before after : Status) (now : Instant) (groupId : ℕ) : Desk :=
  match d.store.groups.get groupId with
  | none => d
  | some group =>
    let (s, group') := d.store.recalculateAlertGroup group now
    if group.status = before ∧ group'.status = after then
      { d with store := s.saveGroup { group' with updatedAt := now } }
    else { d with store := s }

def recalculateGroups (before after : Status) (now : Instant) (groupIds : List ℕ) : Desk :=
  groupIds.dedup.foldl (fun d n => d.recalculateGroup before after now n) d

/-! ## Applying -/

/-- One round of the loop of `apply_silence_to_existing_alerts`. -/
def silenceAlert (rules : Matchers) (silence : Silence) (now : Instant)
    (state : Desk × List ℕ) (alert : Alert) : Desk × List ℕ :=
  if rules.alert silence alert then
    let (d, created) := state.1.getOrCreateApplication silence.id alert.id alert.group
      (previousStatusOf alert) .retroactive now
    if !created || alert.status = .silenced then (d, state.2)
    else (d.saveAlert { alert with
      previousStatus := some alert.status, status := .silenced, silenced := true },
      state.2 ++ alert.group.toList)
  else state

/-- The alerts that a silence may be applied to. -/
def silenceable (silence : Silence) : List Alert :=
  d.store.alerts.rows.filter fun a => a.team = some silence.team &&
    (a.status = .firing || a.status = .silenced) &&
    (d.store.groupOf a).any fun g =>
      (g.status = .firing || g.status = .silenced) && g.mergedInto = none

/-- `apply_silence_to_existing_alerts(silence)`. -/
def applySilenceToExistingAlerts (rules : Matchers) (silence : Silence) (now : Instant) : Desk :=
  if silence.applyToExisting && silence.isActive now then
    let (d', changed) := (d.silenceable silence).foldl (silenceAlert rules silence now) (d, [])
    (d'.recalculateGroups .firing .silenced now changed).saveSilence
      { silence with reconciledAt := some now }
  else d

/-! ## Releasing -/

/-- `_release_application_alert(application)`, and the group of the alert where it is
active again. -/
def releaseApplicationAlert (reason : ReleaseReason) (now : Instant) (application : Application) :
    Desk × Option ℕ :=
  let released := d.saveApplication (application.released reason now)
  match d.store.alerts.get application.alert with
  | none => (released, none)
  | some alert =>
    if alert.status = .resolved then (released, none)
    else if released.hasOtherActiveApplication alert.id then (released, none)
    else if alert.status ≠ .silenced then (released, none)
    else (released.saveAlert { alert with
      previousStatus := some alert.status
      status := application.restoredStatus
      silenced := false }, alert.group)

/-- The loop of `release_silence_applications`. -/
def releaseApplications (reason : ReleaseReason) (now : Instant) (applications : List Application) :
    Desk × List ℕ :=
  applications.foldl
    (fun state application =>
      let (d, group) := state.1.releaseApplicationAlert reason now application
      (d, state.2 ++ group.toList)) (d, [])

/-- `release_silence_applications(silence)`. -/
def releaseSilenceApplications (silence : Silence) (reason : ReleaseReason) (now : Instant)
    (applications : List Application) (respectReactivateOnEnd : Bool) : Desk :=
  let reconciled := { silence with reconciledAt := some now }
  if respectReactivateOnEnd && !silence.reactivateOnEnd then d.saveSilence reconciled
  else
    let (d', changed) := d.releaseApplications reason now applications
    (d'.recalculateGroups .silenced .firing now changed).saveSilence reconciled

/-! ## Reconciling -/

def endReason (silence : Silence) : ReleaseReason :=
  if !silence.enabled || silence.deleted then .disabled else .expired

/-- `should_keep`. -/
def keepsApplication (rules : Matchers) (silence : Silence) (application : Application) : Bool :=
  (d.store.alerts.get application.alert).any fun alert =>
    alert.team = some silence.team && rules.alert silence alert &&
      (application.source = .newAlert || silence.applyToExisting)

/-- `reconcile_silence(silence)`. -/
def reconcileSilence (rules : Matchers) (silence : Silence) (now : Instant) : Desk :=
  let applications := d.listActiveApplicationsForSilence silence.id
  if !silence.isActive now then
    if silence.enabled && !silence.deleted && decide (now < silence.startsAt) then
      (d.releaseSilenceApplications silence .updated now applications false).saveSilence
        { silence with reconciledAt := none }
    else d.releaseSilenceApplications silence (endReason silence) now applications true
  else
    let invalid := applications.filter fun a => !d.keepsApplication rules silence a
    let d' := if invalid.isEmpty then d
      else d.releaseSilenceApplications silence .updated now invalid false
    d'.applySilenceToExistingAlerts rules silence now

/-! ## The scheduler -/

/-- The silenced alerts that no active application holds. -/
def orphans : List Alert :=
  d.store.alerts.rows.filter fun a => a.status = .silenced &&
    ((d.store.groupOf a).any fun g => g.status ≠ .resolved) &&
    !d.hasOtherActiveApplication a.id

/-- One round of the loop of `reconcile_orphan_silenced_alerts`. -/
def reconcileOrphan (rules : Matchers) (now : Instant) (state : Desk × List ℕ) (alert : Alert) :
    Desk × List ℕ :=
  match state.1.findActiveSilences alert.team (fun s => rules.alert s alert) now with
  | [] => (state.1.saveAlert { alert with
      previousStatus := some alert.status, status := .firing, silenced := false },
      state.2 ++ alert.group.toList)
  | silences => (state.1.recordNewAlertSilences alert.id alert.group silences now, state.2)

/-- `reconcile_orphan_silenced_alerts()`. -/
def reconcileOrphanSilencedAlerts (rules : Matchers) (now : Instant) : Desk :=
  let (d', changed) := d.orphans.foldl (reconcileOrphan rules now) (d, [])
  d'.recalculateGroups .silenced .firing now changed

/-- `list_due_retroactive_silences()`. -/
def listDueRetroactiveSilences (now : Instant) : List Silence :=
  (d.silences.rows.filter fun s =>
    s.applyToExisting && s.isActive now && s.reconciledAt.isNone).mergeSort fun s s' =>
      decide (toLex (s.startsAt, s.id) ≤ toLex (s'.startsAt, s'.id))

/-- `list_silences_with_due_releases()`. -/
def listSilencesWithDueReleases (now : Instant) : List Silence :=
  d.silences.rows.filter fun s =>
    !(d.listActiveApplicationsForSilence s.id).isEmpty && s.reactivateOnEnd &&
      (!s.enabled || s.deleted || decide (s.endsAt ≤ now))

def releaseEnded (now : Instant) (silence : Silence) : Desk :=
  d.releaseSilenceApplications silence (endReason silence) now
    (d.listActiveApplicationsForSilence silence.id) true

/-- `process_silence_lifecycle()`. -/
def processSilenceLifecycle (rules : Matchers) (now : Instant) : Desk :=
  let d := d.reconcileOrphanSilencedAlerts rules now
  let d := (d.listDueRetroactiveSilences now).foldl
    (fun d s => d.applySilenceToExistingAlerts rules s now) d
  (d.listSilencesWithDueReleases now).foldl (fun d s => d.releaseEnded now s) d

end Desk

/-! ## The rules -/

/-- What the endpoints write into a silence. -/
structure SilenceData where
  team : Id
  matchers : Json
  startsAt : Instant
  endsAt : Instant
  applyToExisting : Bool
  reactivateOnEnd : Bool

namespace Desk

variable (d : Desk)

/-- `create_silence(…)`. -/
def createSilence (data : SilenceData) : Desk :=
  let silence : Silence :=
    { id := d.silences.next, team := data.team, matchers := data.matchers,
      startsAt := data.startsAt, endsAt := data.endsAt, applyToExisting := data.applyToExisting,
      reactivateOnEnd := data.reactivateOnEnd }
  { d with silences := d.silences.insert silence rfl }

/-- `get_silence(silence_id)`. -/
def getSilence (silenceId : ℕ) : Option Silence :=
  (d.silences.get silenceId).filter fun s => !s.deleted

/-- A write to a silence that asks for a reconciliation. -/
def editSilence (silenceId : ℕ) (edit : Silence → Silence) : Desk :=
  match d.getSilence silenceId with
  | none => d
  | some s => d.saveSilence { edit s with reconciledAt := none }

/-- `update_silence(silence_id, data)`. -/
def updateSilence (silenceId : ℕ) (data : SilenceData) : Desk :=
  d.editSilence silenceId fun s => { s with
    team := data.team, matchers := data.matchers, startsAt := data.startsAt
    endsAt := data.endsAt, applyToExisting := data.applyToExisting
    reactivateOnEnd := data.reactivateOnEnd }

/-- `enable_silence(silence_id)`. -/
def enableSilence (silenceId : ℕ) : Desk := d.editSilence silenceId fun s => { s with enabled := true }

/-- `disable_silence(silence_id)`. -/
def disableSilence (silenceId : ℕ) : Desk :=
  d.editSilence silenceId fun s => { s with enabled := false }

/-- `soft_delete_silence(silence_id)`. -/
def softDeleteSilence (silenceId : ℕ) : Desk :=
  d.editSilence silenceId fun s => { s with enabled := false, deleted := true }

/-! ## The intake -/

/-- `_upsert_alert` with the silences: a new alert is recorded with those that match. -/
def intake (env : Services) (rules : Matchers) (a : Arrival) (now : Instant) : Desk :=
  let matching := d.findActiveSilences (some a.route.team.id) (fun s => rules.event s a.alertData) now
  let env := { env with
    isSilenced := fun team data now =>
      !(d.findActiveSilences (some team) (fun s => rules.event s data) now).isEmpty }
  let (s, outcome) := persistEvent env a now d.store
  let written := { d with store := s }
  match outcome with
  | .completed group alert true => written.recordNewAlertSilences alert (some group) matching now
  | _ => written

end Desk

end IncidentRelay.Alerts
