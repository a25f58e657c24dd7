import IncidentRelay.Alerts.GroupWork

/-!
# The priority of a group

The priority columns of alerts and groups, beside the rest of their rows. An event brings the
priority that is resolved for it: a new group starts with it, a group that is there takes it by
the update mode, unless an operator has set the priority.

 * `raisedOrder_eq_min_iff`: when a priority is raised to the more urgent of the two.
 * `persistPriority_rows`: the rest of the rows is written as without the columns.
-/

namespace IncidentRelay.Alerts

/-! ## Columns -/

/-- A row of `IncidentPriority`; the lower the level, the more urgent. -/
structure IncidentPriority where
  id : ℕ
  slug : String
  level : ℤ
  enabled : Bool
  deriving DecidableEq

inductive UpdateMode where
  | raiseOnly
  | initialOnly
  | recalculate
  deriving DecidableEq

structure PriorityResolution where
  priority : Option IncidentPriority
  updateMode : UpdateMode

/-- `priority`, `priority_slug` and `priority_order` of an alert. -/
structure AlertPriority where
  priority : Option ℕ
  prioritySlug : String
  priorityOrder : ℤ
  deriving DecidableEq

/-- The same columns of a group, with `priority_set_manually`. -/
structure GroupPriority extends AlertPriority where
  prioritySetManually : Bool
  deriving DecidableEq

/-- `incident_priority_create_kwargs(priority)` -/
def incidentPriorityCreateKwargs (priority : Option IncidentPriority) : AlertPriority where
  priority := priority.map (·.id)
  prioritySlug := (priority.map (·.slug)).getD "p3"
  priorityOrder := (priority.map (·.level)).getD 3

/-- `apply_priority_to_existing_alert(alert, priority)`: all three columns, as for a new one. -/
def applyPriorityToExistingAlert (priority : Option IncidentPriority) : AlertPriority :=
  incidentPriorityCreateKwargs priority

/-- `value or 999` -/
def orderOr999 (order : ℤ) : ℤ := if order = 0 then 999 else order

structure Triage where
  rows : Store
  groups : ℕ → GroupPriority
  alerts : ℕ → AlertPriority
  catalog : List IncidentPriority

/-! ## The priority of a group that is there -/

section Group

variable (group : GroupPriority)

/-- `group_priority_state(group)` -/
def groupPriorityState : GroupPriority := group

/-- `restore_group_priority_state(group, state)` -/
def restoreGroupPriorityState (state : GroupPriority) : GroupPriority :=
  if groupPriorityState group = state then group
  else { group with
    priority := state.priority
    prioritySlug := state.prioritySlug
    priorityOrder := state.priorityOrder
    prioritySetManually := state.prioritySetManually }

/-- `_save_auto_priority(group, priority)` -/
def saveAutoPriority (priority : IncidentPriority) : GroupPriority :=
  if group.priority = some priority.id ∧ group.prioritySlug = priority.slug ∧
      group.priorityOrder = priority.level then group
  else { group with
    priority := some priority.id
    prioritySlug := priority.slug
    priorityOrder := priority.level
    prioritySetManually := false }

/-- `maybe_apply_auto_priority_to_group(group, priority)` -/
def maybeApplyAutoPriorityToGroup (priority : Option IncidentPriority) : GroupPriority :=
  match priority with
  | none => group
  | some priority =>
    if group.prioritySetManually then group
    else
      let currentOrder := orderOr999 group.priorityOrder
      if currentOrder ≤ priority.level then group
      else saveAutoPriority group priority

-- Keeps the order of the levels computable where all of Mathlib is imported.
local instance rankPreorder : Preorder ℤ := Int.instLinearOrder.toPreorder

/-- `recalculate_auto_priority_from_active_alerts(group)`; the first alert of the lowest order. -/
def recalculateAutoPriority (catalog : List IncidentPriority) (active : List AlertPriority) :
    GroupPriority :=
  if group.prioritySetManually then group
  else
    let priority := (active.argmin fun a => orderOr999 a.priorityOrder).bind fun a =>
      a.priority.bind fun id => catalog.find? fun p => p.id = id
    match priority.filter fun p => p.slug ≠ "" with
    | none => group
    | some priority => saveAutoPriority group priority

/-- `apply_priority_resolution_to_group(group, resolution)` -/
def applyPriorityResolutionToGroup (catalog : List IncidentPriority) (active : List AlertPriority)
    (resolution : PriorityResolution) : GroupPriority :=
  if group.prioritySetManually then group
  else
    match resolution.updateMode with
    | .initialOnly => group
    | .recalculate => recalculateAutoPriority group catalog active
    | .raiseOnly =>
      if resolution.priority.isNone then group
      else maybeApplyAutoPriorityToGroup group resolution.priority

end Group

namespace Triage

variable (b : Triage)

def setGroup (n : ℕ) (group : GroupPriority) : Triage :=
  { b with groups := Function.update b.groups n group }

def setAlert (n : ℕ) (alert : AlertPriority) : Triage :=
  { b with alerts := Function.update b.alerts n alert }

/-- The alerts of the group that are not resolved and have a priority. -/
def activeAlerts (n : ℕ) : List AlertPriority :=
  ((b.rows.children n).filter fun a =>
    a.status ≠ .resolved && (b.alerts a.id).priority.isSome).map fun a => b.alerts a.id

/-- What happens to the priority of a group that takes an event in, from its save before the
recalculation on. -/
def applyToGroup (n : ℕ) (resolution : PriorityResolution) : Triage :=
  let state := groupPriorityState (b.groups n)
  let restored := restoreGroupPriorityState (b.groups n) state
  b.setGroup n (applyPriorityResolutionToGroup restored b.catalog (b.activeAlerts n) resolution)

end Triage

/-! ## An event -/

section Event

variable (env : Services) (a : Arrival) (now : Instant) (resolution : PriorityResolution)
  (b : Triage)

/-- The columns of a group and its first alert. -/
def createPriority (group alert : ℕ) : Triage :=
  let kwargs := incidentPriorityCreateKwargs resolution.priority
  (b.setGroup group { kwargs with prioritySetManually := false }).setAlert alert kwargs

/-- `_handle_existing_alert(…)` on a triage. -/
def handleExistingPriority (status : Status) (existing : Alert) (openGroup : Option AlertGroup) :
    Triage × Outcome :=
  let (rows, outcome) := handleExistingAlert env a now b.rows status existing openGroup
  let written := { b with rows }
  match b.rows.groupOf existing <|> openGroup with
  | none => (createPriority resolution written b.rows.groups.next existing.id, outcome)
  | some g =>
    let refreshed := applyPriorityToExistingAlert resolution.priority
    ((written.setAlert existing.id refreshed).applyToGroup g.id resolution, outcome)

/-- The group that a new alert finds, open or to be reopened. -/
def foundGroup (s : Store) (reopenEnabled : Bool) (openGroup : Option AlertGroup) :
    Option AlertGroup :=
  if reopenEnabled then
    match s.findExactOpenGroup env.sha256 (a.identity env) with
    | some g => some g
    | none =>
      s.findResolvedReopenCandidate env.sha256 (a.identity env) now
        a.runtime.groupingReopenWindowSeconds
  else openGroup

/-- The alert that another intake seems to have created meanwhile. -/
def racedAlert (s : Store) (reopenEnabled : Bool) : Option (AlertGroup × Alert) :=
  if reopenEnabled then
    (s.findExistingAlert a.source a.dedupKey (some a.route.id)).bind fun raced =>
      (s.groupOf raced).bind fun g =>
        if Store.matchesIdentity env.sha256 (a.identity env) g then some (g, raced) else none
  else none

/-- The rest of `_upsert_alert` on a triage. -/
def createForNewPriority (status : Status) (reopenEnabled : Bool) (openGroup : Option AlertGroup) :
    Triage × Outcome :=
  let (rows, outcome) := createForNew env a now b.rows status reopenEnabled openGroup
  let written := { b with rows }
  match racedAlert env a b.rows reopenEnabled with
  | some _ => (written, outcome)
  | none =>
    match foundGroup env a now b.rows reopenEnabled openGroup with
    | none => (createPriority resolution written b.rows.groups.next b.rows.alerts.next, outcome)
    | some g =>
      let kwargs := incidentPriorityCreateKwargs resolution.priority
      ((written.setAlert b.rows.alerts.next kwargs).applyToGroup g.id resolution, outcome)

def reopenEnabledUnder (status : Status) : Bool :=
  0 < a.runtime.groupingReopenWindowSeconds ∧ a.status = .firing ∧
    (status = .firing ∨ status = .silenced)

/-- `_upsert_alert` behind the pause and drop dispositions, on a triage. -/
def persistPriority : Triage × Outcome :=
  let existing := lookupExisting env a b.rows
  let openGroup := b.rows.findOpenAlertGroup env.sha256 (a.identity env)
  let decision := maintenanceDecision env a now ((existing.bind b.rows.groupOf) <|> openGroup)
  let status := statusUnder a decision
  if decision = some .suppressIncident ∧ existing = none ∧ openGroup = none then
    (b, .stopped "suppressed")
  else match existing with
    | some existing => handleExistingPriority env a now resolution b status existing openGroup
    | none =>
      if status = .resolved then (b, .stopped "ignored")
      else createForNewPriority env a now resolution b status (reopenEnabledUnder a status) openGroup

end Event

/-! ## Operators -/

section Operators

variable (b : Triage) (n : ℕ)

/-- `get_priority_by_slug(slug)` -/
def Triage.getPriorityBySlug (slug : String) : Option IncidentPriority :=
  b.catalog.find? fun p => p.slug = slug && p.enabled

/-- `set_incident_priority(group_id, priority)` -/
def setIncidentPriority (slug : String) : Except String Triage :=
  if slug = "" then .error "priority is required"
  else if (b.rows.groups.get n).isNone then .error "incident not found"
  else
    match b.getPriorityBySlug slug with
    | none => .error "priority must be one of enabled incident priorities"
    | some priority =>
      if (b.groups n).prioritySlug = slug ∧ (b.groups n).prioritySetManually then .ok b
      else .ok (b.setGroup n {
        priority := some priority.id
        prioritySlug := priority.slug
        priorityOrder := priority.level
        prioritySetManually := true })

/-- `reset_incident_priority(group_id)`, with what `resolve_automatic_incident_priority` finds. -/
def resetIncidentPriority (automatic : Option IncidentPriority) : Except String Triage :=
  if (b.rows.groups.get n).isNone then .error "incident not found"
  else if !(b.groups n).prioritySetManually then .ok b
  else
    match automatic with
    | none => .error "automatic priority could not be resolved"
    | some priority => .ok (b.setGroup n {
        priority := some priority.id
        prioritySlug := priority.slug
        priorityOrder := priority.level
        prioritySetManually := false })

end Operators

/-! ## Raising -/

theorem restore_state (group : GroupPriority) :
    restoreGroupPriorityState group (groupPriorityState group) = group := if_pos rfl

/-- An automatic priority brings its level along. -/
@[simp] theorem saveAutoPriority_order (group : GroupPriority) (priority : IncidentPriority) :
    (saveAutoPriority group priority).priorityOrder = priority.level := by
  unfold saveAutoPriority
  split_ifs with h
  · exact h.2.2
  · rfl

/-- And leaves a group that was not set by hand as one that was not. -/
theorem saveAutoPriority_manual {group : GroupPriority} (h : group.prioritySetManually = false)
    (priority : IncidentPriority) : (saveAutoPriority group priority).prioritySetManually = false := by
  unfold saveAutoPriority
  split_ifs
  · exact h
  · rfl

/-- A priority that an operator has set stays, in every mode. -/
theorem apply_of_manual {group : GroupPriority} (h : group.prioritySetManually = true)
    (catalog : List IncidentPriority) (active : List AlertPriority)
    (resolution : PriorityResolution) :
    applyPriorityResolutionToGroup group catalog active resolution = group := if_pos h

/-- The order of a group after a resolution that may raise it. -/
def raisedOrder (order : ℤ) : Option IncidentPriority → ℤ
  | none => order
  | some priority => if orderOr999 order ≤ priority.level then order else priority.level

/-- A resolution that only raises leaves the group at the higher of both levels. -/
theorem apply_raiseOnly {group : GroupPriority} (hauto : group.prioritySetManually = false)
    (catalog : List IncidentPriority) (active : List AlertPriority)
    {resolution : PriorityResolution} (hmode : resolution.updateMode = .raiseOnly) :
    (applyPriorityResolutionToGroup group catalog active resolution).priorityOrder =
        raisedOrder group.priorityOrder resolution.priority ∧
      (applyPriorityResolutionToGroup group catalog active resolution).prioritySetManually =
        false := by
  unfold applyPriorityResolutionToGroup maybeApplyAutoPriorityToGroup raisedOrder
  rw [hmode, hauto]
  cases resolution.priority with
  | none => exact ⟨rfl, hauto⟩
  | some priority =>
    simp only [Bool.false_eq_true, if_false, Option.isNone_some]
    split_ifs
    · exact ⟨rfl, hauto⟩
    · exact ⟨saveAutoPriority_order group priority, saveAutoPriority_manual hauto priority⟩

/-- **A priority is raised to the more urgent of the two, unless it has order 0**, which counts
as 999. -/
theorem raisedOrder_eq_min_iff (order : ℤ) (priority : IncidentPriority) :
    raisedOrder order (some priority) = min order priority.level ↔
      ¬(order = 0 ∧ 0 < priority.level ∧ priority.level < 999) := by
  unfold raisedOrder orderOr999
  dsimp only
  split_ifs with hzero hle hle
  all_goals omega

/-! ## The rest of the rows -/

section Rows

variable (env : Services) (a : Arrival) (now : Instant) (resolution : PriorityResolution)
  (b : Triage)

/-- **The rows are written as without the columns.** -/
theorem persistPriority_rows : (persistPriority env a now resolution b).1.rows =
      (persistEvent env a now b.rows).1 ∧
    (persistPriority env a now resolution b).2 = (persistEvent env a now b.rows).2 := by
  unfold persistPriority persistEvent reopenEnabledUnder
  dsimp only
  split
  · exact ⟨rfl, rfl⟩
  · cases lookupExisting env a b.rows with
    | some existing =>
      dsimp only
      unfold handleExistingPriority
      dsimp only
      split <;> exact ⟨rfl, rfl⟩
    | none =>
      dsimp only
      split
      · exact ⟨rfl, rfl⟩
      · unfold createForNewPriority
        dsimp only
        split
        · exact ⟨rfl, rfl⟩
        · split <;> exact ⟨rfl, rfl⟩

end Rows

end IncidentRelay.Alerts
