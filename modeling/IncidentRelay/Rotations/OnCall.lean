import IncidentRelay.Lib.Calendar
import IncidentRelay.Rotations.Membership
import IncidentRelay.Rotations.Schedule
import Mathlib.Data.List.Sort
import Mathlib.Data.Prod.Lex

/-!
# Who is on call

`oncall.py` over the rows of a rotation: an override wins over the layers, among the layers the
one of the highest priority that is active and has somebody scheduled.
-/

namespace IncidentRelay.Rotations

/-! ## Rows -/

/-- A time `HH:MM`, as the schema lets it through. -/
structure TimeOfDay where
  hour : ℕ
  minute : ℕ
  hour_lt : hour < 24
  minute_lt : minute < 60

/-- `_minutes(value)` -/
def TimeOfDay.minutes (t : TimeOfDay) : ℤ := t.hour * 60 + t.minute

structure RotationLayerRestriction where
  id : ℕ
  layer : Id
  weekday : Option (Fin 7)
  startTime : TimeOfDay
  endTime : TimeOfDay

/-- The row of a layer, with the settings of its schedule. -/
structure LayerRow where
  id : Id
  rotation : Id
  priority : ℤ
  enabled : Bool
  deleted : Bool
  schedule : RotationLayer

structure RotationOverride where
  id : ℕ
  rotation : Id
  user : Id
  startsAt : Instant
  endsAt : Instant
  deriving DecidableEq

structure OnCallUser where
  id : Id
  active : Bool
  deleted : Bool
  deriving DecidableEq

structure RotationRow where
  id : Id
  name : String
  team : Id
  teamSlug : String
  enabled : Bool
  deleted : Bool
  deriving DecidableEq

/-- The tables; a user that a row refers to is there. -/
structure RotationTables where
  layers : IdTable LayerRow (fun l => (l.id : ℕ))
  members : Members
  restrictions : IdTable RotationLayerRestriction (·.id)
  overrides : IdTable RotationOverride (·.id)
  user : Id → OnCallUser

section Queries

variable (db : RotationTables)

/-- `get_active_override(rotation_id, now)` -/
def getActiveOverride (rotation : Id) (now : Instant) : Option RotationOverride :=
  db.overrides.latest fun o => o.rotation = rotation ∧ o.startsAt ≤ now ∧ now < o.endsAt

/-- `list_rotation_layers(rotation_id, enabled_only=True)` -/
def listRotationLayers (rotation : Id) : List LayerRow :=
  (db.layers.rows.filter fun l => l.rotation = rotation ∧ !l.deleted ∧ l.enabled).insertionSort
    fun l l' => toLex (l'.priority, l'.id) ≤ toLex (l.priority, l.id)

/-- `list_rotation_layer_members(layer_id, active_only=True, at=now, include_inactive_users=False)` -/
def listRotationLayerMembers (layer : Id) (now : Instant) : List RotationLayerMember :=
  (db.members.rows.filter fun m => m.layer = layer ∧ m.effectiveAt now ∧ m.active ∧
    (db.user m.user).active ∧ !(db.user m.user).deleted).insertionSort
    fun m m' => toLex (m.position, m.id) ≤ toLex (m'.position, m'.id)

/-- `list_rotation_layer_restrictions(layer_id)`; whether one of them matches does not depend on
their order. -/
def listRotationLayerRestrictions (layer : Id) : List RotationLayerRestriction :=
  db.restrictions.rows.filter fun r => r.layer = layer

end Queries

/-! ## Restrictions -/

/-- `local_dt.hour * 60 + local_dt.minute` -/
def minuteOfDay (wall : Instant) : ℤ := wall % seconds 86400 / seconds 60

/-- `local_dt.weekday()` -/
def weekdayOf (wall : Instant) : ℤ := Calendar.weekday (wall / seconds 86400)

/-- `_restriction_matches(restriction, local_dt)` -/
def restrictionMatches (r : RotationLayerRestriction) (wall : Instant) : Bool :=
  let start := r.startTime.minutes
  let stop := r.endTime.minutes
  let current := minuteOfDay wall
  let weekday := weekdayOf wall
  if start = stop then r.weekday.all fun d => weekday = (d : ℤ)
  else if start < stop then
    (r.weekday.all fun d => weekday = (d : ℤ)) && decide (start ≤ current ∧ current < stop)
  else
    -- the window goes on after midnight
    match r.weekday with
    | none => decide (start ≤ current ∨ current < stop)
    | some d => decide (weekday = (d : ℤ) ∧ start ≤ current ∨
        weekday = ((d : ℤ) + 1) % 7 ∧ current < stop)

/-! ## The user on call -/

section OnCall

variable (zoneInfo : String → Option Zone) (db : RotationTables)

/-- `is_layer_active_now(layer, now)` -/
def isLayerActiveNow (layer : LayerRow) (now : Instant) : Bool :=
  if !layer.enabled || layer.deleted then false
  else
    match listRotationLayerRestrictions db layer.id with
    | [] => true
    | restrictions =>
      restrictions.any fun r => restrictionMatches r ((layerTimezone zoneInfo layer.schedule).toLocal now)

/-- `get_scheduled_oncall_user_for_layer(layer, now)` -/
def getScheduledOncallUserForLayer (layer : LayerRow) (now : Instant) : Option OnCallUser :=
  match listRotationLayerMembers db layer.id now with
  | [] => none
  | members =>
    (layerSlotIndex zoneInfo layer.schedule now).bind fun slot =>
      members[(slot % members.length).toNat]?.map fun m => db.user m.user

/-- `get_active_rotation_layer(rotation, now)` -/
def getActiveRotationLayer (rotation : RotationRow) (now : Instant) : Option LayerRow :=
  if !rotation.enabled || rotation.deleted then none
  else
    (listRotationLayers db rotation.id).find? fun layer =>
      isLayerActiveNow zoneInfo db layer now &&
        (getScheduledOncallUserForLayer zoneInfo db layer now).isSome

/-- `get_scheduled_oncall_user(rotation, now)` -/
def getScheduledOncallUser (rotation : RotationRow) (now : Instant) : Option OnCallUser :=
  if !rotation.enabled || rotation.deleted then none
  else
    (getActiveRotationLayer zoneInfo db rotation now).bind fun layer =>
      getScheduledOncallUserForLayer zoneInfo db layer now

/-- `get_current_oncall_user(rotation, now)` -/
def getCurrentOncallUser (rotation : RotationRow) (now : Instant) : Option OnCallUser :=
  if !rotation.enabled || rotation.deleted then none
  else
    match getActiveOverride db rotation.id now with
    | some override => some (db.user override.user)
    | none => getScheduledOncallUser zoneInfo db rotation now

end OnCall

end IncidentRelay.Rotations
