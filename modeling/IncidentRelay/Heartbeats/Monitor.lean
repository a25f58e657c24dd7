import IncidentRelay.Heartbeats.Schedule
import IncidentRelay.Lib.Table
import IncidentRelay.Tenant
import Mathlib.Data.List.Sort

/-!
# The overdue check

The heartbeat table and `process_overdue_heartbeats`. A tick reads a batch of
candidates by their stored `next_expected_at` and handles the rows of the batch
one by one; it opens an alert for an overdue heartbeat and gives any other row of
the batch a new `next_expected_at`. Heartbeats that track instances have a loop
of their own and never enter the batch.

The alert service is outside: `AlertService` says which alert groups are open and
what an upsert returns.
-/

namespace IncidentRelay.Heartbeats

inductive Mode where
  | interval
  | scheduled
  deriving DecidableEq, Repr

inductive Status where
  | new
  | ok
  | overdue
  | paused
  deriving DecidableEq, Repr

structure Heartbeat where
  id : Id
  team : Id
  group : Option Id
  mode : Mode
  expectedIntervalSeconds : Option Int
  gracePeriodSeconds : Nat
  schedule : Schedule
  status : Status
  enabled : Bool
  deleted : Bool
  instanceTrackingEnabled : Bool
  lastSeenAt : Option Int
  nextExpectedAt : Option Int
  overdueSince : Option Int
  lastOverdueAt : Option Int
  currentAlertGroup : Option Id
  createdAt : Int
  updatedAt : Int
  deriving DecidableEq

def defaultIntervalSeconds : Int := 300

/-- `int(expected_interval_seconds or DEFAULT_INTERVAL_SECONDS)`. -/
def Heartbeat.interval (h : Heartbeat) : Int :=
  match h.expectedIntervalSeconds with
  | none | some 0 => defaultIntervalSeconds
  | some n => n

/-- `compute_next_expected_at`. -/
def computeNextExpectedAt (h : Heartbeat) (now : Int) : Int :=
  match h.mode with
  | .scheduled => scheduledNextDue h.schedule now
  | .interval => h.lastSeenAt.getD h.createdAt + h.interval

/-- `heartbeat_is_overdue`. -/
def heartbeatIsOverdue (h : Heartbeat) (now : Int) : Bool :=
  if h.instanceTrackingEnabled then false
  else if h.status = .paused ∨ h.enabled = false ∨ h.deleted = true then false
  else
    match h.mode with
    | .scheduled =>
      let due := scheduledDue h.schedule now
      if now < due + h.gracePeriodSeconds then false
      else h.lastSeenAt.all (· < due)
    | .interval =>
      let expectedAt := h.nextExpectedAt.getD (computeNextExpectedAt h now)
      expectedAt + h.gracePeriodSeconds ≤ now

/-- What the check needs of the alert service. -/
structure AlertService where
  /-- The alert group is there and not resolved. -/
  groupOpen : Id → Bool
  /-- `upsert_alert` of the overdue alert: its group, if any, or an exception. -/
  upsert : Heartbeat → Except String (Option Id)

/-- `mark_heartbeat_overdue`. The row is saved before the upsert, so an exception
there leaves it overdue. -/
def markHeartbeatOverdue (alerts : AlertService) (now : Int) (h : Heartbeat) : Heartbeat :=
  if h.status = .overdue ∧ h.currentAlertGroup.any alerts.groupOpen = true then h
  else
    let saved :=
      { h with
        status := .overdue
        overdueSince := some (h.overdueSince.getD now)
        lastOverdueAt := if h.status = .overdue then h.lastOverdueAt else some now
        updatedAt := now
        nextExpectedAt := some (computeNextExpectedAt h now) }
    match alerts.upsert saved with
    | .ok (some group) => { saved with currentAlertGroup := some group }
    | .ok none | .error _ => saved

/-- The body of the loop of `process_overdue_heartbeats`. -/
def processHeartbeat (alerts : AlertService) (now : Int) (h : Heartbeat) : Heartbeat :=
  if heartbeatIsOverdue h now then markHeartbeatOverdue alerts now h
  else { h with nextExpectedAt := some (computeNextExpectedAt h now) }

/-! ## The table -/

structure Store where
  heartbeats : List Heartbeat
  teams : List Team
  groups : List Group
  ids_nodup : (heartbeats.map (·.id)).Nodup

/-- The conditions of `list_due_heartbeat_candidates`. -/
def candidateGuard (s : Store) (now : Int) (teamIds : Option (List Id)) (h : Heartbeat) : Bool :=
  h.deleted = false ∧ h.enabled = true ∧ h.status ≠ .paused ∧ teamLive s.teams h.team = true ∧
    h.group.all (groupLive s.groups) = true ∧ h.instanceTrackingEnabled = false ∧
    h.nextExpectedAt.all (· ≤ now) = true ∧ teamIds.all (h.team ∈ ·) = true

/-- `ORDER BY next_expected_at ASC NULLS FIRST, id ASC`. -/
def candidateLe (a b : Heartbeat) : Prop :=
  match a.nextExpectedAt, b.nextExpectedAt with
  | none, none => a.id ≤ b.id
  | none, some _ => True
  | some _, none => False
  | some x, some y => x < y ∨ (x = y ∧ a.id ≤ b.id)

instance : DecidableRel candidateLe := fun a b =>
  match ha : a.nextExpectedAt, hb : b.nextExpectedAt with
  | none, none => decidable_of_iff (a.id ≤ b.id) (by simp [candidateLe, ha, hb])
  | none, some _ => .isTrue (by simp [candidateLe, ha, hb])
  | some _, none => .isFalse (by simp [candidateLe, ha, hb])
  | some x, some y =>
    decidable_of_iff (x < y ∨ (x = y ∧ a.id ≤ b.id)) (by simp [candidateLe, ha, hb])

/-- `list_due_heartbeat_candidates`, down to the ids. -/
def listDueHeartbeatCandidates (s : Store) (now : Int) (limit : Nat)
    (teamIds : Option (List Id)) : List Id :=
  (((s.heartbeats.filter (candidateGuard s now teamIds)).insertionSort candidateLe).take
    limit).map (·.id)

/-- A call of `process_overdue_heartbeats`, and the alert service it finds. -/
structure Tick where
  now : Int
  limit : Nat := 100
  teamIds : Option (List Id) := none
  alerts : AlertService

/-- The heartbeat is in the batch the tick reads. -/
def selects (s : Store) (t : Tick) (id : Id) : Bool :=
  id ∈ listDueHeartbeatCandidates s t.now t.limit t.teamIds

theorem markHeartbeatOverdue_id (alerts : AlertService) (now : Int) (h : Heartbeat) :
    (markHeartbeatOverdue alerts now h).id = h.id := by
  unfold markHeartbeatOverdue
  split
  · rfl
  · dsimp only
    split <;> rfl

theorem processHeartbeat_id (alerts : AlertService) (now : Int) (h : Heartbeat) :
    (processHeartbeat alerts now h).id = h.id := by
  unfold processHeartbeat
  split
  · exact markHeartbeatOverdue_id alerts now h
  · rfl

/-- `process_overdue_heartbeats`. The rows of the batch are different rows, and
handling one does not look at another. -/
def processOverdueHeartbeats (s : Store) (t : Tick) : Store where
  heartbeats := Table.update (fun h => selects s t h.id) (processHeartbeat t.alerts t.now)
    s.heartbeats
  teams := s.teams
  groups := s.groups
  ids_nodup := by
    rw [Table.map_update_of_guard _ fun h _ => processHeartbeat_id t.alerts t.now h]
    exact s.ids_nodup

/-- A sequence of ticks. -/
def runTicks (s : Store) (ticks : List Tick) : Store :=
  ticks.foldl processOverdueHeartbeats s

/-- The first tick of a sequence whose batch has the heartbeat. -/
def firstSelecting (id : Id) : Store → List Tick → Option Tick
  | _, [] => none
  | s, t :: ticks =>
    if selects s t id then some t else firstSelecting id (processOverdueHeartbeats s t) ticks

end IncidentRelay.Heartbeats
